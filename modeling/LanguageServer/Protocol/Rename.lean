import LanguageServer.Protocol.Edit

/-!
# Renaming

A symbol gets another name everywhere.  Before that the client may ask what would be renamed.
-/

namespace LanguageServer

/-- How a server renames. -/
structure RenameOptions where
  workDoneProgress : Option Bool := none
  prepareProvider : Option Bool := none

def RenameOptions.record : Record RenameOptions :=
  ⟨"RenameOptions", RenameOptions.mk,
    .own "workDoneProgress" (·.workDoneProgress) (.optional Codec.bool) <|
    .own "prepareProvider" (·.prepareProvider) (.optional Codec.bool) .done⟩

def RenameOptions.codec : Codec RenameOptions := RenameOptions.record.codec

/-- The client asks for a symbol to be renamed. -/
structure RenameParams where
  target : TextDocumentPositionParams
  newName : String
  workDone : WorkDoneProgressParams := {}

def RenameParams.record : Record RenameParams :=
  ⟨"RenameParams", RenameParams.mk,
    .part (·.target) TextDocumentPositionParams.record.part <|
    .own "newName" (·.newName) (.required Codec.string) <|
    .part (·.workDone) WorkDoneProgressParams.record.part .done⟩

def RenameParams.codec : Codec RenameParams := RenameParams.record.codec

/-- What would be renamed, with a text to start from. -/
structure RangeWithPlaceholder where
  range : Range
  placeholder : String

def RangeWithPlaceholder.record : Record RangeWithPlaceholder :=
  ⟨"RangeWithPlaceholder", RangeWithPlaceholder.mk,
    .own "range" (·.range) (.required Range.codec) <|
    .own "placeholder" (·.placeholder) (.required Codec.string) .done⟩

def RangeWithPlaceholder.codec : Codec RangeWithPlaceholder := RangeWithPlaceholder.record.codec

/-- The client is to find out by itself what would be renamed. -/
structure DefaultBehavior where
  defaultBehavior : Bool

def DefaultBehavior.record : Record DefaultBehavior :=
  ⟨"DefaultBehavior", DefaultBehavior.mk,
    .own "defaultBehavior" (·.defaultBehavior) (.required Codec.bool) .done⟩

def DefaultBehavior.codec : Codec DefaultBehavior := DefaultBehavior.record.codec

/-- What would be renamed. -/
inductive PrepareRenameResponse where
  | range (range : Range)
  | placeholder (value : RangeWithPlaceholder)
  | defaultBehavior (value : DefaultBehavior)

def PrepareRenameResponse.codec : Codec PrepareRenameResponse :=
  .byValue
    (fun
      | .range r => Range.codec.encode r
      | .placeholder p => RangeWithPlaceholder.codec.encode p
      | .defaultBehavior d => DefaultBehavior.codec.encode d)
    (fun j =>
      match j.member? "placeholder", j.member? "defaultBehavior" with
      | some _, _ => (RangeWithPlaceholder.codec.ofJson j).map .placeholder
      | none, some _ => (DefaultBehavior.codec.ofJson j).map .defaultBehavior
      | none, none => (Range.codec.ofJson j).map .range)

/-- What a client can do about renaming. -/
structure RenameClientCapabilities where
  dynamicRegistration : Option Bool := none
  prepareSupport : Option Bool := none

def RenameClientCapabilities.record : Record RenameClientCapabilities :=
  ⟨"RenameClientCapabilities", RenameClientCapabilities.mk,
    .own "dynamicRegistration" (·.dynamicRegistration) (.trailing Codec.bool) <|
    .own "prepareSupport" (·.prepareSupport) (.trailing Codec.bool) .done⟩

def RenameClientCapabilities.codec : Codec RenameClientCapabilities :=
  RenameClientCapabilities.record.codec

end LanguageServer
