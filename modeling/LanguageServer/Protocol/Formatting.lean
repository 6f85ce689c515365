import LanguageServer.Protocol.Edit

/-!
# Formatting

A document, a range of it, or the line just typed are brought into form. Clients add options of
their own, which are kept.
-/

namespace LanguageServer

/-- How wide a tabulator is, whether it is made of blanks, and more. -/
structure FormattingOptions where
  tabSize : UInt32
  insertSpaces : Bool
  trimTrailingWhitespace : Option Bool := none
  insertFinalNewline : Option Bool := none
  trimFinalNewlines : Option Bool := none
  properties : Dictionary LspAny := Dictionary.empty
deriving BEq

def FormattingOptions.record : Record FormattingOptions :=
  ⟨"FormattingOptions", FormattingOptions.mk,
    .own "tabSize" (·.tabSize) (.required Codec.uint32) <|
    .own "insertSpaces" (·.insertSpaces) (.required Codec.bool) <|
    .own "trimTrailingWhitespace" (·.trimTrailingWhitespace) (.trailing Codec.bool) <|
    .own "insertFinalNewline" (·.insertFinalNewline) (.trailing Codec.bool) <|
    .own "trimFinalNewlines" (·.trimFinalNewlines) (.trailing Codec.bool) <|
    .part (·.properties) (Part.rest LspAny.codec) .done⟩

def FormattingOptions.codec : Codec FormattingOptions := FormattingOptions.record.codec

/-- The client asks for a document to be formatted. -/
structure DocumentFormattingParams where
  textDocument : TextDocumentIdentifier
  options : FormattingOptions
  workDone : WorkDoneProgressParams := {}
deriving BEq

def DocumentFormattingParams.record : Record DocumentFormattingParams :=
  ⟨"DocumentFormattingParams", DocumentFormattingParams.mk,
    .own "textDocument" (·.textDocument) (.required TextDocumentIdentifier.codec) <|
    .own "options" (·.options) (.required FormattingOptions.codec) <|
    .part (·.workDone) WorkDoneProgressParams.record.part .done⟩

def DocumentFormattingParams.codec : Codec DocumentFormattingParams :=
  DocumentFormattingParams.record.codec

/-- The client asks for a range to be formatted. -/
structure DocumentRangeFormattingParams where
  textDocument : TextDocumentIdentifier
  range : Range
  options : FormattingOptions
  workDone : WorkDoneProgressParams := {}
deriving BEq

def DocumentRangeFormattingParams.record : Record DocumentRangeFormattingParams :=
  ⟨"DocumentRangeFormattingParams", DocumentRangeFormattingParams.mk,
    .own "textDocument" (·.textDocument) (.required TextDocumentIdentifier.codec) <|
    .own "range" (·.range) (.required Range.codec) <|
    .own "options" (·.options) (.required FormattingOptions.codec) <|
    .part (·.workDone) WorkDoneProgressParams.record.part .done⟩

def DocumentRangeFormattingParams.codec : Codec DocumentRangeFormattingParams :=
  DocumentRangeFormattingParams.record.codec

/-- The client asks for formatting after a character was typed. -/
structure DocumentOnTypeFormattingParams where
  target : TextDocumentPositionParams
  ch : String
  options : FormattingOptions
deriving BEq

def DocumentOnTypeFormattingParams.record : Record DocumentOnTypeFormattingParams :=
  ⟨"DocumentOnTypeFormattingParams", DocumentOnTypeFormattingParams.mk,
    .part (·.target) TextDocumentPositionParams.record.part <|
    .own "ch" (·.ch) (.required Codec.string) <|
    .own "options" (·.options) (.required FormattingOptions.codec) .done⟩

def DocumentOnTypeFormattingParams.codec : Codec DocumentOnTypeFormattingParams :=
  DocumentOnTypeFormattingParams.record.codec

/-- The characters after which the server formats. -/
structure DocumentOnTypeFormattingOptions where
  firstTriggerCharacter : String := ""
  moreTriggerCharacter : Option (List String) := none

def DocumentOnTypeFormattingOptions.record : Record DocumentOnTypeFormattingOptions :=
  ⟨"DocumentOnTypeFormattingOptions", DocumentOnTypeFormattingOptions.mk,
    .own "firstTriggerCharacter" (·.firstTriggerCharacter) (.required Codec.string) <|
    .own "moreTriggerCharacter" (·.moreTriggerCharacter) (.optional Codec.string.list) .done⟩

def DocumentOnTypeFormattingOptions.codec : Codec DocumentOnTypeFormattingOptions :=
  DocumentOnTypeFormattingOptions.record.codec

end LanguageServer
