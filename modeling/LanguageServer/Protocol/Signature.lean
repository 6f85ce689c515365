import LanguageServer.Protocol.Markup
import LanguageServer.Protocol.Progress

/-!
# Signatures

The client asks for the signatures of the call around a position.
-/

namespace LanguageServer

/-- What makes the client ask. -/
structure SignatureHelpOptions where
  workDoneProgress : Option Bool := none
  triggerCharacters : Option (List String) := none
  retriggerCharacters : Option (List String) := none

def SignatureHelpOptions.record : Record SignatureHelpOptions :=
  ⟨"SignatureHelpOptions", SignatureHelpOptions.mk,
    .own "workDoneProgress" (·.workDoneProgress) (.optional Codec.bool) <|
    .own "triggerCharacters" (·.triggerCharacters) (.optional Codec.string.list) <|
    .own "retriggerCharacters" (·.retriggerCharacters) (.optional Codec.string.list) .done⟩

def SignatureHelpOptions.codec : Codec SignatureHelpOptions := SignatureHelpOptions.record.codec

/-- A parameter by its text, or by its place in the text of the signature. -/
inductive ParameterLabel where
  | simple (text : String)
  | offsets (start stop : UInt32)

def ParameterLabel.codec : Codec ParameterLabel :=
  .untagged "ParameterLabel"
    (fun
      | .simple s => .string s
      | .offsets a b => Codec.uint32.pair.encode (a, b))
    [fun s => (Codec.string.decode s).map .simple,
      fun s => (Codec.uint32.pair.decode s).map fun p => .offsets p.1 p.2]

/-- A parameter of a signature. -/
structure ParameterInformation where
  label : ParameterLabel
  documentation : Option StringOrMarkupContent := none

def ParameterInformation.record : Record ParameterInformation :=
  ⟨"ParameterInformation", ParameterInformation.mk,
    .own "label" (·.label) (.required ParameterLabel.codec) <|
    .own "documentation" (·.documentation) (.trailing StringOrMarkupContent.codec) .done⟩

def ParameterInformation.codec : Codec ParameterInformation := ParameterInformation.record.codec

/-- A signature. -/
structure SignatureInformation where
  label : String
  documentation : Option StringOrMarkupContent := none
  parameters : Option (List ParameterInformation) := none
  activeParameter : Option UInt32 := none

def SignatureInformation.record : Record SignatureInformation :=
  ⟨"SignatureInformation", SignatureInformation.mk,
    .own "label" (·.label) (.required Codec.string) <|
    .own "documentation" (·.documentation) (.trailing StringOrMarkupContent.codec) <|
    .own "parameters" (·.parameters) (.trailing ParameterInformation.codec.list) <|
    .own "activeParameter" (·.activeParameter) (.trailing Codec.uint32) .done⟩

def SignatureInformation.codec : Codec SignatureInformation := SignatureInformation.record.codec

/-- The signatures of a call, the one in use and the parameter at hand. -/
structure SignatureHelp where
  signatures : List SignatureInformation := []
  activeSignature : Option UInt32 := none
  activeParameter : Option UInt32 := none

def SignatureHelp.record : Record SignatureHelp :=
  ⟨"SignatureHelp", SignatureHelp.mk,
    .own "signatures" (·.signatures) (.required SignatureInformation.codec.list) <|
    .own "activeSignature" (·.activeSignature) (.trailing Codec.uint32) <|
    .own "activeParameter" (·.activeParameter) (.trailing Codec.uint32) .done⟩

def SignatureHelp.codec : Codec SignatureHelp := SignatureHelp.record.codec

/-- What made the client ask. -/
inductive SignatureHelpTriggerKind where
  | invoked
  | triggerCharacter
  | contentChange
deriving DecidableEq, Repr

/-- The number of a `SignatureHelpTriggerKind` in documents. -/
def SignatureHelpTriggerKind.toNat : SignatureHelpTriggerKind → Nat
  | .invoked => 1
  | .triggerCharacter => 2
  | .contentChange => 3

def SignatureHelpTriggerKind.numbering : Numbering SignatureHelpTriggerKind :=
  ⟨"SignatureHelpTriggerKind", [.invoked, .triggerCharacter,
    .contentChange], SignatureHelpTriggerKind.toNat⟩

def SignatureHelpTriggerKind.codec : Codec SignatureHelpTriggerKind :=
  SignatureHelpTriggerKind.numbering.codec

/-- What made the client ask, and what it shows already. -/
structure SignatureHelpContext where
  triggerKind : SignatureHelpTriggerKind
  triggerCharacter : Option String := none
  isRetrigger : Bool
  activeSignatureHelp : Option SignatureHelp := none

def SignatureHelpContext.record : Record SignatureHelpContext :=
  ⟨"SignatureHelpContext", SignatureHelpContext.mk,
    .own "triggerKind" (·.triggerKind) (.required SignatureHelpTriggerKind.codec) <|
    .own "triggerCharacter" (·.triggerCharacter) (.trailing Codec.string) <|
    .own "isRetrigger" (·.isRetrigger) (.required Codec.bool) <|
    .own "activeSignatureHelp" (·.activeSignatureHelp) (.trailing SignatureHelp.codec) .done⟩

def SignatureHelpContext.codec : Codec SignatureHelpContext := SignatureHelpContext.record.codec

/-- The client asks for the signatures of a call. -/
structure SignatureHelpParams where
  target : TextDocumentPositionParams
  workDone : WorkDoneProgressParams := {}
  context : Option SignatureHelpContext := none

def SignatureHelpParams.record : Record SignatureHelpParams :=
  ⟨"SignatureHelpParams", SignatureHelpParams.mk,
    .part (·.target) TextDocumentPositionParams.record.part <|
    .part (·.workDone) WorkDoneProgressParams.record.part <|
    .own "context" (·.context) (.trailing SignatureHelpContext.codec) .done⟩

def SignatureHelpParams.codec : Codec SignatureHelpParams := SignatureHelpParams.record.codec

end LanguageServer
