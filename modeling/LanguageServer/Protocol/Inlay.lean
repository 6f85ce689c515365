import LanguageServer.Protocol.Command
import LanguageServer.Protocol.Edit
import LanguageServer.Protocol.Markup

/-!
# Hints and values in the text

Inlay hints are shown between the characters of a document; inline values are those of variables
while a program is stopped.
-/

namespace LanguageServer

/-- The client asks for the hints in a range. -/
structure InlayHintParams where
  textDocument : TextDocumentIdentifier
  range : Range
  workDone : WorkDoneProgressParams := {}

def InlayHintParams.record : Record InlayHintParams :=
  ⟨"InlayHintParams", InlayHintParams.mk,
    .own "textDocument" (·.textDocument) (.required TextDocumentIdentifier.codec) <|
    .own "range" (·.range) (.required Range.codec) <|
    .part (·.workDone) WorkDoneProgressParams.record.part .done⟩

def InlayHintParams.codec : Codec InlayHintParams := InlayHintParams.record.codec

/-- A part of the text of a hint. -/
structure InlayHintLabelPart where
  value : String
  tooltip : Option StringOrMarkupContent := none
  location : Option Location := none
  command : Option Command := none
deriving BEq

def InlayHintLabelPart.record : Record InlayHintLabelPart :=
  ⟨"InlayHintLabelPart", InlayHintLabelPart.mk,
    .own "value" (·.value) (.required Codec.string) <|
    .own "tooltip" (·.tooltip) (.trailing StringOrMarkupContent.codec) <|
    .own "location" (·.location) (.trailing Location.codec) <|
    .own "command" (·.command) (.trailing Command.codec) .done⟩

def InlayHintLabelPart.codec : Codec InlayHintLabelPart := InlayHintLabelPart.record.codec

/-- The text of a hint, whole or in parts. -/
inductive InlayHintLabel where
  | string (value : String)
  | parts (parts : List InlayHintLabelPart)
deriving BEq

def InlayHintLabel.codec : Codec InlayHintLabel :=
  .untagged "InlayHintLabel"
    (fun
      | .string s => .string s
      | .parts ps => InlayHintLabelPart.codec.list.encode ps)
    [fun s => (Codec.string.decode s).map .string,
      fun s => (InlayHintLabelPart.codec.list.decode s).map .parts]

/-- What a hint tells. -/
inductive InlayHintKind where
  | type
  | parameter
deriving DecidableEq, Repr

/-- The number of a `InlayHintKind` in documents. -/
def InlayHintKind.toNat : InlayHintKind → Nat
  | .type => 1
  | .parameter => 2

def InlayHintKind.numbering : Numbering InlayHintKind :=
  ⟨"InlayHintKind", [.type, .parameter], InlayHintKind.toNat⟩

def InlayHintKind.codec : Codec InlayHintKind := InlayHintKind.numbering.codec

/-- A hint at a position. -/
structure InlayHint where
  position : Position
  label : InlayHintLabel
  kind : Option InlayHintKind := none
  textEdits : Option (List TextEdit) := none
  tooltip : Option StringOrMarkupContent := none
  paddingLeft : Option Bool := none
  paddingRight : Option Bool := none
  data : Option LspAny := none
deriving BEq

def InlayHint.record : Record InlayHint :=
  ⟨"InlayHint", InlayHint.mk,
    .own "position" (·.position) (.required Position.codec) <|
    .own "label" (·.label) (.required InlayHintLabel.codec) <|
    .own "kind" (·.kind) (.trailing InlayHintKind.codec) <|
    .own "textEdits" (·.textEdits) (.trailing TextEdit.codec.list) <|
    .own "tooltip" (·.tooltip) (.trailing StringOrMarkupContent.codec) <|
    .own "paddingLeft" (·.paddingLeft) (.trailing Codec.bool) <|
    .own "paddingRight" (·.paddingRight) (.trailing Codec.bool) <|
    .own "data" (·.data) (.trailing LspAny.codec) .done⟩

def InlayHint.codec : Codec InlayHint := InlayHint.record.codec

/-- What of a hint may be filled in later. -/
structure InlayHintResolveSupport where
  properties : List String := []

def InlayHintResolveSupport.record : Record InlayHintResolveSupport :=
  ⟨"InlayHintResolveSupport", InlayHintResolveSupport.mk,
    .own "properties" (·.properties) (.required Codec.string.list) .done⟩

def InlayHintResolveSupport.codec : Codec InlayHintResolveSupport :=
  InlayHintResolveSupport.record.codec

/-- What a client can do with hints. -/
structure InlayHintClientCapabilities where
  dynamicRegistration : Option Bool := none
  resolveSupport : Option InlayHintResolveSupport := none

def InlayHintClientCapabilities.record : Record InlayHintClientCapabilities :=
  ⟨"InlayHintClientCapabilities", InlayHintClientCapabilities.mk,
    .own "dynamicRegistration" (·.dynamicRegistration) (.trailing Codec.bool) <|
    .own "resolveSupport" (·.resolveSupport) (.trailing InlayHintResolveSupport.codec) .done⟩

def InlayHintClientCapabilities.codec : Codec InlayHintClientCapabilities :=
  InlayHintClientCapabilities.record.codec

/-- Where the program is stopped. -/
structure InlineValueContext where
  frameId : Int32
  stoppedLocation : Range

def InlineValueContext.record : Record InlineValueContext :=
  ⟨"InlineValueContext", InlineValueContext.mk,
    .own "frameId" (·.frameId) (.required Codec.int32) <|
    .own "stoppedLocation" (·.stoppedLocation) (.required Range.codec) .done⟩

def InlineValueContext.codec : Codec InlineValueContext := InlineValueContext.record.codec

/-- The client asks for the values in a range. -/
structure InlineValueParams where
  textDocument : TextDocumentIdentifier
  range : Range
  context : InlineValueContext
  workDone : WorkDoneProgressParams := {}

def InlineValueParams.record : Record InlineValueParams :=
  ⟨"InlineValueParams", InlineValueParams.mk,
    .own "textDocument" (·.textDocument) (.required TextDocumentIdentifier.codec) <|
    .own "range" (·.range) (.required Range.codec) <|
    .own "context" (·.context) (.required InlineValueContext.codec) <|
    .part (·.workDone) WorkDoneProgressParams.record.part .done⟩

def InlineValueParams.codec : Codec InlineValueParams := InlineValueParams.record.codec

/-- A value as a text. -/
structure InlineValueText where
  range : Range
  text : String

def InlineValueText.record : Record InlineValueText :=
  ⟨"InlineValueText", InlineValueText.mk,
    .own "range" (·.range) (.required Range.codec) <|
    .own "text" (·.text) (.required Codec.string) .done⟩

def InlineValueText.codec : Codec InlineValueText := InlineValueText.record.codec

/-- A value to be looked up by the name of its variable. -/
structure InlineValueVariableLookup where
  range : Range
  variableName : Option String := none
  caseSensitiveLookup : Bool

def InlineValueVariableLookup.record : Record InlineValueVariableLookup :=
  ⟨"InlineValueVariableLookup", InlineValueVariableLookup.mk,
    .own "range" (·.range) (.required Range.codec) <|
    .own "variableName" (·.variableName) (.trailing Codec.string) <|
    .own "caseSensitiveLookup" (·.caseSensitiveLookup) (.required Codec.bool) .done⟩

def InlineValueVariableLookup.codec : Codec InlineValueVariableLookup :=
  InlineValueVariableLookup.record.codec

/-- A value to be computed from an expression. -/
structure InlineValueEvaluatableExpression where
  range : Range
  expression : Option String := none

def InlineValueEvaluatableExpression.record : Record InlineValueEvaluatableExpression :=
  ⟨"InlineValueEvaluatableExpression", InlineValueEvaluatableExpression.mk,
    .own "range" (·.range) (.required Range.codec) <|
    .own "expression" (·.expression) (.trailing Codec.string) .done⟩

def InlineValueEvaluatableExpression.codec : Codec InlineValueEvaluatableExpression :=
  InlineValueEvaluatableExpression.record.codec

/-- A value shown at a range. -/
inductive InlineValue where
  | text (value : InlineValueText)
  | variableLookup (value : InlineValueVariableLookup)
  | expression (value : InlineValueEvaluatableExpression)

def InlineValue.codec : Codec InlineValue :=
  .byValue
    (fun
      | .text v => InlineValueText.codec.encode v
      | .variableLookup v => InlineValueVariableLookup.codec.encode v
      | .expression v => InlineValueEvaluatableExpression.codec.encode v)
    (fun j =>
      match j.member? "text", j.member? "caseSensitiveLookup" with
      | some _, _ => (InlineValueText.codec.ofJson j).map .text
      | none, some _ => (InlineValueVariableLookup.codec.ofJson j).map .variableLookup
      | none, none => (InlineValueEvaluatableExpression.codec.ofJson j).map .expression)

end LanguageServer
