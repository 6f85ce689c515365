import LanguageServer.Protocol.Edit
import LanguageServer.Protocol.Progress

/-!
# Colours

Colours in a document, and the ways to write one.
-/

namespace LanguageServer

/-- A colour: red, green, blue and opacity from zero to one. -/
structure Color where
  red : Float
  green : Float
  blue : Float
  alpha : Float

def Color.record : Record Color :=
  ⟨"Color", Color.mk,
    .own "red" (·.red) (.required Codec.float) <|
    .own "green" (·.green) (.required Codec.float) <|
    .own "blue" (·.blue) (.required Codec.float) <|
    .own "alpha" (·.alpha) (.required Codec.float) .done⟩

def Color.codec : Codec Color := Color.record.codec

/-- A colour in a document. -/
structure ColorInformation where
  range : Range
  color : Color

def ColorInformation.record : Record ColorInformation :=
  ⟨"ColorInformation", ColorInformation.mk,
    .own "range" (·.range) (.required Range.codec) <|
    .own "color" (·.color) (.required Color.codec) .done⟩

def ColorInformation.codec : Codec ColorInformation := ColorInformation.record.codec

/-- The client asks how a colour can be written at a range. -/
structure ColorPresentationParams where
  textDocument : TextDocumentIdentifier
  color : Color
  range : Range
  workDone : WorkDoneProgressParams := {}
  partialResult : PartialResultParams := {}

def ColorPresentationParams.record : Record ColorPresentationParams :=
  ⟨"ColorPresentationParams", ColorPresentationParams.mk,
    .own "textDocument" (·.textDocument) (.required TextDocumentIdentifier.codec) <|
    .own "color" (·.color) (.required Color.codec) <|
    .own "range" (·.range) (.required Range.codec) <|
    .part (·.workDone) WorkDoneProgressParams.record.part <|
    .part (·.partialResult) PartialResultParams.record.part .done⟩

def ColorPresentationParams.codec : Codec ColorPresentationParams :=
  ColorPresentationParams.record.codec

/-- A way to write a colour. -/
structure ColorPresentation where
  label : String
  textEdit : Option TextEdit := none
  additionalTextEdits : Option (List TextEdit) := none

def ColorPresentation.record : Record ColorPresentation :=
  ⟨"ColorPresentation", ColorPresentation.mk,
    .own "label" (·.label) (.required Codec.string) <|
    .own "textEdit" (·.textEdit) (.trailing TextEdit.codec) <|
    .own "additionalTextEdits" (·.additionalTextEdits) (.trailing TextEdit.codec.list) .done⟩

def ColorPresentation.codec : Codec ColorPresentation := ColorPresentation.record.codec

end LanguageServer
