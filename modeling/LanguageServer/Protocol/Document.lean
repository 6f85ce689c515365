import LanguageServer.Protocol.Position

/-!
# Text documents

How documents are named, with and without their version, and how sets of them are described.
-/

namespace LanguageServer

/-- A document by its name. -/
structure TextDocumentIdentifier where
  uri : DocumentUri
deriving DecidableEq

def TextDocumentIdentifier.record : Record TextDocumentIdentifier :=
  ⟨"TextDocumentIdentifier", TextDocumentIdentifier.mk,
    .own "uri" (·.uri) (.required Codec.string) .done⟩

def TextDocumentIdentifier.codec : Codec TextDocumentIdentifier :=
  TextDocumentIdentifier.record.codec

/-- A document as it is opened, with its text. -/
structure TextDocumentItem where
  uri : DocumentUri
  languageId : String
  version : Int32
  text : String
deriving DecidableEq

def TextDocumentItem.record : Record TextDocumentItem :=
  ⟨"TextDocumentItem", TextDocumentItem.mk,
    .own "uri" (·.uri) (.required Codec.string) <|
    .own "languageId" (·.languageId) (.required Codec.string) <|
    .own "version" (·.version) (.required Codec.int32) <|
    .own "text" (·.text) (.required Codec.string) .done⟩

def TextDocumentItem.codec : Codec TextDocumentItem := TextDocumentItem.record.codec

/-- A certain version of a document. -/
structure VersionedTextDocumentIdentifier where
  uri : DocumentUri
  version : Int32
deriving DecidableEq

def VersionedTextDocumentIdentifier.record : Record VersionedTextDocumentIdentifier :=
  ⟨"VersionedTextDocumentIdentifier", VersionedTextDocumentIdentifier.mk,
    .own "uri" (·.uri) (.required Codec.string) <|
    .own "version" (·.version) (.required Codec.int32) .done⟩

def VersionedTextDocumentIdentifier.codec : Codec VersionedTextDocumentIdentifier :=
  VersionedTextDocumentIdentifier.record.codec

/-- A certain version of a document, or whatever version there is. -/
structure OptionalVersionedTextDocumentIdentifier where
  uri : DocumentUri
  version : Option Int32
deriving DecidableEq

def OptionalVersionedTextDocumentIdentifier.record :
    Record OptionalVersionedTextDocumentIdentifier :=
  ⟨"OptionalVersionedTextDocumentIdentifier", OptionalVersionedTextDocumentIdentifier.mk,
    .own "uri" (·.uri) (.required Codec.string) <|
    .own "version" (·.version) (.nullable Codec.int32) .done⟩

def OptionalVersionedTextDocumentIdentifier.codec : Codec OptionalVersionedTextDocumentIdentifier :=
  OptionalVersionedTextDocumentIdentifier.record.codec

/-- A position in a document. -/
structure TextDocumentPositionParams where
  textDocument : TextDocumentIdentifier
  position : Position
deriving DecidableEq

def TextDocumentPositionParams.record : Record TextDocumentPositionParams :=
  ⟨"TextDocumentPositionParams", TextDocumentPositionParams.mk,
    .own "textDocument" (·.textDocument) (.required TextDocumentIdentifier.codec) <|
    .own "position" (·.position) (.required Position.codec) .done⟩

def TextDocumentPositionParams.codec : Codec TextDocumentPositionParams :=
  TextDocumentPositionParams.record.codec

/-- The position in the named document. -/
def TextDocumentPositionParams.new (uri : DocumentUri) (position : Position) :
    TextDocumentPositionParams := ⟨⟨uri⟩, position⟩

/-- The documents of a language, a scheme and a pattern; what is missing holds of all. -/
structure DocumentFilter where
  language : Option String := none
  scheme : Option String := none
  pattern : Option String := none

def DocumentFilter.record : Record DocumentFilter :=
  ⟨"DocumentFilter", DocumentFilter.mk,
    .own "language" (·.language) (.optional Codec.string) <|
    .own "scheme" (·.scheme) (.optional Codec.string) <|
    .own "pattern" (·.pattern) (.optional Codec.string) .done⟩

def DocumentFilter.codec : Codec DocumentFilter := DocumentFilter.record.codec

/-- The documents that one of the filters describes. -/
abbrev DocumentSelector := List DocumentFilter

end LanguageServer
