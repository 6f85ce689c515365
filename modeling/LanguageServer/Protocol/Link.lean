import LanguageServer.Protocol.Document
import LanguageServer.Protocol.Progress

/-!
# Links in documents

Places of a document that lead somewhere else.
-/

namespace LanguageServer

/-- A range that leads somewhere; the target may be filled in later. -/
structure DocumentLink where
  range : Range
  target : Option Uri := none
  tooltip : Option String := none
  data : Option LspAny := none

def DocumentLink.record : Record DocumentLink :=
  ⟨"DocumentLink", DocumentLink.mk,
    .own "range" (·.range) (.required Range.codec) <|
    .own "target" (·.target) (.trailing Codec.string) <|
    .own "tooltip" (·.tooltip) (.trailing Codec.string) <|
    .own "data" (·.data) (.trailing LspAny.codec) .done⟩

def DocumentLink.codec : Codec DocumentLink := DocumentLink.record.codec

end LanguageServer
