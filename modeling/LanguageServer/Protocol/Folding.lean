import LanguageServer.Protocol.Document
import LanguageServer.Protocol.Progress

/-!
# Folding

Ranges of lines that can be folded away.
-/

namespace LanguageServer

open Json (Source)

/-- The kind of a folding range: any name. -/
structure FoldingRangeKind where
  value : String
deriving DecidableEq, Repr

namespace FoldingRangeKind

/-- A comment. -/
def comment : FoldingRangeKind := ⟨"comment"⟩

/-- A group of imports. -/
def imports : FoldingRangeKind := ⟨"imports"⟩

/-- A region that is marked as one. -/
def region : FoldingRangeKind := ⟨"region"⟩

/-- The kinds with a known meaning. -/
def wellKnown : List FoldingRangeKind := [comment, imports, region]

def codec : Codec FoldingRangeKind := Codec.string.map .mk (·.value)

end FoldingRangeKind

/-- Lines that can be folded away. -/
structure FoldingRange where
  startLine : UInt32
  startCharacter : Option UInt32 := none
  endLine : UInt32
  endCharacter : Option UInt32 := none
  kind : Option FoldingRangeKind := none
  collapsedText : Option String := none

def FoldingRange.record : Record FoldingRange :=
  ⟨"FoldingRange", FoldingRange.mk,
    .own "startLine" (·.startLine) (.required Codec.uint32) <|
    .own "startCharacter" (·.startCharacter) (.trailing Codec.uint32) <|
    .own "endLine" (·.endLine) (.required Codec.uint32) <|
    .own "endCharacter" (·.endCharacter) (.trailing Codec.uint32) <|
    .own "kind" (·.kind) (.trailing FoldingRangeKind.codec) <|
    .own "collapsedText" (·.collapsedText) (.trailing Codec.string) .done⟩

def FoldingRange.codec : Codec FoldingRange := FoldingRange.record.codec

/-- The kinds of folding ranges that a client knows. -/
structure FoldingRangeKindCapabilities where
  valueSet : Option (List FoldingRangeKind) := none

def FoldingRangeKindCapabilities.record : Record FoldingRangeKindCapabilities :=
  ⟨"FoldingRangeKindCapabilities", FoldingRangeKindCapabilities.mk,
    .own "valueSet" (·.valueSet) (.trailing FoldingRangeKind.codec.list) .done⟩

def FoldingRangeKindCapabilities.codec : Codec FoldingRangeKindCapabilities :=
  FoldingRangeKindCapabilities.record.codec

/-- What a client can fold. -/
structure FoldingRangeClientCapabilities where
  dynamicRegistration : Option Bool := none
  rangeLimit : Option UInt32 := none
  lineFoldingOnly : Option Bool := none
  foldingRangeKind : Option FoldingRangeKindCapabilities := none

def FoldingRangeClientCapabilities.record : Record FoldingRangeClientCapabilities :=
  ⟨"FoldingRangeClientCapabilities", FoldingRangeClientCapabilities.mk,
    .own "dynamicRegistration" (·.dynamicRegistration) (.trailing Codec.bool) <|
    .own "rangeLimit" (·.rangeLimit) (.trailing Codec.uint32) <|
    .own "lineFoldingOnly" (·.lineFoldingOnly) (.trailing Codec.bool) <|
    .own "foldingRangeKind" (·.foldingRangeKind)
      (.trailing FoldingRangeKindCapabilities.codec) .done⟩

def FoldingRangeClientCapabilities.codec : Codec FoldingRangeClientCapabilities :=
  FoldingRangeClientCapabilities.record.codec

end LanguageServer
