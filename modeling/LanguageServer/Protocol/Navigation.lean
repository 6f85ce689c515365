import LanguageServer.Protocol.Document
import LanguageServer.Protocol.Progress
import LanguageServer.Protocol.Provider

/-!
# Finding one's way

Where a symbol is declared, defined, implemented and used, what belongs together at a position, and
how a selection grows.
-/

namespace LanguageServer

open Json (Source)

/-- The places that a symbol leads to. -/
inductive GotoDefinitionResponse where
  | scalar (location : Location)
  | array (locations : List Location)
  | link (links : List LocationLink)

/-- Locations and links look alike as lists; the first item decides. -/
def GotoDefinitionResponse.codec : Codec GotoDefinitionResponse :=
  .byValue
    (fun
      | .scalar l => Location.codec.encode l
      | .array ls => Location.codec.list.encode ls
      | .link ls => LocationLink.codec.list.encode ls)
    (fun
      | .object ms => (Location.codec.ofJson (.object ms)).map .scalar
      | .array items =>
        if (items.head?.bind (Json.member? "targetUri")).isSome then
          (LocationLink.codec.list.ofJson (.array items)).map .link
        else (Location.codec.list.ofJson (.array items)).map .array
      | j => Codec.unfit "a location or an array of locations" j)

/-- Whether a client takes links. -/
structure GotoClientCapabilities where
  dynamicRegistration : Option Bool := none
  linkSupport : Option Bool := none

def GotoClientCapabilities.record : Record GotoClientCapabilities :=
  ⟨"GotoClientCapabilities", GotoClientCapabilities.mk,
    .own "dynamicRegistration" (·.dynamicRegistration) (.trailing Codec.bool) <|
    .own "linkSupport" (·.linkSupport) (.trailing Codec.bool) .done⟩

def GotoClientCapabilities.codec : Codec GotoClientCapabilities :=
  GotoClientCapabilities.record.codec

/-- Whether the declaration counts as a use. -/
structure ReferenceContext where
  includeDeclaration : Bool

def ReferenceContext.record : Record ReferenceContext :=
  ⟨"ReferenceContext", ReferenceContext.mk,
    .own "includeDeclaration" (·.includeDeclaration) (.required Codec.bool) .done⟩

def ReferenceContext.codec : Codec ReferenceContext := ReferenceContext.record.codec

/-- The client asks for the uses of a symbol. -/
structure ReferenceParams where
  target : TextDocumentPositionParams
  workDone : WorkDoneProgressParams := {}
  partialResult : PartialResultParams := {}
  context : ReferenceContext

def ReferenceParams.record : Record ReferenceParams :=
  ⟨"ReferenceParams", ReferenceParams.mk,
    .part (·.target) TextDocumentPositionParams.record.part <|
    .part (·.workDone) WorkDoneProgressParams.record.part <|
    .part (·.partialResult) PartialResultParams.record.part <|
    .own "context" (·.context) (.required ReferenceContext.codec) .done⟩

def ReferenceParams.codec : Codec ReferenceParams := ReferenceParams.record.codec

/-- How a symbol is used. -/
inductive DocumentHighlightKind where
  | text
  | read
  | write
deriving DecidableEq, Repr

/-- The number of a `DocumentHighlightKind` in documents. -/
def DocumentHighlightKind.toNat : DocumentHighlightKind → Nat
  | .text => 1
  | .read => 2
  | .write => 3

def DocumentHighlightKind.numbering : Numbering DocumentHighlightKind :=
  ⟨"DocumentHighlightKind", [.text, .read, .write], DocumentHighlightKind.toNat⟩

def DocumentHighlightKind.codec : Codec DocumentHighlightKind :=
  DocumentHighlightKind.numbering.codec

/-- A use of a symbol in the document itself. -/
structure DocumentHighlight where
  range : Range
  kind : Option DocumentHighlightKind := none

def DocumentHighlight.record : Record DocumentHighlight :=
  ⟨"DocumentHighlight", DocumentHighlight.mk,
    .own "range" (·.range) (.required Range.codec) <|
    .own "kind" (·.kind) (.trailing DocumentHighlightKind.codec) .done⟩

def DocumentHighlight.codec : Codec DocumentHighlight := DocumentHighlight.record.codec

/-- The client asks how selections at some positions grow. -/
structure SelectionRangeParams where
  textDocument : TextDocumentIdentifier
  positions : List Position
  workDone : WorkDoneProgressParams := {}
  partialResult : PartialResultParams := {}

def SelectionRangeParams.record : Record SelectionRangeParams :=
  ⟨"SelectionRangeParams", SelectionRangeParams.mk,
    .own "textDocument" (·.textDocument) (.required TextDocumentIdentifier.codec) <|
    .own "positions" (·.positions) (.required Position.codec.list) <|
    .part (·.workDone) WorkDoneProgressParams.record.part <|
    .part (·.partialResult) PartialResultParams.record.part .done⟩

def SelectionRangeParams.codec : Codec SelectionRangeParams := SelectionRangeParams.record.codec

/-- A selection and the one it grows into. -/
structure SelectionRange where
  range : Range
  parent : Option SelectionRange := none

namespace SelectionRange

/-- A selection whose larger one is written and read by `parent`. -/
def record (parent : Codec SelectionRange) : Record SelectionRange :=
  ⟨"SelectionRange", SelectionRange.mk,
    .own "range" (·.range) (.required Range.codec) <|
    .own "parent" (·.parent) (.trailing parent) .done⟩

/-- The number of selections that a selection grows into. -/
def height : SelectionRange → Nat
  | ⟨_, none⟩ => 0
  | ⟨_, some parent⟩ => parent.height + 1

/-- Selections of at most `n` steps. -/
def codecUpTo : Nat → Codec SelectionRange
  | 0 => (record ⟨fun _ => .null, fun s => s.refuse "struct SelectionRange"⟩).codec
  | n + 1 => (record (codecUpTo n)).codec

def codec : Codec SelectionRange where
  encode x := (codecUpTo x.height).encode x
  decode s := (codecUpTo s.depth).decode s

end SelectionRange

/-- Ranges that are edited together. -/
structure LinkedEditingRanges where
  ranges : List Range
  wordPattern : Option String := none

def LinkedEditingRanges.record : Record LinkedEditingRanges :=
  ⟨"LinkedEditingRanges", LinkedEditingRanges.mk,
    .own "ranges" (·.ranges) (.required Range.codec.list) <|
    .own "wordPattern" (·.wordPattern) (.trailing Codec.string) .done⟩

def LinkedEditingRanges.codec : Codec LinkedEditingRanges := LinkedEditingRanges.record.codec

/-- How far a moniker is unique. -/
inductive UniquenessLevel where
  | document
  | project
  | group
  | scheme
  | global
deriving DecidableEq, Repr

/-- The name of a `UniquenessLevel` in documents. -/
def UniquenessLevel.name : UniquenessLevel → String
  | .document => "document"
  | .project => "project"
  | .group => "group"
  | .scheme => "scheme"
  | .global => "global"

def UniquenessLevel.enumeration : Enumeration UniquenessLevel :=
  ⟨[.document, .project, .group, .scheme, .global], UniquenessLevel.name⟩

def UniquenessLevel.codec : Codec UniquenessLevel := UniquenessLevel.enumeration.codec

/-- Whether a symbol comes from outside, goes outside or stays. -/
inductive MonikerKind where
  | imported
  | exported
  | internal
deriving DecidableEq, Repr

/-- The name of a `MonikerKind` in documents. -/
def MonikerKind.name : MonikerKind → String
  | .imported => "import"
  | .exported => "export"
  | .internal => "local"

def MonikerKind.enumeration : Enumeration MonikerKind :=
  ⟨[.imported, .exported, .internal], MonikerKind.name⟩

def MonikerKind.codec : Codec MonikerKind := MonikerKind.enumeration.codec

/-- The name of a symbol across indexes. -/
structure Moniker where
  scheme : String
  identifier : String
  unique : UniquenessLevel
  kind : Option MonikerKind := none

def Moniker.record : Record Moniker :=
  ⟨"Moniker", Moniker.mk,
    .own "scheme" (·.scheme) (.required Codec.string) <|
    .own "identifier" (·.identifier) (.required Codec.string) <|
    .own "unique" (·.unique) (.required UniquenessLevel.codec) <|
    .own "kind" (·.kind) (.trailing MonikerKind.codec) .done⟩

def Moniker.codec : Codec Moniker := Moniker.record.codec

end LanguageServer
