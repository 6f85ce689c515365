import LanguageServer.Protocol.Identifier

/-!
# Positions, ranges and locations

A position counts lines and, inside a line, code units of an encoding that both sides agree on. Both
counts start at zero. Positions are ordered by line and then by character.
-/

namespace LanguageServer

/-- The code units in which the characters of a line are counted. -/
inductive PositionEncodingKind where
  | utf8
  | utf16
  | utf32
deriving DecidableEq, Repr

/-- The name of a `PositionEncodingKind` in documents. -/
def PositionEncodingKind.name : PositionEncodingKind → String
  | .utf8 => "utf-8"
  | .utf16 => "utf-16"
  | .utf32 => "utf-32"

def PositionEncodingKind.enumeration : Enumeration PositionEncodingKind :=
  ⟨[.utf8, .utf16, .utf32], PositionEncodingKind.name⟩

def PositionEncodingKind.codec : Codec PositionEncodingKind :=
  PositionEncodingKind.enumeration.codec

/-- The encoding of a name. -/
def PositionEncodingKind.ofName? (name : String) : Option PositionEncodingKind :=
  PositionEncodingKind.enumeration.ofName? name

/-- Encodings that a client offers: names that are not known are dropped. -/
def Field.knownEncodings : Field (Option (List PositionEncodingKind)) where
  encode es := es.map PositionEncodingKind.codec.list.encode
  decode s := do
    let names ← Codec.string.list.option.decode s
    .ok (names.map fun ns => ns.filterMap PositionEncodingKind.ofName?)
  absent := some none
  short := some none

/-- A place between two characters of a document. -/
structure Position where
  line : UInt32
  character : UInt32
deriving DecidableEq, Repr, Inhabited

def Position.record : Record Position :=
  ⟨"Position", Position.mk,
    .own "line" (·.line) (.required Codec.uint32) <|
    .own "character" (·.character) (.required Codec.uint32) .done⟩

def Position.codec : Codec Position := Position.record.codec

namespace Position

/-- The beginning of a document. -/
def start : Position := ⟨0, 0⟩

/-- By line, then by character. -/
def compare (a b : Position) : Ordering :=
  (Ord.compare a.line b.line).then (Ord.compare a.character b.character)

/-- Whether `a` does not come behind `b`. -/
def le (a b : Position) : Bool := a.compare b != .gt

/-- Whether `a` comes before `b`. -/
def lt (a b : Position) : Bool := a.compare b == .lt

end Position

/-- The text between two positions, the end not included. -/
structure Range where
  start : Position
  stop : Position
deriving DecidableEq, Repr, Inhabited

def Range.record : Record Range :=
  ⟨"Range", Range.mk,
    .own "start" (·.start) (.required Position.codec) <|
    .own "end" (·.stop) (.required Position.codec) .done⟩

def Range.codec : Codec Range := Range.record.codec

namespace Range

/-- A range from four counts. -/
def ofCounts (startLine startCharacter stopLine stopCharacter : UInt32) : Range :=
  ⟨⟨startLine, startCharacter⟩, ⟨stopLine, stopCharacter⟩⟩

/-- Whether a position lies in the range. -/
def contains (r : Range) (p : Position) : Bool := r.start.le p && p.lt r.stop

/-- Whether nothing lies in the range because it ends where it starts. -/
def isEmpty (r : Range) : Bool := r.start == r.stop

/-- Whether the range does not end before it starts. -/
def isWellFormed (r : Range) : Bool := r.start.le r.stop

end Range

/-- A range of a document. -/
structure Location where
  uri : DocumentUri
  range : Range
deriving DecidableEq

def Location.record : Record Location :=
  ⟨"Location", Location.mk,
    .own "uri" (·.uri) (.required Codec.string) <|
    .own "range" (·.range) (.required Range.codec) .done⟩

def Location.codec : Codec Location := Location.record.codec

/-- A range of a document as the target of a link from another range. -/
structure LocationLink where
  originSelectionRange : Option Range := none
  targetUri : DocumentUri
  targetRange : Range
  targetSelectionRange : Range

def LocationLink.record : Record LocationLink :=
  ⟨"LocationLink", LocationLink.mk,
    .own "originSelectionRange" (·.originSelectionRange) (.optional Range.codec) <|
    .own "targetUri" (·.targetUri) (.required Codec.string) <|
    .own "targetRange" (·.targetRange) (.required Range.codec) <|
    .own "targetSelectionRange" (·.targetSelectionRange) (.required Range.codec) .done⟩

def LocationLink.codec : Codec LocationLink := LocationLink.record.codec

end LanguageServer
