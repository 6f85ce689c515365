import LanguageServer.Protocol.Position

/-!
# Positions and byte offsets

A text is held as UTF-8 bytes; the protocol counts lines, and inside a line the code units of an
encoding.  Only the line feed ends a line.

* `Position.toOffset` gives the byte offset of a position.  A position behind the end of a line that
  has an end is the end of that line; one behind the end of the text is no position and gives zero.
* `Position.ofOffset` gives the position of a byte offset.  An offset inside a character is taken
  back to its first byte, one behind the end of the text to the end.
* `Position.endOfLine` gives the position of the line feed that ends a line.
-/

namespace LanguageServer

/-- The code units that a character takes. -/
def PositionEncodingKind.units (e : PositionEncodingKind) (c : Char) : Nat :=
  match e with
  | .utf8 => c.utf8Size
  | .utf16 => if c.toNat < 0x10000 then 1 else 2
  | .utf32 => 1

/-- The code units that characters take. -/
def PositionEncodingKind.unitsOf (e : PositionEncodingKind) : List Char → Nat
  | [] => 0
  | c :: cs => e.units c + e.unitsOf cs

namespace Position

/-- The characters from a line on, with the bytes before them; the end of the text when there is no
such line. -/
def lineAt : Nat → List Char → Nat → Nat × List Char
  | 0, cs, offset => (offset, cs)
  | _ + 1, [], offset => (offset, [])
  | n + 1, c :: cs, offset => lineAt (if c = '\n' then n else n + 1) cs (offset + c.utf8Size)

/-- Go along a line until `character` units are counted. -/
def walk (e : PositionEncodingKind) (character : Nat) : List Char → Nat → Nat → Nat
  | [], count, offset => if count < character then 0 else offset
  | c :: cs, count, offset =>
    if count < character then
      if c = '\n' then offset else walk e character cs (count + e.units c) (offset + c.utf8Size)
    else offset

/-- The byte offset of a position. -/
def toOffset (text : String) (p : Position) (e : PositionEncodingKind) : Nat :=
  let (offset, rest) := lineAt p.line.toNat text.toList 0
  walk e p.character.toNat rest 0 offset

/-- The position of the line feed that ends the line of `p`; `p` itself on the last line. -/
def endOfLine (text : String) (p : Position) (e : PositionEncodingKind) : Position :=
  let (_, rest) := lineAt p.line.toNat text.toList 0
  -- On the last line there is no line feed to point to.
  if rest.contains '\n' then
    ⟨p.line, UInt32.ofNat (e.unitsOf (rest.takeWhile (· ≠ '\n')))⟩
  else p

/-- Count lines and units up to a byte offset. -/
def count (e : PositionEncodingKind) (target : Nat) : List Char → Nat → Nat → Nat → Position
  | [], _, line, units => ⟨UInt32.ofNat line, UInt32.ofNat units⟩
  | c :: cs, offset, line, units =>
    -- A character counts only when all its bytes lie before the target.
    if offset + c.utf8Size ≤ target then
      if c = '\n' then count e target cs (offset + c.utf8Size) (line + 1) 0
      else count e target cs (offset + c.utf8Size) line (units + e.units c)
    else ⟨UInt32.ofNat line, UInt32.ofNat units⟩

/-- The position of a byte offset. -/
def ofOffset (text : String) (offset : Nat) (e : PositionEncodingKind) : Position :=
  count e offset text.toList 0 0 0

end Position

/-- The byte offsets of both ends of a range. -/
def Range.toOffsets (text : String) (r : Range) (e : PositionEncodingKind) : Nat × Nat :=
  (Position.toOffset text r.start e, Position.toOffset text r.stop e)

end LanguageServer
