import LanguageServer.Json.Source
import LanguageServer.Text.Digits

/-!
# Reading texts

`Document.ofText` reads a text as far as it goes and gives the `Source` of what stands there.  A
node that cannot be read holds the fault of reading it.  Where such a node is the value of a member,
`passOver` decides whether the text goes on behind it: passing over a value checks its brackets,
strings and number shapes, but neither the range of a number, nor the pairing of surrogates, nor how
deep it nests.  So a place behind a node says only that the node can be passed over.

All offsets count bytes.  The fuel of the readers is computed from the text, which shrinks with
every step.
-/

namespace LanguageServer

open Text (ofDigits)

namespace Json

/-- A place in a text: the bytes before it and the characters from it on. -/
structure Cursor where
  offset : Nat
  chars : List Char

namespace Cursor

/-- A fault here, behind the last byte taken. -/
def here (c : Cursor) (e : SyntaxError) : Fault := ⟨e, c.offset⟩

/-- A fault at the next byte; at the end of the text, behind the last one. -/
def ahead (c : Cursor) (e : SyntaxError) : Fault :=
  ⟨e, if c.chars.isEmpty then c.offset else c.offset + 1⟩

/-- Behind the next character. -/
def next (c : Cursor) : Cursor :=
  match c.chars with
  | [] => c
  | ch :: rest => ⟨c.offset + ch.utf8Size, rest⟩

/-- Behind blanks, tabulators and line ends. -/
def skipBlanks (c : Cursor) : Cursor :=
  let blanks := c.chars.takeWhile fun ch => ch = ' ' || ch = '\n' || ch = '\t' || ch = '\r'
  ⟨c.offset + blanks.length, c.chars.drop blanks.length⟩

/-- The decimal digits from here on, and the place behind them. -/
def digits (c : Cursor) : List Char × Cursor :=
  let ds := c.chars.takeWhile Char.isDigit
  (ds, ⟨c.offset + ds.length, c.chars.drop ds.length⟩)

/-- The bytes left. -/
def bytesLeft (c : Cursor) : Nat := c.chars.foldl (fun n ch => n + ch.utf8Size) 0

end Cursor

/-- The letters of a word, of which the first has been taken. -/
def readWord (word : List Char) (c : Cursor) : Except Fault Cursor :=
  match word with
  | [] => .ok c
  | letter :: rest =>
    match c.chars with
    | [] => .error (c.here .eofValue)
    | ch :: _ =>
      if ch = letter then readWord rest c.next else .error ⟨.expectedIdent, c.offset + 1⟩

/-- The digits before the point of a number: no superfluous zero, at least one digit. -/
def readWhole (c : Cursor) (onEnd : SyntaxError) : Except Fault (List Char × Cursor) :=
  match c.chars with
  | [] => .error (c.here onEnd)
  | ch :: rest =>
    if ch = '0' then
      -- A zero stands alone before the point.
      match rest with
      | d :: _ => if d.isDigit then .error (c.next.ahead .invalidNumber) else .ok (['0'], c.next)
      | [] => .ok (['0'], c.next)
    else if ch.isDigit then .ok c.digits
    else .error ⟨.invalidNumber, c.offset + 1⟩

/-- The digits behind the point, if a point is next. -/
def readFraction (c : Cursor) (onEnd : SyntaxError) : Except Fault (Option (List Char) × Cursor) :=
  match c.chars with
  | '.' :: _ =>
    let (ds, rest) := c.next.digits
    -- A point needs a digit behind it.
    if ds.isEmpty then
      .error (rest.ahead (if rest.chars.isEmpty then onEnd else .invalidNumber))
    else .ok (some ds, rest)
  | _ => .ok (none, c)

/-- The sign and the digits of an exponent, if one is next. -/
def readExponent (c : Cursor) (onEnd : SyntaxError) :
    Except Fault (Option (Bool × List Char × Cursor) × Cursor) :=
  let signed (c : Cursor) : Except Fault (Option (Bool × List Char × Cursor) × Cursor) :=
    let (negative, c) :=
      match c.chars with
      | '+' :: _ => (false, c.next)
      | '-' :: _ => (true, c.next)
      | _ => (false, c)
    match c.chars with
    | [] => .error (c.here onEnd)
    | d :: _ =>
      if d.isDigit then
        let (ds, rest) := c.digits
        .ok (some (negative, ds, c), rest)
      else .error ⟨.invalidNumber, c.offset + 1⟩
  match c.chars with
  | 'e' :: _ => signed c.next
  | 'E' :: _ => signed c.next
  | _ => .ok (none, c)

/-- The first number of leading digits whose value is beyond the range of exponents. -/
def overflowAt (ds : List Char) : Option Nat :=
  (List.range (ds.length + 1)).find? fun n => 2147483647 < ofDigits (ds.take n)

/-- A number; the next character is a digit or a minus sign. -/
def readNumber (c : Cursor) : Except Fault (Number × Cursor) := do
  let (negative, c) :=
    match c.chars with
    | '-' :: _ => (true, c.next)
    | _ => (false, c)
  let (whole, c) ← readWhole c .eofValue
  let (fraction, c) ← readFraction c .eofValue
  let (exponent, c) ← readExponent c .eofValue
  let settle (n : Option Number) : Except Fault (Number × Cursor) :=
    match n with
    | some n => .ok (n, c)
    | none => .error (c.here .numberOutOfRange)
  match fraction, exponent with
  -- Without point and exponent it is an integer, as long as it fits.
  | none, none => settle (Number.ofInteger? negative (ofDigits whole))
  | _, none =>
    let places := fraction.getD []
    settle ((Number.nearest? negative (ofDigits (whole ++ places)) (-(places.length : Int))).map
      .float)
  | _, some (minus, ds, start) =>
    let places := fraction.getD []
    let significand := ofDigits (whole ++ places)
    match overflowAt ds, minus, significand with
    -- An exponent out of all bounds leaves zero, or makes the number too large.
    | some _, _, 0 => settle ((Number.nearest? negative 0 0).map .float)
    | some _, true, _ => settle ((Number.nearest? negative 0 0).map .float)
    | some n, false, _ => .error ⟨.numberOutOfRange, start.offset + n⟩
    | none, _, _ =>
      let power : Int := if minus then -(ofDigits ds : Int) else ofDigits ds
      settle ((Number.nearest? negative significand (power - places.length)).map .float)

/-- The shape of a number, passed over. -/
def passNumber (c : Cursor) : Except Fault Cursor := do
  let c :=
    match c.chars with
    | '-' :: _ => c.next
    | _ => c
  let (_, c) ← readWhole c .invalidNumber
  let (_, c) ← readFraction c .invalidNumber
  let (_, c) ← readExponent c .invalidNumber
  .ok c

/-- The value of a hexadecimal digit of either case. -/
def hexValue? (ch : Char) : Option Nat :=
  if '0' ≤ ch && ch ≤ '9' then some (ch.toNat - '0'.toNat)
  else if 'a' ≤ ch && ch ≤ 'f' then some (ch.toNat - 'a'.toNat + 10)
  else if 'A' ≤ ch && ch ≤ 'F' then some (ch.toNat - 'A'.toNat + 10)
  else none

/-- Four hexadecimal digits. -/
def readHex (c : Cursor) : Except Fault (Nat × Cursor) :=
  let bad : Except Fault (Nat × Cursor) :=
    -- Four bytes are taken together, even when the first of them is wrong already.
    let left := c.bytesLeft
    if left < 4 then .error ⟨.eofString, c.offset + left⟩
    else .error ⟨.invalidEscape, c.offset + 4⟩
  match c.chars with
  | a :: b :: d :: e :: rest =>
    match hexValue? a, hexValue? b, hexValue? d, hexValue? e with
    | some a, some b, some d, some e =>
      .ok (((a * 16 + b) * 16 + d) * 16 + e, ⟨c.offset + 4, rest⟩)
    | _, _, _, _ => bad
  | _ => bad

/-- The character that an escape stands for; the backslash has been taken.  Characters outside the
basic plane are written as two surrogates. -/
def readEscape (c : Cursor) : Except Fault (Char × Cursor) :=
  match c.chars with
  | [] => .error (c.here .eofString)
  | '"' :: _ => .ok ('"', c.next)
  | '\\' :: _ => .ok ('\\', c.next)
  | '/' :: _ => .ok ('/', c.next)
  | 'b' :: _ => .ok (Char.ofNat 8, c.next)
  | 'f' :: _ => .ok (Char.ofNat 12, c.next)
  | 'n' :: _ => .ok ('\n', c.next)
  | 'r' :: _ => .ok ('\r', c.next)
  | 't' :: _ => .ok ('\t', c.next)
  | 'u' :: _ => do
    let (lead, c) ← readHex c.next
    if 0xDC00 ≤ lead && lead ≤ 0xDFFF then .error (c.here .loneSurrogate)
    else if lead < 0xD800 || 0xDBFF < lead then .ok (Char.ofNat lead, c)
    else
      -- The second half of a pair has to follow, as an escape of its own.
      let expect (wanted : Char) (c : Cursor) : Except Fault Cursor :=
        match c.chars with
        | [] => .error (c.here .eofString)
        | ch :: _ =>
          if ch = wanted then .ok c.next else .error ⟨.unexpectedEndOfHexEscape, c.offset + 1⟩
      let c ← expect '\\' c
      let c ← expect 'u' c
      let (trail, c) ← readHex c
      if trail < 0xDC00 || 0xDFFF < trail then .error (c.here .loneSurrogate)
      else .ok (Char.ofNat (0x10000 + (lead - 0xD800) * 0x400 + (trail - 0xDC00)), c)
  | _ :: _ => .error ⟨.invalidEscape, c.offset + 1⟩

/-- The rest of a string up to its closing quote. -/
def readString : Nat → Cursor → Except Fault (List Char × Cursor)
  | 0, c => .error (c.here .eofString)
  | fuel + 1, c =>
    match c.chars with
    | [] => .error (c.here .eofString)
    | ch :: _ =>
      if ch = '"' then .ok ([], c.next)
      else if ch = '\\' then do
        let (escaped, c) ← readEscape c.next
        let (rest, c) ← readString fuel c
        .ok (escaped :: rest, c)
      else if ch.toNat < 32 then .error ⟨.controlCharacter, c.offset + 1⟩
      else do
        let (rest, c) ← readString fuel c.next
        .ok (ch :: rest, c)

/-- The rest of a string up to its closing quote, passed over. -/
def passString : Nat → Cursor → Except Fault Cursor
  | 0, c => .error (c.here .eofString)
  | fuel + 1, c =>
    match c.chars with
    | [] => .error (c.here .eofString)
    | ch :: _ =>
      if ch = '"' then .ok c.next
      else if ch = '\\' then
        match c.next.chars with
        | [] => .error (c.next.here .eofString)
        | 'u' :: _ => do
          -- Which character the digits stand for does not matter here.
          let (_, c) ← readHex c.next.next
          passString fuel c
        | mark :: _ =>
          if ['"', '\\', '/', 'b', 'f', 'n', 'r', 't'].contains mark then
            passString fuel c.next.next
          else .error ⟨.invalidEscape, c.next.offset + 1⟩
      else if ch.toNat < 32 then .error (c.here .controlCharacter)
      else passString fuel c.next

mutual

/-- A value passed over. -/
def passOver : Nat → Cursor → Except Fault Cursor
  | 0, c => .error (c.here .eofValue)
  | fuel + 1, c =>
    let c := c.skipBlanks
    match c.chars with
    | [] => .error (c.ahead .eofValue)
    | ch :: _ =>
      if ch = 'n' then readWord ['u', 'l', 'l'] c.next
      else if ch = 't' then readWord ['r', 'u', 'e'] c.next
      else if ch = 'f' then readWord ['a', 'l', 's', 'e'] c.next
      else if ch = '-' || ch.isDigit then passNumber c
      else if ch = '"' then passString (c.chars.length + 1) c.next
      else if ch = '[' then passItems fuel false c.next
      else if ch = '\x7b' then passMembers fuel false c.next
      else .error (c.ahead .expectedValue)

/-- The items of an array passed over, up to its bracket; `more` says that an item stands before. -/
def passItems : Nat → Bool → Cursor → Except Fault Cursor
  | 0, _, c => .error (c.here .eofList)
  | fuel + 1, more, c =>
    let c := c.skipBlanks
    match c.chars with
    | [] => .error (c.ahead .eofList)
    | ch :: _ =>
      if ch = ']' then .ok c.next
      else if more then
        if ch = ',' then do
          -- A bracket behind the comma is no value, which `passOver` finds out.
          let c ← passOver fuel c.next
          passItems fuel true c
        else .error (c.ahead .expectedListCommaOrEnd)
      else do
        let c ← passOver fuel c
        passItems fuel true c

/-- The members of an object passed over, up to its brace; `more` says that one stands before. -/
def passMembers : Nat → Bool → Cursor → Except Fault Cursor
  | 0, _, c => .error (c.here .eofObject)
  | fuel + 1, more, c =>
    let c := c.skipBlanks
    match c.chars with
    | [] => .error (c.ahead .eofObject)
    | ch :: _ =>
      if ch = '\x7d' then .ok c.next
      else if more then
        if ch = ',' then passMember fuel c.next.skipBlanks
        else .error (c.ahead .expectedObjectCommaOrEnd)
      else passMember fuel c

/-- A key and its value passed over, and the members behind them. -/
def passMember : Nat → Cursor → Except Fault Cursor
  | 0, c => .error (c.here .eofObject)
  | fuel + 1, c =>
    match c.chars with
    | [] => .error (c.ahead .eofObject)
    | ch :: _ =>
      if ch = '"' then do
        let c ← passString (c.chars.length + 1) c.next
        let c := c.skipBlanks
        match c.chars with
        | [] => .error (c.ahead .eofObject)
        | ':' :: _ => do
          let c ← passOver fuel c.next
          passMembers fuel true c
        | _ => .error (c.ahead .expectedColon)
      else .error (c.ahead .keyMustBeString)

end

/-- A leaf and the place behind it, or its fault alone. -/
def leaf (start : Cursor) (read : Except Fault (Cursor × (Place → Source))) :
    Source × Option Cursor :=
  match read with
  | .ok (c, node) => (node (.text start.offset c.offset), some c)
  | .error f => (.fault start.offset start.chars.head? f, none)

/-- How deep arrays and objects may nest when they are read, plus one. -/
def nestingLimit : Nat := 128

mutual

/-- A value, and the place behind it if the text goes on there.  `limit` counts the nesting left:
an array or object that nests too deep holds nothing but that fault. -/
def readValue : Nat → Nat → Cursor → Source × Option Cursor
  | 0, _, c => (.fault c.offset none (c.here .eofValue), none)
  | fuel + 1, limit, c =>
    let c := c.skipBlanks
    match c.chars with
    | [] => (.fault c.offset none (c.ahead .eofValue), none)
    | ch :: _ =>
      if ch = 'n' then
        leaf c ((readWord ['u', 'l', 'l'] c.next).map fun r => (r, .null))
      else if ch = 't' then
        leaf c ((readWord ['r', 'u', 'e'] c.next).map fun r => (r, fun p => .bool p true))
      else if ch = 'f' then
        leaf c ((readWord ['a', 'l', 's', 'e'] c.next).map fun r => (r, fun p => .bool p false))
      else if ch = '-' || ch.isDigit then
        leaf c ((readNumber c).map fun (n, r) => (r, fun p => .number p n))
      else if ch = '"' then
        leaf c ((readString (c.chars.length + 1) c.next).map
          fun (s, r) => (r, fun p => .string p (String.ofList s)))
      else if ch = '[' then
        if limit ≤ 1 then
          (.array (.text c.offset c.offset) [] (some (c.ahead .recursionLimit)), none)
        else
          let (items, broken, rest) := readItems fuel (limit - 1) false c.next
          let stop := (rest.map (·.offset)).getD c.offset
          (.array (.text c.offset stop) items broken, rest)
      else if ch = '\x7b' then
        if limit ≤ 1 then
          (.object (.text c.offset c.offset) [] (some (c.ahead .recursionLimit)), none)
        else
          let (members, broken, rest) := readMembers fuel (limit - 1) false c.next
          let stop := (rest.map (·.offset)).getD c.offset
          (.object (.text c.offset stop) members broken, rest)
      else (.fault c.offset (some ch) (c.ahead .expectedValue), none)

/-- The items of an array, the fault behind them, and the place behind the bracket. -/
def readItems : Nat → Nat → Bool → Cursor → List Source × Option Fault × Option Cursor
  | 0, _, _, c => ([], some (c.here .eofList), none)
  | fuel + 1, limit, more, c =>
    let item (c : Cursor) : List Source × Option Fault × Option Cursor :=
      match readValue fuel limit c with
      | (s, some c) =>
        let (items, broken, rest) := readItems fuel limit true c
        (s :: items, broken, rest)
      | (s, none) => ([s], none, none)
    let c := c.skipBlanks
    match c.chars with
    | [] => ([], some (c.ahead .eofList), none)
    | ch :: _ =>
      if ch = ']' then ([], none, some c.next)
      else if more then
        if ch = ',' then
          -- A comma promises one more item.
          let c := c.next.skipBlanks
          match c.chars with
          | [] => ([], some (c.ahead .eofValue), none)
          | ']' :: _ => ([], some (c.ahead .trailingComma), none)
          | _ => item c
        else ([], some (c.ahead .expectedListCommaOrEnd), none)
      else if ch = ',' then
        let closes := c.next.skipBlanks.chars.head? = some ']'
        ([], some (c.ahead (.leadingComma closes)), none)
      else item c

/-- The members of an object, the fault behind them, and the place behind the brace. -/
def readMembers : Nat → Nat → Bool → Cursor →
    List (String × KeyPlace × Source) × Option Fault × Option Cursor
  | 0, _, _, c => ([], some (c.here .eofObject), none)
  | fuel + 1, limit, more, c =>
    let c := c.skipBlanks
    match c.chars with
    | [] => ([], some (c.ahead .eofObject), none)
    | ch :: _ =>
      if ch = '\x7d' then ([], none, some c.next)
      else if more then
        if ch = ',' then
          -- A comma promises one more member.
          let c := c.next.skipBlanks
          match c.chars with
          | [] => ([], some (c.ahead .eofValue), none)
          | '"' :: _ => readMember fuel limit c
          | '\x7d' :: _ => ([], some (c.ahead .trailingComma), none)
          | _ => ([], some (c.ahead .keyMustBeString), none)
        else ([], some (c.ahead .expectedObjectCommaOrEnd), none)
      else if ch = '"' then readMember fuel limit c
      else ([], some (c.ahead .keyMustBeString), none)

/-- A member and those behind it; the quote of its key is next. -/
def readMember : Nat → Nat → Cursor →
    List (String × KeyPlace × Source) × Option Fault × Option Cursor
  | 0, _, c => ([], some (c.here .eofObject), none)
  | fuel + 1, limit, c =>
    match readString (c.chars.length + 1) c.next with
    | .error f => ([], some f, none)
    | .ok (letters, c) =>
      let key := String.ofList letters
      let keyStop := some c.offset
      let stuck (f : Fault) : List (String × KeyPlace × Source) × Option Fault × Option Cursor :=
        ([(key, ⟨keyStop, some f⟩, .fault c.offset none f)], none, none)
      let c := c.skipBlanks
      match c.chars with
      | [] => stuck (c.ahead .eofObject)
      | ':' :: _ =>
        let (s, rest) := readValue fuel limit c.next
        match rest with
        | some c =>
          let (members, broken, rest) := readMembers fuel limit true c
          ((key, ⟨keyStop, none⟩, s) :: members, broken, rest)
        | none =>
          -- The value cannot be read, but a reader that does not want it may get behind it.
          match passOver (2 * c.chars.length + 2) c.next with
          | .ok c =>
            let (members, broken, rest) := readMembers fuel limit true c
            ((key, ⟨keyStop, none⟩, s) :: members, broken, rest)
          | .error f => ([(key, ⟨keyStop, some f⟩, s)], none, none)
      | _ => stuck (c.ahead .expectedColon)

end

/-- What a text holds, and the fault of what stands behind the document. -/
structure Document where
  source : Source
  excess : Option Fault

/-- Read a text as far as it goes. -/
def Document.ofText (text : String) : Document :=
  let chars := text.toList
  match readValue (2 * chars.length + 2) nestingLimit ⟨0, chars⟩ with
  | (s, some c) =>
    -- Only blanks may follow the document.
    let c := c.skipBlanks
    ⟨s, if c.chars.isEmpty then none else some (c.ahead .trailingCharacters)⟩
  | (s, none) => ⟨s, none⟩

/-- The value that a text holds, or its first fault. -/
def parse (text : String) : Except Fault Json := do
  let d := Document.ofText text
  let j ← d.source.toJson
  match d.excess with
  | some f => .error f
  | none => .ok j

end Json

end LanguageServer
