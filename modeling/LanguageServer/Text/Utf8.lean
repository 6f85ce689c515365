/-!
# UTF-8

`Text.utf8` writes characters as bytes and `Text.ofUtf8` reads them back.  Bytes that are no
characters are refused with the number of bytes that are fine before them and, unless the bytes just
end too early, the number of bytes that cannot go on.
-/

namespace LanguageServer.Text

/-- The bytes of characters. -/
def utf8OfChars (cs : List Char) : List UInt8 := cs.flatMap String.utf8EncodeChar

/-- The bytes of a text. -/
def utf8 (s : String) : List UInt8 := utf8OfChars s.toList

/-- Why bytes are no characters: bytes that are cut short, or bytes that cannot go on. -/
structure Utf8Error where
  validBytes : Nat
  badBytes : Option Nat
deriving DecidableEq, Repr

/-- The wording of an error. -/
def Utf8Error.message (e : Utf8Error) : String :=
  match e.badBytes with
  | some n => "invalid utf-8 sequence of " ++ toString n ++ " bytes from index " ++
      toString e.validBytes
  | none => "incomplete utf-8 byte sequence from index " ++ toString e.validBytes

/-- The bits that a byte after the first one carries; nothing for a byte that cannot stand there. -/
def continuation? (b : UInt8) : Option Nat :=
  if 0x80 ≤ b.toNat ∧ b.toNat < 0xC0 then some (b.toNat - 0x80) else none

/-- The number of bytes that a first byte announces, the bits it carries, and the least and the
greatest second byte. -/
def leading? (b : UInt8) : Option (Nat × Nat × Nat × Nat) :=
  let n := b.toNat
  if n < 0x80 then some (1, n, 0, 0)
  else if 0xC2 ≤ n ∧ n ≤ 0xDF then some (2, n - 0xC0, 0x80, 0xBF)
  else if n = 0xE0 then some (3, 0, 0xA0, 0xBF)
  else if n = 0xED then some (3, 0xD, 0x80, 0x9F)
  else if 0xE1 ≤ n ∧ n ≤ 0xEF then some (3, n - 0xE0, 0x80, 0xBF)
  else if n = 0xF0 then some (4, 0, 0x90, 0xBF)
  else if 0xF1 ≤ n ∧ n ≤ 0xF3 then some (4, n - 0xF0, 0x80, 0xBF)
  else if n = 0xF4 then some (4, 4, 0x80, 0x8F)
  else none

/-- Read the bytes after the second one, `left` of them, with the bits so far; on failure the bytes
that cannot go on are counted from `seen`. -/
def tail (seen : Nat) : Nat → Nat → List UInt8 → Except (Option Nat) (Nat × List UInt8)
  | 0, bits, rest => .ok (bits, rest)
  | _ + 1, _, [] => .error none
  | left + 1, bits, b :: rest =>
    match continuation? b with
    | some more => tail (seen + 1) left (bits * 64 + more) rest
    | none => .error (some seen)

/-- Read one character from its first byte and those behind it. -/
def firstChar (b : UInt8) (rest : List UInt8) : Except (Option Nat) (Char × List UInt8) :=
  match leading? b with
  | none => .error (some 1)
  | some (1, bits, _, _) => .ok (Char.ofNat bits, rest)
  | some (width, bits, low, high) =>
    match rest with
    | [] => .error none
    | c :: rest =>
      if low ≤ c.toNat ∧ c.toNat ≤ high then
        (tail 2 (width - 2) (bits * 64 + (c.toNat - 0x80)) rest).map fun (n, rest) =>
          (Char.ofNat n, rest)
      else .error (some 1)

/-- Read characters, `valid` bytes being read already; one character takes at least one unit of
fuel. -/
def charsOfUtf8 : Nat → Nat → List UInt8 → Except Utf8Error (List Char)
  | _, _, [] => .ok []
  | 0, valid, _ :: _ => .error ⟨valid, none⟩
  | fuel + 1, valid, b :: rest =>
    match firstChar b rest with
    | .error bad => .error ⟨valid, bad⟩
    | .ok (c, rest) => (charsOfUtf8 fuel (valid + c.utf8Size) rest).map (c :: ·)

/-- Read a text from bytes. -/
def ofUtf8 (bytes : List UInt8) : Except Utf8Error String :=
  (charsOfUtf8 bytes.length 0 bytes).map String.ofList

end LanguageServer.Text
