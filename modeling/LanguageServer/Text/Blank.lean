/-!
# Blanks

The characters that count as blank are those with the property `White_Space`.
-/

namespace LanguageServer.Text

/-- Whether a character is blank. -/
def isBlank (c : Char) : Bool :=
  let n := c.toNat
  (9 ≤ n && n ≤ 13) || n = 0x20 || n = 0x85 || n = 0xA0 || n = 0x1680 ||
    (0x2000 ≤ n && n ≤ 0x200A) || n = 0x2028 || n = 0x2029 || n = 0x202F || n = 0x205F ||
    n = 0x3000

/-- Characters without those at both ends that satisfy `p`. -/
def stripWhere (p : Char → Bool) (cs : List Char) : List Char :=
  ((cs.dropWhile p).reverse.dropWhile p).reverse

/-- Characters without blanks at both ends. -/
def strip (cs : List Char) : List Char := stripWhere isBlank cs

/-- Cut at the first character that equals `sep`; nothing when there is none. -/
def cutAt (sep : Char) : List Char → Option (List Char × List Char)
  | [] => none
  | c :: rest => if c = sep then some ([], rest) else (cutAt sep rest).map fun (a, b) => (c :: a, b)

/-- The pieces between the characters that equal `sep`. -/
def piecesAt (sep : Char) : List Char → List (List Char)
  | [] => [[]]
  | c :: rest =>
    if c = sep then [] :: piecesAt sep rest
    else
      match piecesAt sep rest with
      | [] => [[c]]
      | piece :: more => (c :: piece) :: more

/-- Letters of the ASCII range in lower case. -/
def lower (cs : List Char) : List Char := cs.map Char.toLower

end LanguageServer.Text
