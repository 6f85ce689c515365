/-!
# Decimal digits

The number that decimal digits stand for, and numbers at the end of a text.
-/

namespace LanguageServer.Text

/-- The number that decimal digits stand for. -/
def ofDigits (ds : List Char) : Nat := ds.foldl (fun n d => n * 10 + (d.toNat - '0'.toNat)) 0

/-- The digits at the end of a text and what stands before them. -/
def digitsAtEnd (cs : List Char) : List Char × List Char :=
  let digits := cs.reverse.takeWhile Char.isDigit
  (digits.reverse, (cs.reverse.drop digits.length).reverse)

/-- What stands before a text at the end of another one. -/
def dropEnd? (ending : String) (cs : List Char) : Option (List Char) :=
  if ending.toList.isSuffixOf cs then some (cs.take (cs.length - ending.toList.length)) else none

/-- A number of 64 bits at the end of a text, with what stands before it; `ending` follows it. -/
def numberAtEnd? (ending : String) (cs : List Char) : Option (Nat × List Char) := do
  let cs ← dropEnd? ending cs
  let (digits, before) := digitsAtEnd cs
  if digits.isEmpty || 0x10000000000000000 ≤ ofDigits digits then none
  else some (ofDigits digits, before)

end LanguageServer.Text
