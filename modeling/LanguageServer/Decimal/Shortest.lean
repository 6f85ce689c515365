/-!
# Shortest decimal digits of a binary fraction

A double is `m * 2 ^ q`.  The reals that round to it form an interval around it, whose ends belong
to it exactly when `m` is even.  `Decimal.shortest` gives the decimal with the fewest digits in that
interval, the nearest of those with that many digits, and of two equally near ones the even one.

* `Decimal` is a positive decimal `d₁.d₂… * 10 ^ exponent`;
* `Dyadic` is a positive binary fraction with the interval that rounds to it;
* `Dyadic.shortest` tries one digit, two digits, … on the decimal grid around the value.
-/

namespace LanguageServer

/-- The digits `d₁d₂…` stand for `d₁.d₂… * 10 ^ exponent`. -/
structure Decimal where
  digits : List Char
  exponent : Int
deriving Repr, DecidableEq

/-- The number `mantissa * 2 ^ scale`; `narrow` says that the next number below is half as far away
as the next one above, which is so at powers of two. -/
structure Dyadic where
  mantissa : Nat
  scale : Int
  narrow : Bool

namespace Dyadic

/-- The fraction `n * 2 ^ e` as numerator and denominator. -/
def fraction (n : Nat) (e : Int) : Nat × Nat :=
  if 0 ≤ e then (n * Nat.pow 2 e.toNat, 1) else (n, Nat.pow 2 (-e).toNat)

/-- The number of decimal digits of `n`, at least one. -/
def digitCount (n : Nat) : Nat := (Nat.toDigits 10 n).length

/-- The exponent `k` with `10 ^ k ≤ num / den < 10 ^ (k + 1)`. -/
def leadingExponent (num den : Nat) : Int :=
  if den ≤ num then (digitCount (num / den) : Int) - 1
  else
    -- `10 ^ (t - 1) ≤ den / num < 10 ^ t`, up to the part that the division drops.
    let t := digitCount (den / num)
    if den ≤ num * Nat.pow 10 (t - 1) then -((t : Int) - 1) else -(t : Int)

/-- Whether `c * 10 ^ s` lies in the interval that rounds to `d`. -/
def covers (d : Dyadic) (c : Nat) (s : Int) : Bool :=
  -- Both ends have the same denominator; a quarter of the unit of the mantissa divides both.
  let (low, den) := fraction (4 * d.mantissa - if d.narrow then 1 else 2) (d.scale - 2)
  let (high, _) := fraction (4 * d.mantissa + 2) (d.scale - 2)
  let candidate := if 0 ≤ s then c * Nat.pow 10 s.toNat * den else c * den
  let unit := if 0 ≤ s then 1 else Nat.pow 10 (-s).toNat
  if d.mantissa % 2 = 0 then low * unit ≤ candidate && candidate ≤ high * unit
  else low * unit < candidate && candidate < high * unit

/-- The multiple of `10 ^ s` nearest to `d` among those that round to `d`, if there is one. -/
def onGrid (d : Dyadic) (s : Int) : Option Nat :=
  let (num, den) := fraction d.mantissa d.scale
  let top := if 0 ≤ s then num else num * Nat.pow 10 (-s).toNat
  let bottom := if 0 ≤ s then den * Nat.pow 10 s.toNat else den
  let below := top / bottom
  let past := 2 * (top % bottom)
  -- If the interval holds a point of the grid, it holds one of the two neighbours of the value.
  match d.covers below s, d.covers (below + 1) s with
  | true, true =>
    if past < bottom || (past = bottom && below % 2 = 0) then some below else some (below + 1)
  | true, false => some below
  | false, true => some (below + 1)
  | false, false => none

/-- `c * 10 ^ s` without trailing zero digits. -/
def toDecimal (c : Nat) (s : Int) : Decimal :=
  let all := Nat.toDigits 10 c
  let kept := (all.reverse.dropWhile (· = '0')).reverse
  ⟨if kept.isEmpty then ['0'] else kept, s + (all.length : Int) - 1⟩

/-- The shortest decimal that rounds to `d`; seventeen digits are always enough for a double. -/
def shortest (d : Dyadic) : Decimal :=
  let (num, den) := fraction d.mantissa d.scale
  let lead := leadingExponent num den
  let found := (List.range 17).findSome? fun (places : Nat) =>
    let s := lead - (places : Int)
    (d.onGrid s).map fun c => toDecimal c s
  found.getD ⟨['0'], 0⟩

/-- The positive finite double with these bits, the sign bit left out. -/
def ofBits (bits : UInt64) : Dyadic :=
  let low : Nat := bits.toNat % 0x10000000000000
  let high : Nat := bits.toNat / 0x10000000000000 % 0x800
  -- The smallest doubles have no hidden bit, and at the least power of two both gaps are equal.
  if high = 0 then ⟨low, -1074, false⟩
  else ⟨low + 0x10000000000000, (high : Int) - 1075, decide (low = 0 ∧ 1 < high)⟩

end Dyadic

end LanguageServer
