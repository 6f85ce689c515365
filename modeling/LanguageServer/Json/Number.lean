import LanguageServer.Decimal.Shortest

/-!
# Numbers of a document

A number is an integer or a double, and the two are told apart: `1` is not `1.0`.  Integers range
over the signed and the unsigned 64-bit words together; a literal outside that range is read as
a double.

* `Number.render` writes a number: integers plainly, doubles with the fewest digits that read back,
  always with a point or an exponent;
* `Number.ofParts` reads the parts of a literal, and refuses one too large for a double.
-/

namespace LanguageServer

namespace Json

/-- A number of a document. -/
inductive Number where
  | int (value : Int)
  | float (value : Float)
deriving Inhabited

namespace Number

/-- The least integer kept exactly. -/
def minInt : Int := -0x8000000000000000

/-- The greatest integer kept exactly. -/
def maxInt : Int := 0xFFFFFFFFFFFFFFFF

/-- Two numbers are equal when they are of one kind and equal there; the two zero doubles are
equal. -/
def beq : Number → Number → Bool
  | .int a, .int b => a == b
  | .float a, .float b => a == b
  | _, _ => false

instance : BEq Number := ⟨beq⟩

/-- A decimal in plain notation when its exponent is in `-5 ≤ E < 16`, else with an exponent that
always shows its sign. -/
def renderDecimal (d : Decimal) : String :=
  let e := d.exponent
  let count := d.digits.length
  if -5 ≤ e && e < 16 then
    if 0 ≤ e then
      let whole := e.toNat + 1
      let left := d.digits.take whole ++ List.replicate (whole - count) '0'
      let right := d.digits.drop whole
      String.ofList (left ++ '.' :: (if right.isEmpty then ['0'] else right))
    else
      String.ofList ('0' :: '.' :: (List.replicate ((-e).toNat - 1) '0' ++ d.digits))
  else
    let lead := d.digits.take 1
    let right := d.digits.drop 1
    let fraction := if right.isEmpty then [] else '.' :: right
    let sign := if 0 ≤ e then '+' else '-'
    String.ofList (lead ++ fraction ++ 'e' :: sign :: Nat.toDigits 10 e.natAbs)

/-- The text of a finite double. -/
def renderFloat (f : Float) : String :=
  let bits := f.toBits
  let negative := 0x8000000000000000 ≤ bits.toNat
  let magnitude := bits.toNat % 0x8000000000000000
  let body := if magnitude = 0 then "0.0" else renderDecimal (Dyadic.ofBits bits).shortest
  if negative then "-" ++ body else body

/-- The text of an integer. -/
def renderInt (n : Int) : String :=
  if n < 0 then "-" ++ toString n.natAbs else toString n.natAbs

/-- The text of a number. -/
def render : Number → String
  | .int n => renderInt n
  | .float f => renderFloat f

/-- The double nearest to `± significand * 10 ^ exponent`, or `none` when that is infinite.
Exponents far outside the range of doubles are settled without computing the power. -/
def nearest? (negative : Bool) (significand : Nat) (exponent : Int) : Option Float :=
  let place (f : Float) : Float := if negative then -f else f
  if significand = 0 then some (place 0.0)
  else
    let lead := (Dyadic.digitCount significand : Int) + exponent
    if 310 < lead then none
    else if lead < -330 then some (place 0.0)
    else
      let f := Float.ofScientific significand (decide (exponent < 0)) exponent.natAbs
      if f.isFinite then some (place f) else none

/-- An integer literal: exact when it fits the 64-bit words, else a double; minus zero is a
double. -/
def ofInteger? (negative : Bool) (magnitude : Nat) : Option Number :=
  if negative then
    if magnitude ≠ 0 && minInt ≤ -(magnitude : Int) then some (.int (-(magnitude : Int)))
    else (nearest? true magnitude 0).map .float
  else if (magnitude : Int) ≤ maxInt then some (.int magnitude)
  else (nearest? false magnitude 0).map .float

/-- The double nearest to an integer of at most 64 bits; of two equally near ones the one whose
mantissa is even. -/
def nearestDouble (n : Int) : Float :=
  let magnitude := (UInt64.ofNat n.natAbs).toFloat
  if n < 0 then -magnitude else magnitude

/-- A number from the double `f`, if `f` is finite. -/
def ofFloat? (f : Float) : Option Number :=
  if f.isFinite then some (.float f) else none

end Number

end Json

end LanguageServer
