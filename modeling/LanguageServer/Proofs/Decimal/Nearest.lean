import LanguageServer.Json.Number
import Mathlib

/-!
# The double nearest to an integer

A word becomes a double by rounding its mantissa to 53 bits.  What is dropped is summed up in two
bits (`Double.shiftRight_succ`), and these suffice to find the nearest quotient, of two the even one
(`Double.roundedMantissa_shiftRight`).  A second shift takes care of a quotient that was rounded up
to 54 bits (`Double.roundWithAccuracy_eq`).

`Double.value` is the number that a double stands for.  Every such number has 53 bits before its
trailing zeros, so no double is nearer than the rounded one: `Double.isNearest_nearestDouble`.
-/

open Float.Model Float.Model.UnpackedFloat

namespace LanguageServer.Double

/-- `n / 2 ^ s` rounded to the nearest integer, and to the even one of two. -/
def nearestQuotient (n s : Nat) : Nat :=
  if 2 * (n % 2 ^ s) < 2 ^ s then n / 2 ^ s
  else if 2 * (n % 2 ^ s) = 2 ^ s then n / 2 ^ s + n / 2 ^ s % 2
  else n / 2 ^ s + 1

/-- Nothing is cut off without a shift. -/
theorem nearestQuotient_zero (n : Nat) : nearestQuotient n 0 = n := by
  simp [nearestQuotient, Nat.mod_one]

/-- Shifted to the right, a mantissa keeps the bits that are left, the first bit that is dropped,
and whether any bit behind it is set. -/
theorem shiftRight_succ (n s : Nat) :
    (⟨n, false, false⟩ : ExtendedMantissa) >>> (s + 1) =
      ⟨n / 2 ^ (s + 1), n / 2 ^ s % 2 != 0, n % 2 ^ s != 0⟩ := by
  induction s with
  | zero =>
    show ExtendedMantissa.shiftRightOne ⟨n, false, false⟩ = _
    simp [ExtendedMantissa.shiftRightOne, Nat.mod_one]
  | succ s ih =>
    show ExtendedMantissa.shiftRightOne ((⟨n, false, false⟩ : ExtendedMantissa) >>> (s + 1)) = _
    have hdiv : n / 2 ^ (s + 1) / 2 = n / 2 ^ (s + 1 + 1) := by
      rw [Nat.div_div_eq_div_mul, ← Nat.pow_succ]
    have hpos := Nat.two_pow_pos s
    -- The bit that was the last one joins those that are cut off already.
    have hsticky : (n / 2 ^ s % 2 != 0 || n % 2 ^ s != 0) = (n % 2 ^ (s + 1) != 0) := by
      rw [Nat.mod_pow_succ, Bool.eq_iff_iff]
      simp only [Bool.or_eq_true, bne_iff_ne]
      grind
    rw [ih, ExtendedMantissa.shiftRightOne, hdiv, hsticky]

/-- The bits that are kept round to the nearest quotient. -/
theorem roundedMantissa_shiftRight (n s : Nat) :
    ((⟨n, false, false⟩ : ExtendedMantissa) >>> s).roundedMantissa = nearestQuotient n s := by
  cases s with
  | zero => exact (nearestQuotient_zero n).symm
  | succ s =>
    have hlow : n % 2 ^ s < 2 ^ s := Nat.mod_lt _ (Nat.two_pow_pos s)
    have hmod : n % 2 ^ (s + 1) = n % 2 ^ s + 2 ^ s * (n / 2 ^ s % 2) := Nat.mod_pow_succ
    have hpow : 2 ^ (s + 1) = 2 * 2 ^ s := by rw [Nat.pow_succ, Nat.mul_comm]
    rw [shiftRight_succ, nearestQuotient, hmod]
    rcases Nat.mod_two_eq_zero_or_one (n / 2 ^ s) with h | h
    · -- Less than half of the last bit is dropped.
      rw [h, if_pos (by omega)]
      cases n % 2 ^ s != 0 <;> rfl
    · rw [h, if_neg (by omega)]
      by_cases hs : n % 2 ^ s = 0
      · rw [if_pos (by omega), hs]
        rfl
      · rw [if_neg (by omega), bne_iff_ne.2 hs]
        rfl

/-- A normal double is unpacked as it was packed. -/
theorem unpack_pack {sign : Sign} {m : Nat} {e : Int} (hm : 0 < m) (hlow : 2 ^ 52 ≤ m)
    (hhigh : m < 2 ^ 53) (he : -1074 ≤ e) (he' : e ≤ 971) :
    (Float.Model.pack (.finite sign m e hm)).unpack = .finite sign m e hm := by
  show UnpackedFloat.unpack Format.binary64 (UnpackedFloat.pack Format.binary64 _) = _
  -- The mantissa is normal, so that the exponent is stored with its bias.
  have hlog : m.log2 = 52 := (Nat.log2_eq_iff hm.ne').2 ⟨hlow, hhigh⟩
  obtain ⟨b, rfl⟩ : ∃ b : Nat, e = b - 1075 := ⟨(e + 1075).toNat, by omega⟩
  have hbias : ((b : Int) - 1075 + Format.binary64.exponentBias + (52 : Nat)).toNat = b := by
    have : (Format.binary64.exponentBias : Int) = 1023 := rfl
    omega
  have hpack : UnpackedFloat.pack Format.binary64 (.finite sign m (b - 1075) hm) =
      packComponents Format.binary64 sign (BitVec.ofNat _ b) (BitVec.ofNat _ m) := by
    rw [UnpackedFloat.pack]
    simp only [hbias, hlog]
    rw [if_neg (by omega), if_pos (by rfl)]
  have hb : (BitVec.ofNat 11 b).toNat = b := by
    rw [BitVec.toNat_ofNat, Nat.mod_eq_of_lt (by omega)]
  rw [hpack, UnpackedFloat.unpack]
  simp only [unpackMantissa_packComponents, unpackExponent_packComponents,
    unpackSign_packComponents, Sign.ofBitVec_toBitVec]
  rw [if_neg, if_neg]
  · congr 1
    · -- The leading bit of the mantissa is not stored, and comes back with the exponent.
      have hmod : m % 2 ^ 52 < 2 ^ 52 := Nat.mod_lt _ (Nat.two_pow_pos 52)
      rw [BitVec.toNat_append, BitVec.toNat_ofNat m, ← Nat.shiftLeft_add_eq_or_of_lt hmod]
      simp only [BitVec.toNat_ofNat, Nat.shiftLeft_eq]
      omega
    · rw [hb]
      rfl
  · intro h
    have := congrArg BitVec.toNat h
    rw [hb] at this
    simp at this
    omega
  · intro h
    have := congrArg BitVec.toNat h
    rw [hb] at this
    simp at this
    omega

/-- A double has 52 bits behind the leading one, down to the exponent of the smallest one. -/
theorem targetExponent_binary64 (m : Nat) (e : Int) :
    Format.binary64.targetExponent (totalExponent m e) = max (m.log2 + e - 52) (-1074) := by
  show max ((m.log2 : Int) + 1 + e - 53) (-1074) = _
  omega

/-- The nearest quotient is the quotient or the one above it. -/
theorem nearestQuotient_cases (n s : Nat) :
    nearestQuotient n s = n / 2 ^ s ∨ nearestQuotient n s = n / 2 ^ s + 1 := by
  rw [nearestQuotient]
  split
  · exact .inl rfl
  · split
    · rcases Nat.mod_two_eq_zero_or_one (n / 2 ^ s) with h | h <;> simp [h]
    · exact .inr rfl

/-- A mantissa of 53 bits stays as it is. -/
theorem shiftToTargetExponent_of_log2 {m : Nat} {e : Int} {s : Nat} (hm : m.log2 = 52 + s)
    (he : -1074 ≤ e + s) :
    shiftToTargetExponent Format.binary64 m e .exact =
      ((⟨m, false, false⟩ : ExtendedMantissa) >>> s, e + s) := by
  have htarget : Format.binary64.targetExponent (totalExponent m e) = e + s := by
    rw [targetExponent_binary64, hm]
    omega
  simp only [shiftToTargetExponent, shiftToExponent, htarget,
    ExtendedMantissa.ofMantissaAndAccuracy]
  rw [show (e + (s : Int) - e).toNat = s by omega]

/-- Rounding shifts twice, as the first shift may round up to one bit too many. -/
theorem roundWithAccuracy_of_shift (sign : Sign) {m : Nat} {e e₁ e₂ : Int}
    {em₁ em₂ : ExtendedMantissa}
    (h₁ : shiftToTargetExponent Format.binary64 m e .exact = (em₁, e₁))
    (h₂ : shiftToTargetExponent Format.binary64 em₁.roundedMantissa e₁ .exact = (em₂, e₂))
    (hr : 0 < em₂.mantissa) :
    roundWithAccuracy Format.binary64 sign m e .exact = .finite sign em₂.mantissa e₂ hr := by
  simp only [roundWithAccuracy, h₁, h₂, dif_neg hr.ne']

/-- A number is rounded to 53 bits, as the nearest quotient says. -/
theorem roundWithAccuracy_eq (sign : Sign) {m : Nat} {e : Int} {s : Nat} (hm : m.log2 = 52 + s)
    (he : -1074 ≤ e + s) :
    ∃ (r : Nat) (e' : Int) (hr : 0 < r),
      roundWithAccuracy Format.binary64 sign m e .exact = .finite sign r e' hr ∧
      2 ^ 52 ≤ r ∧ r < 2 ^ 53 ∧ e + s ≤ e' ∧ e' ≤ e + s + 1 ∧
      (r : ℚ) * 2 ^ e' = nearestQuotient m s * 2 ^ (e + s) ∧
      (nearestQuotient m s % 2 = 0 → r % 2 = 0) := by
  have hpos : m ≠ 0 := by
    rintro rfl
    rw [Nat.log2_zero] at hm
    omega
  obtain ⟨hlow, hhigh⟩ := (Nat.log2_eq_iff hpos).1 hm
  have hq : 2 ^ 52 ≤ m / 2 ^ s := by
    rw [Nat.le_div_iff_mul_le (Nat.two_pow_pos s), ← Nat.pow_add]
    exact hlow
  have hq' : m / 2 ^ s < 2 ^ 53 := by
    rw [Nat.div_lt_iff_lt_mul (Nat.two_pow_pos s), ← Nat.pow_add]
    rwa [Nat.add_right_comm] at hhigh
  have hlow : 2 ^ 52 ≤ nearestQuotient m s := by rcases nearestQuotient_cases m s <;> omega
  have hhigh : nearestQuotient m s ≤ 2 ^ 53 := by rcases nearestQuotient_cases m s <;> omega
  have hfirst := shiftToTargetExponent_of_log2 hm he
  rcases Nat.lt_or_eq_of_le hhigh with hlt | heq
  · -- The nearest quotient has 53 bits, so the second shift does nothing.
    have hlog : (nearestQuotient m s).log2 = 52 + 0 :=
      (Nat.log2_eq_iff (by omega)).2 ⟨hlow, hlt⟩
    have hsecond : shiftToTargetExponent Format.binary64 (nearestQuotient m s) (e + s) .exact =
        (⟨nearestQuotient m s, false, false⟩, e + s) := by
      rw [shiftToTargetExponent_of_log2 (e := e + s) hlog (by omega), Nat.cast_zero, Int.add_zero]
      rfl
    have hr : 0 < nearestQuotient m s := by omega
    rw [← roundedMantissa_shiftRight] at hsecond hr
    have hround := roundWithAccuracy_of_shift sign hfirst hsecond hr
    simp only [roundedMantissa_shiftRight] at hround
    exact ⟨_, _, _, hround, hlow, hlt, le_rfl, by omega, rfl, id⟩
  · have hlog : (2 ^ 53).log2 = 52 + 1 := Nat.log2_two_pow
    have hsecond : shiftToTargetExponent Format.binary64 (2 ^ 53) (e + s) .exact =
        (⟨2 ^ 52, false, false⟩, e + s + 1) := by
      rw [shiftToTargetExponent_of_log2 (e := e + s) hlog (by omega)]
      rfl
    rw [← heq, ← roundedMantissa_shiftRight] at hsecond
    have hround := roundWithAccuracy_of_shift sign hfirst hsecond (Nat.two_pow_pos 52)
    refine ⟨2 ^ 52, e + s + 1, Nat.two_pow_pos 52, hround, le_rfl, by omega, by omega, le_rfl, ?_,
      fun _ => rfl⟩
    rw [heq, zpow_add_one₀ (by norm_num)]
    push_cast
    ring

/-! ## Nearest -/

/-- The nearest quotient is at most half a unit away, and exactly half a unit only if it is even. -/
theorem two_mul_abs_nearestQuotient_le (n s : Nat) :
    2 * |(nearestQuotient n s : ℤ) * 2 ^ s - n| ≤ 2 ^ s ∧
      (2 * |(nearestQuotient n s : ℤ) * 2 ^ s - n| = 2 ^ s → nearestQuotient n s % 2 = 0) := by
  have hn : (n : ℤ) = (n / 2 ^ s : ℕ) * 2 ^ s + (n % 2 ^ s : ℕ) := by
    exact_mod_cast (Nat.div_add_mod' n (2 ^ s)).symm
  have hr : n % 2 ^ s < 2 ^ s := Nat.mod_lt _ (Nat.two_pow_pos s)
  have hcast : ((2 ^ s : ℕ) : ℤ) = 2 ^ s := by push_cast; rfl
  rw [nearestQuotient]
  -- From here on only the quotient and the rest matter.
  generalize n / 2 ^ s = q at hn ⊢
  generalize n % 2 ^ s = r at hn hr ⊢
  have hup : ((q + 1 : ℕ) : ℤ) * 2 ^ s - n = 2 ^ s - r := by rw [hn]; push_cast; ring
  have hdown : (q : ℤ) * 2 ^ s - n = -r := by rw [hn]; ring
  split
  -- Below the tie the number is cut off, beyond it the quotient goes up.
  case isTrue hlt =>
    rw [hdown, abs_neg, abs_of_nonneg (by omega)]
    omega
  case isFalse hge =>
    split
    case isTrue heq =>
      -- A tie goes to the even one of both.
      rcases Nat.mod_two_eq_zero_or_one q with h | h
      · rw [h, Nat.add_zero, hdown, abs_neg, abs_of_nonneg (by omega)]
        omega
      · rw [h, hup, abs_of_nonneg (by omega)]
        omega
    case isFalse hne =>
      rw [hup, abs_of_nonneg (by omega)]
      omega

/-- No multiple of `2 ^ s` is nearer, and only if the quotient is even one is as near. -/
theorem abs_nearestQuotient_le (n s : Nat) (k : ℤ) :
    |(nearestQuotient n s : ℚ) * 2 ^ s - n| ≤ |(k : ℚ) * 2 ^ s - n| ∧
      (|(k : ℚ) * 2 ^ s - n| = |(nearestQuotient n s : ℚ) * 2 ^ s - n| →
        k = nearestQuotient n s ∨ nearestQuotient n s % 2 = 0) := by
  obtain ⟨hle, heven⟩ := two_mul_abs_nearestQuotient_le n s
  by_cases hk : k = nearestQuotient n s
  · rw [hk]
    exact ⟨le_rfl, fun _ => .inl rfl⟩
  -- Two multiples are at least a unit apart.
  have hapart : (2 : ℤ) ^ s ≤ |k * 2 ^ s - nearestQuotient n s * 2 ^ s| := by
    rw [← sub_mul, abs_mul, abs_of_pos (a := (2 : ℤ) ^ s) (by positivity)]
    have hone : 1 ≤ |k - nearestQuotient n s| := Int.one_le_abs (sub_ne_zero.2 hk)
    exact le_mul_of_one_le_left (by positivity) hone
  have htriangle := abs_sub_le (k * 2 ^ s) (n : ℤ) (nearestQuotient n s * 2 ^ s)
  rw [abs_sub_comm (n : ℤ)] at htriangle
  have hnear : |(nearestQuotient n s : ℤ) * 2 ^ s - n| ≤ |k * 2 ^ s - n| := by linarith
  refine ⟨by exact_mod_cast hnear, fun heq => .inr (heven ?_)⟩
  have heq : |k * 2 ^ s - n| = |(nearestQuotient n s : ℤ) * 2 ^ s - n| := by exact_mod_cast heq
  linarith

/-- A number with at most 53 bits before trailing zeros. -/
def Fits (v : ℚ) : Prop := ∃ k e : ℤ, |k| < 2 ^ 53 ∧ v = k * 2 ^ e

/-- A number fits a double when its negative does: the sign has a bit of its own. -/
theorem Fits.neg {v : ℚ} (hv : Fits v) : Fits (-v) := by
  obtain ⟨k, e, hk, rfl⟩ := hv
  exact ⟨-k, e, by rwa [abs_neg], by push_cast; ring⟩

/-- Among the numbers of 53 bits there is none nearer. -/
theorem abs_le_of_fits {n s : Nat} (hn : n.log2 = 52 + s) {v : ℚ} (hv : Fits v) :
    |(nearestQuotient n s : ℚ) * 2 ^ s - n| ≤ |v - n| ∧
      (|v - n| = |(nearestQuotient n s : ℚ) * 2 ^ s - n| →
        v = nearestQuotient n s * 2 ^ s ∨ nearestQuotient n s % 2 = 0) := by
  obtain ⟨k, e, hk, rfl⟩ := hv
  rcases le_or_gt (s : ℤ) e with hse | hse
  · -- The number is a multiple of the unit.
    obtain ⟨d, rfl⟩ := Int.le.dest hse
    obtain ⟨hle, heq⟩ := abs_nearestQuotient_le n s (k * 2 ^ d)
    have hv : (k : ℚ) * 2 ^ ((s : ℤ) + d) = ((k * 2 ^ d : ℤ) : ℚ) * 2 ^ s := by
      rw [zpow_add₀ two_ne_zero, zpow_natCast, zpow_natCast]
      push_cast
      ring
    rw [hv]
    refine ⟨hle, fun h => ?_⟩
    rcases heq h with hq | heven
    · exact .inl (by rw [hq]; push_cast; rfl)
    · exact .inr heven
  · -- The number lies below `2 ^ 52` units, which is a multiple and not above `n`.
    have hlow : ((2 ^ 52 : ℤ) : ℚ) * 2 ^ s ≤ n := by
      have hpos : n ≠ 0 := by
        rintro rfl
        rw [Nat.log2_zero] at hn
        omega
      have hle := ((Nat.log2_eq_iff hpos).1 hn).1
      rw [Nat.pow_add] at hle
      exact_mod_cast hle
    have hbelow : (k : ℚ) * 2 ^ e < ((2 ^ 52 : ℤ) : ℚ) * 2 ^ s := by
      have hk' : (k : ℚ) < 2 ^ 53 := by exact_mod_cast (abs_lt.1 hk).2
      have he : (2 : ℚ) ^ e ≤ 2 ^ ((s : ℤ) - 1) := zpow_le_zpow_right₀ one_le_two (by omega)
      calc (k : ℚ) * 2 ^ e < 2 ^ 53 * 2 ^ e := by
            exact mul_lt_mul_of_pos_right hk' (by positivity)
        _ ≤ 2 ^ 53 * 2 ^ ((s : ℤ) - 1) := by gcongr
        _ = ((2 ^ 52 : ℤ) : ℚ) * 2 ^ s := by
            rw [zpow_sub_one₀ two_ne_zero, zpow_natCast]
            push_cast
            ring
    have hle := (abs_nearestQuotient_le n s (2 ^ 52)).1
    have hlt : |((2 ^ 52 : ℤ) : ℚ) * 2 ^ s - n| < |(k : ℚ) * 2 ^ e - n| := by
      rw [abs_of_nonpos (by linarith), abs_of_nonpos (by linarith)]
      linarith
    exact ⟨hle.trans hlt.le, fun heq => absurd heq (hle.trans_lt hlt).ne'⟩

/-- No number of 53 bits is nearer to `n` than `v`, and one as near has to be odd if `v` is. -/
def IsNearestTo (n v : ℚ) (even : Prop) : Prop :=
  ∀ w, Fits w → |v - n| ≤ |w - n| ∧ (|w - n| = |v - n| → w = v ∨ even)

/-- A number that fits is the nearest to itself. -/
theorem IsNearestTo.of_eq (n : ℚ) (even : Prop) : IsNearestTo n n even := by
  intro w _
  rw [sub_self, abs_zero]
  exact ⟨abs_nonneg _, fun h => .inl (sub_eq_zero.1 (abs_eq_zero.1 h))⟩

/-- The negative of the nearest is the nearest to the negative. -/
theorem IsNearestTo.neg {n v : ℚ} {even : Prop} (h : IsNearestTo n v even) :
    IsNearestTo (-n) (-v) even := by
  intro w hw
  obtain ⟨hle, heq⟩ := h (-w) hw.neg
  have hflip (x : ℚ) : |x - -n| = |(-x) - n| := by
    rw [← abs_neg]
    ring_nf
  rw [hflip w, hflip (-v), neg_neg]
  exact ⟨hle, fun h => (heq h).imp_left fun h => by rw [← h, neg_neg]⟩

/-- A positive integer of 64 bits is rounded to the nearest number of 53 bits. -/
theorem round_eq (sign : Sign) {m : Nat} (hm : 0 < m) (hm' : m < 2 ^ 64) :
    ∃ (r : Nat) (e : Int) (hr : 0 < r),
      UnpackedFloat.round Format.binary64 sign m 0 = .finite sign r e hr ∧
      2 ^ 52 ≤ r ∧ r < 2 ^ 53 ∧ -1074 ≤ e ∧ e ≤ 971 ∧
      IsNearestTo m (r * 2 ^ e) (r % 2 = 0) := by
  have hlog : m.log2 < 64 := (Nat.log2_lt hm.ne').2 hm'
  have hround : UnpackedFloat.round Format.binary64 sign m 0 =
      roundWithAccuracy Format.binary64 sign (m <<< (52 - m.log2)) (-(52 - m.log2 : ℕ))
        .exact := by
    rw [UnpackedFloat.round, targetExponent_binary64]
    simp only [decreaseExponent]
    rw [show (0 - max ((m.log2 : Int) + 0 - 52) (-1074)).toNat = 52 - m.log2 by omega, Int.zero_sub]
  rw [hround]
  rcases Nat.le_total m.log2 52 with hle | hge
  · -- All bits fit, so the integer is moved to the left.
    obtain ⟨hlow, hhigh⟩ := (Nat.log2_eq_iff hm.ne').1 rfl
    have hshift : (m <<< (52 - m.log2)).log2 = 52 + 0 := by
      rw [Nat.shiftLeft_eq, Nat.log2_eq_iff (by positivity)]
      have hpow (i : Nat) : 2 ^ (m.log2 + i) * 2 ^ (52 - m.log2) = 2 ^ (52 + i) := by
        rw [← Nat.pow_add]
        congr 1
        omega
      rw [← hpow 0, Nat.add_assoc, ← hpow (0 + 1)]
      exact ⟨Nat.mul_le_mul_right _ hlow, Nat.mul_lt_mul_of_pos_right hhigh (Nat.two_pow_pos _)⟩
    obtain ⟨r, e, hr, hr', hlow, hhigh, he, he', hv, -⟩ :=
      roundWithAccuracy_eq sign hshift (e := -(52 - m.log2 : ℕ)) (by omega)
    refine ⟨r, e, hr, hr', hlow, hhigh, by omega, by omega, ?_⟩
    have hvalue : (r : ℚ) * 2 ^ e = m := by
      rw [hv, nearestQuotient_zero, Nat.shiftLeft_eq, Nat.cast_zero, add_zero, zpow_neg,
        zpow_natCast, Nat.cast_mul, Nat.cast_pow, Nat.cast_two]
      exact mul_inv_cancel_right₀ (by positivity) _
    rw [hvalue]
    exact .of_eq _ _
  · obtain ⟨s, hs⟩ := Nat.exists_eq_add_of_le hge
    rw [show 52 - m.log2 = 0 by omega, Nat.shiftLeft_zero]
    obtain ⟨r, e, hr, hr', hlow, hhigh, he, he', hv, heven⟩ :=
      roundWithAccuracy_eq sign hs (e := -(0 : ℕ)) (by omega)
    refine ⟨r, e, hr, hr', hlow, hhigh, by omega, by omega, fun w hw => ?_⟩
    rw [hv, Nat.cast_zero, neg_zero, zero_add, zpow_natCast]
    obtain ⟨hle, heq⟩ := abs_le_of_fits hs hw
    exact ⟨hle, fun h => (heq h).imp_right heven⟩

/-! ## Doubles -/

/-- The number that a finite double stands for. -/
def value (f : Float) : ℚ :=
  match f.toModel.unpack with
  | .finite sign m e _ => sign.apply m * 2 ^ e
  | _ => 0

/-- The mantissa of a double is even. -/
def IsEven (f : Float) : Prop :=
  match f.toModel.unpack with
  | .finite _ m _ _ => m % 2 = 0
  | _ => True

/-- Of the finite doubles none is nearer to an integer, and one that is as near is another
notation of the same number unless the mantissa is even. -/
structure IsNearest (f : Float) (n : Int) : Prop where
  finite : f.isFinite = true
  le : ∀ g : Float, g.isFinite = true → |value f - n| ≤ |value g - n|
  even : ∀ g : Float, g.isFinite = true → |value g - n| = |value f - n| →
    value g = value f ∨ IsEven f

/-- The mantissa of a double has at most 53 bits. -/
theorem fits_value (f : Float) : Fits (value f) := by
  rw [value]
  cases hf : f.toModel.unpack with
  | notANumber | infinity sign | zero sign => exact ⟨0, 0, by decide, by simp⟩
  | finite sign m e hm =>
    refine ⟨sign.apply m, e, ?_, rfl⟩
    have hm' : m < 2 ^ 53 := by
      rw [Float.Model.unpack, UnpackedFloat.unpack] at hf
      split at hf
      · split at hf <;> cases hf
      · split at hf
        · split at hf
          · cases hf
          · -- A subnormal double has no hidden bit.
            cases hf
            exact lt_of_lt_of_le (BitVec.isLt _) (by decide)
        · cases hf
          exact BitVec.isLt _
    cases sign <;> simp only [Sign.apply, abs_neg] <;> rw [abs_of_nonneg (by omega)] <;> omega

/-- A double that is nearest among the numbers of 53 bits is nearest among the doubles. -/
theorem IsNearestTo.isNearest {f : Float} {n : Int} (h : IsNearestTo n (value f) (IsEven f))
    (hf : f.isFinite = true) : IsNearest f n where
  finite := hf
  le g _ := (h _ (fits_value g)).1
  even g _ := (h _ (fits_value g)).2

/-- A positive word and its negation become doubles of one mantissa. -/
theorem unpack_toFloat {n : UInt64} (hn : 0 < n.toNat) :
    ∃ (r : Nat) (e : Int) (hr : 0 < r), n.toFloat.toModel.unpack = .finite .positive r e hr ∧
      (-n.toFloat).toModel.unpack = .finite .negative r e hr ∧
      IsNearestTo n.toNat (r * 2 ^ e) (r % 2 = 0) := by
  obtain ⟨r, e, hr, hround, hlow, hhigh, he, he', hnear⟩ := round_eq .positive hn n.toNat_lt
  have hf : n.toFloat.toModel.unpack = .finite .positive r e hr := by
    -- The double of a word is the rounded number, packed.
    have hnormalize : n.toFloat.toModel = Float.Model.pack (.finite .positive r e hr) := by
      have hpos : compare (n.toNat : Int) 0 = .gt := compare_gt_iff_gt.2 (by omega)
      rw [← hround]
      show Float.Model.pack (UnpackedFloat.normalize _ (n.toNat : Int) 0 .positive) = _
      rw [UnpackedFloat.normalize, hpos]
      rfl
    rw [hnormalize, unpack_pack hr hlow hhigh he he']
  refine ⟨r, e, hr, hf, ?_, hnear⟩
  show (Float.Model.pack n.toFloat.toModel.unpack.neg).unpack = _
  rw [hf]
  exact unpack_pack hr hlow hhigh he he'

/-- What a double stands for, by its parts. -/
theorem value_of_unpack {f : Float} {sign : Sign} {r : Nat} {e : Int} {hr : 0 < r}
    (hf : f.toModel.unpack = .finite sign r e hr) :
    f.isFinite = true ∧ value f = sign.apply r * 2 ^ e ∧ IsEven f = (r % 2 = 0) := by
  refine ⟨?_, by rw [value, hf], by rw [IsEven, hf]⟩
  show f.toModel.unpack.isFinite = true
  rw [hf]
  rfl

/-- The double for an integer is the nearest one. -/
theorem isNearest_nearestDouble {n : Int} (hn : n.natAbs < 2 ^ 64) :
    IsNearest (Json.Number.nearestDouble n) n := by
  have hnat : (UInt64.ofNat n.natAbs).toNat = n.natAbs := UInt64.toNat_ofNat_of_lt' hn
  rw [Json.Number.nearestDouble]
  rcases Int.lt_trichotomy n 0 with hneg | rfl | hpos
  · -- Below zero it is the negative of the double of the magnitude.
    obtain ⟨r, e, hr, -, hf, hnear⟩ := unpack_toFloat (n := .ofNat n.natAbs) (by omega)
    obtain ⟨hfinite, hvalue, heven⟩ := value_of_unpack hf
    have hn' : (n : ℚ) = -((UInt64.ofNat n.natAbs).toNat : ℚ) := by
      rw [hnat, Nat.cast_natAbs, abs_of_neg hneg, Int.cast_neg, neg_neg]
    have hv : ((Sign.negative.apply r : ℤ) : ℚ) * 2 ^ e = -(r * 2 ^ e) := by
      rw [Sign.apply, Int.cast_neg, Int.cast_natCast, neg_mul]
    rw [if_pos hneg]
    refine IsNearestTo.isNearest ?_ hfinite
    rw [hvalue, heven, hn', hv]
    exact hnear.neg
  · -- Zero is a double of its own, without a mantissa.
    have hf : (UInt64.ofNat (Int.natAbs 0)).toFloat.toModel.unpack = .zero .positive := by rfl
    have hvalue : value (UInt64.ofNat (Int.natAbs 0)).toFloat = (0 : Int) := by
      rw [value, hf, Int.cast_zero]
    rw [if_neg (lt_irrefl 0)]
    refine IsNearestTo.isNearest ?_ (by rfl)
    rw [hvalue]
    exact .of_eq _ _
  · obtain ⟨r, e, hr, hf, -, hnear⟩ := unpack_toFloat (n := .ofNat n.natAbs) (by omega)
    obtain ⟨hfinite, hvalue, heven⟩ := value_of_unpack hf
    have hn' : (n : ℚ) = ((UInt64.ofNat n.natAbs).toNat : ℚ) := by
      rw [hnat, Nat.cast_natAbs, abs_of_pos hpos]
    rw [if_neg (by omega)]
    refine IsNearestTo.isNearest ?_ hfinite
    rw [hvalue, heven, hn']
    exact hnear

end LanguageServer.Double
