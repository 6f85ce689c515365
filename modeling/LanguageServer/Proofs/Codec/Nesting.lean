import LanguageServer.Proofs.Codec.RoundTrip

/-!
# Values that hold values of their own type are read back

A codec for such values is made step by step from a codec for the values inside, up to some depth.
`Codec.IsNesting` says what a step has to fulfil, and `Codec.IsNesting.isFaithful` that the depth
does not show then: a value is written as deep as it is, and the depth of its document is enough to
read it.
-/

namespace LanguageServer.Codec

open Json (Source Place)

variable {α : Type} {step : Codec α → Codec α} {inside : α → List α} {height : α → Nat}

/-- A step makes a codec from one for the values inside, which are of less height. -/
structure IsNesting (step : Codec α → Codec α) (inside : α → List α) (height : α → Nat) :
    Prop where
  readsBack {c : Codec α} {x : α} :
    (∀ y ∈ inside x, c.ReadsBack y y ∧ c.encode y ≠ .null) → (step c).ReadsBack x x
  isObject (c : Codec α) (x : α) : ((step c).encode x).isObject = true
  encode_eq {c c' : Codec α} {x : α} :
    (∀ y ∈ inside x, c.encode y = c'.encode y) → (step c).encode x = (step c').encode x
  depth_lt {c : Codec α} {x : α} : (∀ y ∈ inside x, c.ReadsBack y y ∧ c.encode y ≠ .null) →
    ∀ y ∈ inside x, ∀ p : Place,
      (Source.ofJson p (c.encode y)).depth < (Source.ofJson p ((step c).encode x)).depth
  height_lt {x y : α} : y ∈ inside x → height y < height x
  height_le {x : α} {d : Nat} : 0 < d → (∀ y ∈ inside x, height y < d) → height x ≤ d

/-- The codecs of growing depth that a step makes. -/
structure IsUnrolled (step : Codec α → Codec α) (upTo : Nat → Codec α) : Prop where
  zero : ∃ c, upTo 0 = step c
  succ (n : Nat) : upTo (n + 1) = step (upTo n)

/-- However often it is unrolled, the last step is one of the same kind. -/
theorem IsUnrolled.exists_step {upTo : Nat → Codec α} (h : IsUnrolled step upTo) (n : Nat) :
    ∃ c, upTo n = step c := by
  cases n with
  | zero => exact h.zero
  | succ n => exact ⟨_, h.succ n⟩

namespace IsNesting

variable {upTo : Nat → Codec α} (h : IsNesting step inside height) (hu : IsUnrolled step upTo)

include h hu

/-- At no depth is anything written as null. -/
theorem ne_null (n : Nat) (x : α) : (upTo n).encode x ≠ .null := by
  obtain ⟨c, hc⟩ := hu.exists_step n
  intro hnull
  have := h.isObject c x
  rw [← hc, hnull] at this
  cases this

/-- Every codec of at least the height of a value is a step from one that reads back the values
inside. -/
theorem exists_inside {n : Nat} {x : α} (hn : height x ≤ n) :
    ∃ c, upTo n = step c ∧ ∀ y ∈ inside x, c.ReadsBack y y ∧ c.encode y ≠ .null := by
  induction n generalizing x with
  | zero =>
    obtain ⟨c, hc⟩ := hu.zero
    -- There is no room for values inside.
    refine ⟨c, hc, fun y hy => ?_⟩
    have := h.height_lt hy
    omega
  | succ n ih =>
    refine ⟨upTo n, hu.succ n, fun y hy => ⟨?_, h.ne_null hu n y⟩⟩
    have := h.height_lt hy
    obtain ⟨c, hc, hinside⟩ := ih (x := y) (by omega)
    exact hc ▸ h.readsBack hinside

/-- What nests no deeper than the codec is unrolled is read back. -/
theorem readsBack_upTo {n : Nat} {x : α} (hn : height x ≤ n) : (upTo n).ReadsBack x x := by
  obtain ⟨c, hc, hinside⟩ := h.exists_inside hu hn
  exact hc ▸ h.readsBack hinside

/-- All codecs of at least its height write a value in the same way. -/
theorem encode_upTo {n m : Nat} {x : α} (hn : height x ≤ n) (hm : height x ≤ m) :
    (upTo n).encode x = (upTo m).encode x := by
  induction n generalizing x m with
  | zero =>
    obtain ⟨c, hc⟩ := hu.zero
    -- Nothing lies inside a value of height zero, so any two codecs agree on it.
    obtain ⟨c', hc'⟩ := hu.exists_step m
    rw [hc, hc']
    refine h.encode_eq fun y hy => ?_
    have := h.height_lt hy
    omega
  | succ n ih =>
    cases m with
    | zero =>
      obtain ⟨c, hc⟩ := hu.zero
      rw [hu.succ, hc]
      refine h.encode_eq fun y hy => ?_
      have := h.height_lt hy
      omega
    | succ m =>
      rw [hu.succ, hu.succ]
      refine h.encode_eq fun y hy => ?_
      have := h.height_lt hy
      exact ih (by omega) (by omega)

/-- The document of a value nests at least as deep as the value. -/
theorem height_le_depth {n : Nat} {x : α} (hn : height x ≤ n) (p : Place) :
    height x ≤ (Source.ofJson p ((upTo n).encode x)).depth := by
  induction n generalizing x with
  | zero => omega
  | succ n ih =>
    have hlt {y : α} (hy : y ∈ inside x) : height y ≤ n := by
      have := h.height_lt hy
      omega
    -- What stands inside nests less deep, so that it is read back one level further down.
    have hinside (y : α) (hy : y ∈ inside x) :
        (upTo n).ReadsBack y y ∧ (upTo n).encode y ≠ .null :=
      ⟨h.readsBack_upTo hu (hlt hy), h.ne_null hu n y⟩
    rw [hu.succ]
    refine h.height_le ?_ fun y hy =>
      Nat.lt_of_le_of_lt (ih (hlt hy)) (h.depth_lt hinside y hy p)
    have hobject := h.isObject (upTo n) x
    -- An object adds a level to whatever stands in it.
    generalize (step (upTo n)).encode x = j at hobject
    cases j with
    | object members => exact Nat.succ_pos _
    | null | bool _ | number _ | string _ | array _ => cases hobject

/-- A codec that goes as deep as its value, or as its document, reads every value back. -/
theorem isFaithful : Codec.IsFaithful
    ⟨fun x => (upTo (height x)).encode x, fun s => (upTo s.depth).decode s⟩ where
  readsBack x := by
    have hle := Nat.le_refl (height x)
    refine ⟨(h.readsBack_upTo hu hle).wellFormed, fun p => ?_⟩
    have hdepth := h.height_le_depth hu hle p
    have hread := (h.readsBack_upTo hu hdepth).decode_eq p
    rwa [h.encode_upTo hu hdepth hle] at hread
  ne_null x := h.ne_null hu _ x

end IsNesting

end LanguageServer.Codec
