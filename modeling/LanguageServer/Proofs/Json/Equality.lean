import LanguageServer.Json.Basic
import Mathlib

/-!
# Equal documents

Documents are equal when they are the same but for the signs of their zeros: `Json.dropZeroSign`
takes minus zero as zero everywhere in a document, and equality compares what is left
(`Json.beq_iff`).  `Json.Hole` is a place in a document, with what stands around it.  Equal
documents in one place make equal documents, and others do not (`Json.Hole.dropZeroSign_fill`).
-/

namespace LanguageServer

namespace Json

/-! ## Numbers -/

namespace Number

/-- No finite double is the one that is no number. -/
theorem float_ne_nan {f : Float} (h : f.isFinite = true) : f ≠ Float.nan := by
  rintro rfl
  cases h

/-- Two doubles are equal to zero, which differ in their sign. -/
theorem float_beq_zero {f : Float} (h : (f == 0) = true) : f = 0 ∨ f = -0 := by
  obtain ⟨-, -, h | ⟨h, -⟩ | ⟨h, -⟩⟩ := Float.beq_iff_ne_nan_and_eq.1 h
  · exact .inl h
  · exact .inl h
  · exact .inr h

/-- Minus zero is taken as zero. -/
def dropZeroSign : Number → Number
  | .int n => .int n
  | .float f => .float (if f == 0 then 0 else f)

/-- Two doubles are equal when they are the same but for the sign of a zero. -/
theorem float_beq_iff {f g : Float} (hf : f.isFinite = true) (hg : g.isFinite = true) :
    (f == g) = true ↔ dropZeroSign (.float f) = dropZeroSign (.float g) := by
  simp only [dropZeroSign, Number.float.injEq]
  constructor
  · intro h
    obtain ⟨-, -, rfl | ⟨rfl, rfl⟩ | ⟨rfl, rfl⟩⟩ := Float.beq_iff_ne_nan_and_eq.1 h
    · rfl
    · rfl
    · rfl
  · intro h
    -- Both are zeros, or neither is, and then nothing was taken for anything else.
    split at h
    · rename_i hf0
      have hg0 : (g == 0) = true := by
        split at h
        · assumption
        · rw [← h]
          rfl
      obtain rfl | rfl := float_beq_zero hf0 <;> obtain rfl | rfl := float_beq_zero hg0 <;> rfl
    · rename_i hf0
      split at h
      · rw [h] at hf0
        exact absurd rfl hf0
      · rw [h]
        exact Float.beq_self_iff.2 (float_ne_nan hg)

end Number

/-! ## Documents -/

mutual

/-- Minus zero is taken as zero, wherever it stands. -/
def dropZeroSign : Json → Json
  | .number n => .number n.dropZeroSign
  | .array items => .array (dropZeroSigns items)
  | .object members => .object (dropMemberSigns members)
  | j => j

/-- Minus zero is taken as zero in every item. -/
def dropZeroSigns : List Json → List Json
  | [] => []
  | j :: rest => dropZeroSign j :: dropZeroSigns rest

/-- Minus zero is taken as zero in every member. -/
def dropMemberSigns : List (String × Json) → List (String × Json)
  | [] => []
  | (k, j) :: rest => (k, dropZeroSign j) :: dropMemberSigns rest

end

/-- Items lose the signs of their zeros one by one. -/
theorem dropZeroSigns_eq_map (items : List Json) :
    dropZeroSigns items = items.map dropZeroSign := by
  induction items with
  | nil => rfl
  | cons j rest ih => rw [dropZeroSigns, ih, List.map_cons]

/-- Members lose the signs of their zeros one by one. -/
theorem dropMemberSigns_eq_map (members : List (String × Json)) :
    dropMemberSigns members = members.map fun m => (m.1, dropZeroSign m.2) := by
  induction members with
  | nil => rfl
  | cons m rest ih => rw [dropMemberSigns, ih, List.map_cons]

/-- Lists of documents are equal when they are so item by item. -/
theorem beqItems_iff {items others : List Json}
    (each : ∀ j ∈ items, ∀ k ∈ others, (j == k) = true ↔ j.dropZeroSign = k.dropZeroSign) :
    beqItems items others = true ↔ dropZeroSigns items = dropZeroSigns others := by
  induction items generalizing others with
  | nil => cases others <;> simp [beqItems, dropZeroSigns]
  | cons j items ih =>
    cases others with
    | nil => simp [beqItems, dropZeroSigns]
    | cons k others =>
      -- Both sides ask the same of the first items and of those behind them.
      have hhead : beq j k = true ↔ j.dropZeroSign = k.dropZeroSign :=
        each j List.mem_cons_self k List.mem_cons_self
      have htail := ih fun j hj k hk => each j (.tail _ hj) k (.tail _ hk)
      simp only [beqItems, dropZeroSigns, Bool.and_eq_true, List.cons.injEq, hhead, htail]

/-- Members are equal when they are so one by one, under the same keys. -/
theorem beqMembers_iff {members others : List (String × Json)}
    (each : ∀ m ∈ members, ∀ n ∈ others,
      (m.2 == n.2) = true ↔ m.2.dropZeroSign = n.2.dropZeroSign) :
    beqMembers members others = true ↔ dropMemberSigns members = dropMemberSigns others := by
  induction members generalizing others with
  | nil => cases others <;> simp [beqMembers, dropMemberSigns]
  | cons m members ih =>
    cases others with
    | nil => simp [beqMembers, dropMemberSigns]
    | cons n others =>
      -- The keys are compared as they are, the values up to the signs of zeros.
      have hhead : beq m.2 n.2 = true ↔ m.2.dropZeroSign = n.2.dropZeroSign :=
        each m List.mem_cons_self n List.mem_cons_self
      have htail := ih fun m hm n hn => each m (.tail _ hm) n (.tail _ hn)
      simp only [beqMembers, dropMemberSigns, Bool.and_eq_true, beq_iff_eq, List.cons.injEq,
        Prod.mk.injEq, hhead, htail]

/-- Documents are equal when they are the same but for the signs of their zeros. -/
theorem beq_iff {j k : Json} (hj : j.WellFormed) (hk : k.WellFormed) :
    (j == k) = true ↔ j.dropZeroSign = k.dropZeroSign := by
  show beq j k = true ↔ _
  induction hj generalizing k with
  | null | bool _ | string _ => cases hk <;> simp [beq, dropZeroSign]
  -- Numbers of two kinds are never equal: an integer is no double, whatever their values.
  | int n _ _ =>
    cases hk with
    | int m _ _ =>
      simp only [beq, dropZeroSign, Json.number.injEq, Number.dropZeroSign, Number.int.injEq]
      exact beq_iff_eq (a := n) (b := m)
    | null | bool _ | float _ _ | string _ | array _ _ | object _ _ _ =>
      exact iff_of_false nofun nofun
  | float f hf =>
    cases hk with
    | float g hg =>
      simp only [beq, dropZeroSign, Json.number.injEq]
      exact Number.float_beq_iff hf hg
    | null | bool _ | int _ _ _ | string _ | array _ _ | object _ _ _ =>
      exact iff_of_false nofun nofun
  | array items _ ih =>
    cases hk with
    | array others each =>
      simp only [beq, dropZeroSign, Json.array.injEq]
      exact beqItems_iff fun j hj k hk => ih j hj (each k hk)
    | null | bool _ | int _ _ _ | float _ _ | string _ | object _ _ _ =>
      exact iff_of_false nofun nofun
  | object members _ _ ih =>
    cases hk with
    | object others _ each =>
      simp only [beq, dropZeroSign, Json.object.injEq]
      exact beqMembers_iff fun m hm n hn => ih m hm (each n hn)
    | null | bool _ | int _ _ _ | float _ _ | string _ | array _ _ =>
      exact iff_of_false nofun nofun

/-! ## Places -/

/-- A place in a document, with what stands around it. -/
inductive Hole where
  | here
  | item (before : List Json) (inner : Hole) (after : List Json)
  | member (before : List (String × Json)) (key : String) (inner : Hole)
      (after : List (String × Json))

/-- The document with another one put into its place. -/
def Hole.fill (j : Json) : Hole → Json
  | .here => j
  | .item before inner after => .array (before ++ inner.fill j :: after)
  | .member before key inner after => .object (before ++ (key, inner.fill j) :: after)

/-- A place is filled alike by documents that are the same but for the signs of their zeros, and by
no others. -/
theorem Hole.dropZeroSign_fill (hole : Hole) (j k : Json) :
    (hole.fill j).dropZeroSign = (hole.fill k).dropZeroSign ↔ j.dropZeroSign = k.dropZeroSign := by
  induction hole with
  | here => rfl
  | item before inner after ih =>
    simp [fill, dropZeroSign, dropZeroSigns_eq_map, ih]
  | member before key inner after ih =>
    simp [fill, dropZeroSign, dropMemberSigns_eq_map, ih]

end Json

end LanguageServer
