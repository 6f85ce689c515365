import LanguageServer.Proofs.Codec.Record

/-!
# Documents that say more

`Json.Grows a b` says that `b` has every path of `a`, with the same value at its end or one that
says more: options in place of a bare yes, or a yes in place of a no.  A record grows when its
fields do (`Record.grows_encode`).
-/

namespace LanguageServer

namespace Json

/-- The value at the end of a path of keys. -/
def valueAt? : List String → Json → Option Json
  | [], j => some j
  | key :: path, j => (j.member? key).bind (valueAt? path)

/-- What may stand in the place of a value.  Objects are compared by their paths. -/
inductive Keeps : Json → Json → Prop where
  | same (j : Json) : Keeps j j
  | agreed : Keeps (.bool false) (.bool true)
  | detailed (members : List (String × Json)) : Keeps (.bool true) (.object members)
  | object (members members' : List (String × Json)) : Keeps (.object members) (.object members')

/-- Every path of one document is in the other, and keeps its value. -/
def Grows (a b : Json) : Prop :=
  ∀ path v, a.valueAt? path = some v → ∃ w, b.valueAt? path = some w ∧ v.Keeps w

/-- Every member of one object is in the other, and grows. -/
def MembersGrow (ms ms' : Members Json) : Prop :=
  ∀ key j, ms.get? key = some j → ∃ j', ms'.get? key = some j' ∧ j.Grows j'

namespace Grows

/-- Nothing is lost when nothing changes. -/
theorem refl (j : Json) : j.Grows j := fun _ v h => ⟨v, h, .same v⟩

/-- A boolean has no paths but the empty one. -/
theorem bool {b : Bool} {j : Json} (h : (Json.bool b).Keeps j) : (Json.bool b).Grows j
  | [], _, hv => ⟨j, rfl, Option.some.inj hv ▸ h⟩
  | _ :: _, _, hv => nomatch hv

/-- Objects grow when there is something no smaller under each key of the old one. -/
theorem object {ms ms' : List (String × Json)} (h : MembersGrow ms ms') :
    (Json.object ms).Grows (.object ms')
  | [], _, hv => ⟨.object ms', rfl, Option.some.inj hv ▸ .object ms ms'⟩
  | key :: path, v, hv => by
    obtain ⟨j, hj, hpath⟩ := Option.bind_eq_some_iff.1 hv
    obtain ⟨j', hj', hgrows⟩ := h key j hj
    obtain ⟨w, hw, hkeeps⟩ := hgrows path v hpath
    exact ⟨w, Option.bind_eq_some_iff.2 ⟨j', hj', hw⟩, hkeeps⟩

end Grows

end Json

open Json (MembersGrow)

/-- The member of a field, if it is there, stays and grows. -/
def Field.Grows {α : Type} (f : Field α) (a b : α) : Prop :=
  ∀ j, f.encode a = some j → ∃ j', f.encode b = some j' ∧ j.Grows j'

namespace Field.Grows

variable {α : Type}

/-- A field grows when its value does not change. -/
theorem refl (f : Field α) (a : α) : f.Grows a a := fun j h => ⟨j, h, .refl j⟩

/-- A field that is always written grows with its value. -/
theorem required {c : Codec α} {a b : α} (h : (c.encode a).Grows (c.encode b)) :
    (Field.required c).Grows a b := by
  rintro _ ⟨⟩
  exact ⟨_, rfl, h⟩

/-- A field that may be missing grows with its value when it is there. -/
theorem some {c : Codec α} {a b : α} (h : (c.encode a).Grows (c.encode b)) :
    (Field.optional c).Grows (some a) (some b) := by
  rintro _ ⟨⟩
  exact ⟨_, rfl, h⟩

/-- A field that is missing may come to be there. -/
theorem none (c : Codec α) (a : Option α) : (Field.optional c).Grows none a := nofun

/-- A value that is there stays. -/
theorem isSome {c : Codec α} {a b : Option α} (h : (Field.optional c).Grows a b)
    (ha : a.isSome = true) : b.isSome = true := by
  obtain ⟨_, rfl⟩ := Option.isSome_iff_exists.1 ha
  obtain ⟨_, hb, -⟩ := h _ rfl
  cases b with
  | none => cases hb
  | some _ => rfl

end Field.Grows

namespace Fields

variable {σ τ : Type}

/-- Every field grows. -/
def Grows (x y : σ) : {τ : Type} → Fields σ τ → Prop
  | _, .done => True
  | _, .own _ get f rest => f.Grows (get x) (get y) ∧ rest.Grows x y
  | _, .part get q rest => MembersGrow (q.encode (get x)) (q.encode (get y)) ∧ rest.Grows x y

/-- Two tables that hold the members of records grow with the fields. -/
theorem Grows.of_shows {fs : Fields σ τ} {x y : σ} (h : fs.Grows x y)
    {look look' : String → Option Json} (hx : fs.Shows look look x) (hy : fs.Shows look' look' y)
    {k : String} (hk : k ∈ fs.keys ++ fs.partKeys) {j : Json} (hj : look k = some j) :
    ∃ j', look' k = some j' ∧ j.Grows j' := by
  induction fs with
  | done => cases hk
  | own key get f rest ih =>
    rcases List.mem_cons.1 hk with rfl | hk
    · obtain ⟨j', hj', hgrows⟩ := h.1 j (hx.1 ▸ hj)
      exact ⟨j', hy.1.trans hj', hgrows⟩
    · exact ih h.2 hx.2 hy.2 hk
  -- The key is that of a field further on, of this part, or of a part further on.
  | part get q rest ih =>
    simp only [keys, partKeys, List.mem_append] at hk
    rcases hk with hk | hk | hk
    · exact ih h.2 hx.2 hy.2 (List.mem_append_left _ hk)
    · obtain ⟨j', hj', hgrows⟩ := h.1 k j (hx.1 k hk ▸ hj)
      exact ⟨j', (hy.1 k hk).trans hj', hgrows⟩
    · exact ih h.2 hx.2 hy.2 (List.mem_append_right _ hk)

end Fields

namespace Record

variable {σ : Type} {r : Record σ}

/-- The object of a record grows with its fields. -/
theorem grows_encode (hn : (r.fields.keys ++ r.fields.partKeys).Nodup) {x x' y y' : σ}
    (hx : r.fields.ReadsBack x x') (hy : r.fields.ReadsBack y y') (h : r.fields.Grows x y) :
    (r.codec.encode x).Grows (r.codec.encode y) := by
  refine .object fun k j hj => ?_
  rw [Members.get?_ofList (Fields.nodup_encode hx hn)] at hj
  rw [Members.get?_ofList (Fields.nodup_encode hy hn)]
  -- What is found under a key was written under it.
  have hk : k ∈ Members.keys (r.fields.encode x) := by
    by_contra hnot
    rw [Members.get?_eq_none_iff.2 hnot] at hj
    cases hj
  exact h.of_shows (Fields.shows_encode hx hn) (Fields.shows_encode hy hn)
    (Fields.mem_keys_encode hx hk) hj

/-- What is written of a faithful record grows with its fields. -/
theorem IsFaithful.grows_encode (hr : r.IsFaithful) {x y : σ} (h : r.fields.Grows x y) :
    (r.codec.encode x).Grows (r.codec.encode y) :=
  Record.grows_encode hr.nodup (hr.fields.readsBack x) (hr.fields.readsBack y) h

end Record

end LanguageServer
