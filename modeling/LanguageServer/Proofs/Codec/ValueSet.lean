import LanguageServer.Proofs.Codec.Members

/-!
# What a record holds of its document

`Fields.Reads` says that every field of a record holds what was read from its member, and
`Fields.Holds` that a field whose member is missing holds what stands for it.  A record whose fields
return what was put into them (`Record.IsProjective`) is read so from an object and from an array.

A `ValueSet` is a place in a document where a reader finds values of which it may know only some.
`Codec.Keeps` says that the record has there the values that the reader knows, in the order of the
document and as often as they stand there.
-/

namespace LanguageServer

open Json (Source)

namespace Fields

variable {σ τ : Type}

/-- Each field of a record holds what is read from its member, if there is one. -/
def Reads (member? : String → Option Json) (x : σ) : {τ : Type} → Fields σ τ → Prop
  | _, .done => True
  | _, .own key get f rest =>
    (∀ j, member? key = some j → f.decode (.ofJson .value j) = .ok (get x)) ∧
      rest.Reads member? x
  | _, .part _ _ rest => rest.Reads member? x

/-- Each field of a record holds what is read from its member, or what stands for it where the
member is missing. -/
def Holds (member? : String → Option Json) (x : σ) : {τ : Type} → Fields σ τ → Prop
  | _, .done => True
  | _, .own key get f rest =>
    ((∀ j, member? key = some j → f.decode (.ofJson .value j) = .ok (get x)) ∧
      (member? key = none → f.absent = some (get x) ∨ f.short = some (get x))) ∧
      rest.Holds member? x
  | _, .part _ _ rest => rest.Holds member? x

/-- Fields that hold what stands in a document read it. -/
theorem Holds.reads {member? : String → Option Json} {x : σ} {fs : Fields σ τ}
    (h : fs.Holds member? x) : fs.Reads member? x := by
  induction fs with
  | done => trivial
  | own key get f rest ih => exact ⟨h.1.1, ih h.2⟩
  | part get q rest ih => exact ih h

/-- It matters only what stands under the keys of the fields. -/
theorem Holds.congr {member? member?' : String → Option Json} {x : σ} {fs : Fields σ τ}
    (h : fs.Holds member? x) (heq : ∀ key ∈ fs.keys, member?' key = member? key) :
    fs.Holds member?' x := by
  induction fs with
  | done => trivial
  | own key get f rest ih =>
    obtain ⟨hkey, hrest⟩ := List.forall_mem_cons.1 heq
    refine ⟨?_, ih h.2 hrest⟩
    rw [hkey]
    exact h.1
  | part get q rest ih => exact ih h heq

/-- What a field is given by its member it holds. -/
theorem Gives.holds {fs : Fields σ τ} {members spare : Members Json} {x : σ}
    (h : fs.Gives .value members spare x) : fs.Holds (fun key => Members.get? key members) x := by
  induction fs with
  | done => trivial
  | own key get f rest ih =>
    have hkey := h.1
    refine ⟨⟨fun j hj => ?_, fun hj => .inl ?_⟩, ih h.2⟩
    · rwa [show Members.get? key members = some j from hj] at hkey
    · rwa [show Members.get? key members = none from hj] at hkey
  | part get q rest ih => exact ih h.2

/-- In an array the fields stand in their order. -/
theorem Projects.holds_of_readItems {fs : Fields σ τ} {made : τ} {stands : σ → Prop}
    (h : fs.Projects made stands) (hn : fs.keys.Nodup) {items : List Json} {name : String}
    {total i : Nat} {x : σ}
    (hx : fs.readItems name .value none total made i (Source.ofItems .value items) = .ok x) :
    stands x ∧ fs.Holds (fun key => Members.get? key (fs.keys.zip items)) x := by
  induction fs generalizing stands items i with
  | done =>
    cases items with
    | nil =>
      cases hx
      exact ⟨h, trivial⟩
    | cons j items => cases hx
  | own key get f rest ih =>
    obtain ⟨hkey, hn⟩ := List.nodup_cons.1 hn
    cases items with
    | nil =>
      -- The array has ended: what stands for the field is held, and nothing is read.
      simp only [Source.ofItems, readItems] at hx
      cases hshort : f.short with
      | none => rw [hshort] at hx; cases hx
      | some a =>
        rw [hshort] at hx
        have hrest : rest.readItems name .value none total (made a) (i + 1)
            (Source.ofItems .value []) = .ok x := hx
        obtain ⟨⟨hstands, rfl⟩, hholds⟩ := ih (h a) hn hrest
        refine ⟨hstands, ⟨fun j hj => ?_, fun _ => .inr hshort⟩, hholds.congr fun k _ => ?_⟩
        · cases hj
        · rw [List.zip_nil_right, List.zip_nil_right]
    | cons j items =>
      simp only [Source.ofItems, readItems] at hx
      cases hd : f.decode (.ofJson .value j) with
      | error e => rw [hd] at hx; cases hx
      | ok a =>
        rw [hd] at hx
        obtain ⟨⟨hstands, rfl⟩, hrest⟩ := ih (h a) hn hx
        have hfirst : Members.get? key ((key, j) :: rest.keys.zip items) = some j := if_pos rfl
        refine ⟨hstands, ⟨fun j' hj => ?_, fun hj => ?_⟩, hrest.congr fun k hk => ?_⟩
        · rw [← Option.some.inj (hfirst.symm.trans hj), hd]
        · cases hfirst.symm.trans hj
        · -- No later field has the key of this one, so all find what is behind the first item.
          have hne : key ≠ k := fun he => hkey (he ▸ hk)
          show Members.get? k ((key, j) :: rest.keys.zip items) = _
          rw [Members.get?, if_neg hne]
  | part get q rest ih => cases hx

end Fields

/-! ## Members of a record -/

namespace Record

variable {σ : Type} {r : Record σ}

/-- A member of a document that stands for a record, as an object or as an array of the fields. -/
def member? (r : Record σ) (key : String) : Json → Option Json
  | .object members => Members.get? key members
  | .array items => Members.get? key (r.fields.keys.zip items)
  | _ => none

/-- What stands in a well-formed document is well-formed. -/
theorem wellFormed_of_member? {key : String} {j v : Json} (hj : j.WellFormed)
    (hv : r.member? key j = some v) : v.WellFormed := by
  cases hj with
  | object _ _ hw => exact hw _ (Members.mem_of_get? hv)
  | array _ hw => exact hw _ (List.of_mem_zip (Members.mem_of_get? hv)).2
  | _ => cases hv

/-- A record holds what is read from its members, and what stands for those that are missing. -/
theorem IsProjective.holds (h : r.IsProjective) {j : Json} (hj : j.WellFormed) {x : σ}
    (hx : r.codec.ofJson j = .ok x) : r.fields.Holds (r.member? · j) x := by
  cases hj with
  | object _ hm _ =>
    have hread := (ofJson_object_eq_ok_iff h.hasParts hm).1 hx
    -- No members are left for parts, as there are none.
    rw [show ([] : Entries) = Source.ofMembers .aside [] from rfl] at hread
    exact (h.projects.gives_of_read hread).2.holds
  | array _ _ =>
    exact (h.projects.holds_of_readItems h.nodup ((ofJson_array_eq_ok_iff h.hasParts).1 hx)).2
  | _ => cases hx

/-- Each field of a record that is read holds what is read of its member. -/
theorem IsProjective.reads (h : r.IsProjective) {j : Json} (hj : j.WellFormed) {x : σ}
    (hx : r.codec.ofJson j = .ok x) : r.fields.Reads (r.member? · j) x :=
  (h.holds hj hx).reads

end Record

/-! ## Sets of values -/

/-- A place in the document of a record where a set of values stands, the codec of the values, and
what the record has of them. -/
structure ValueSet (σ : Type) : Type 1 where
  {Value : Type}
  codec : Codec Value
  find? : Json → Option Json
  get : σ → Option (List Value)
  find?_null : find? .null = none

namespace ValueSet

variable {σ τ : Type}

/-- A set that is a member of the record. -/
def own {α : Type} (r : Record σ) (key : String) (c : Codec α) (get : σ → Option (List α)) :
    ValueSet σ :=
  ⟨c, r.member? key, get, rfl⟩

/-- A set inside a member of the record. -/
def under (r : Record τ) (key : String) (get : τ → Option σ) (s : ValueSet σ) : ValueSet τ :=
  ⟨s.codec, fun j => (r.member? key j).bind s.find?, fun x => (get x).bind s.get, rfl⟩

end ValueSet

/-- The values that a codec knows are read from these sets, in the order of the document and as
often as they stand there. -/
def Codec.Keeps {σ : Type} (c : Codec σ) (sets : List (ValueSet σ)) : Prop :=
  ∀ s ∈ sets, ∀ ⦃j : Json⦄, j.WellFormed → ∀ ⦃x : σ⦄, c.ofJson j = .ok x →
    ∀ ⦃items : List Json⦄, s.find? j = some (.array items) →
      s.get x = some (Field.decodable s.codec items)

/-- Two lists of value sets can be kept together. -/
theorem Codec.Keeps.append {σ : Type} {c : Codec σ} {sets sets' : List (ValueSet σ)}
    (h : c.Keeps sets) (h' : c.Keeps sets') : c.Keeps (sets ++ sets') :=
  List.forall_mem_append.2 ⟨h, h'⟩

namespace Field

variable {α : Type} {c : Codec α} {items : List Json}

/-- Of a list that is there, those items are kept that can be read. -/
theorem eq_some_of_known {as : Option (List α)} (hi : (Json.array items).WellFormed)
    (h : (known c).decode (.ofJson .value (.array items)) = .ok as) :
    as = some (decodable c items) := by
  simp only [known, Tolerates.decode_items hi, bind, Except.bind] at h
  cases h
  rfl

/-- Of a list that must be there, those items are kept that can be read. -/
theorem eq_of_knownSet {as : List α} (hi : (Json.array items).WellFormed)
    (h : (knownSet c).decode (.ofJson .value (.array items)) = .ok as) :
    as = decodable c items := by
  simp only [knownSet, Tolerates.decode_items hi, bind, Except.bind] at h
  cases h
  rfl

/-- A member that may be missing is read as itself where it is not null. -/
theorem exists_of_trailing {o : Option α} {j : Json} (hj : j ≠ .null)
    (h : (trailing c).decode (.ofJson .value j) = .ok o) :
    ∃ a, o = some a ∧ c.ofJson j = .ok a := by
  simp only [trailing, Codec.option_decode_ofJson c hj] at h
  cases hd : c.decode (.ofJson .value j) with
  | error e => rw [hd] at h; cases h
  | ok a =>
    rw [hd] at h
    cases h
    exact ⟨a, rfl, hd⟩

end Field

namespace Record

variable {σ τ : Type} {r : Record τ}

/-- A set that is a member keeps the values that its field keeps. -/
theorem IsProjective.keeps_own {α : Type} (hr : r.IsProjective) {key : String} {c : Codec α}
    {get : τ → Option (List α)}
    (h : ∀ {member? x}, r.fields.Reads member? x → ∀ items, member? key = some (.array items) →
      (Json.array items).WellFormed → get x = some (Field.decodable c items)) :
    r.codec.Keeps [.own r key c get] := by
  intro s hs j hj x hx items hitems
  obtain rfl := List.mem_singleton.1 hs
  exact h (hr.reads hj hx) items hitems (wellFormed_of_member? hj hitems)

/-- A set inside a member keeps the values that the codec of the member keeps. -/
theorem IsProjective.keeps_under (hr : r.IsProjective) {c : Codec σ} {sets : List (ValueSet σ)}
    (hc : c.Keeps sets) {key : String} {get : τ → Option σ}
    (h : ∀ {member? x}, r.fields.Reads member? x → ∀ j, member? key = some j → j ≠ .null →
      ∃ y, get x = some y ∧ c.ofJson j = .ok y) :
    r.codec.Keeps (sets.map (.under r key get)) := by
  intro s hs j hj x hx items hitems
  obtain ⟨t, ht, rfl⟩ := List.mem_map.1 hs
  obtain ⟨v, hv, hitems⟩ := Option.bind_eq_some_iff.1 hitems
  -- There is a set in the member, so it is not null.
  have hne : v ≠ .null := by
    rintro rfl
    rw [t.find?_null] at hitems
    cases hitems
  obtain ⟨y, hget, hy⟩ := h (hr.reads hj hx) v hv hne
  show (get x).bind t.get = _
  rw [hget]
  exact hc t ht (wellFormed_of_member? hj hv) hy hitems

end Record

end LanguageServer
