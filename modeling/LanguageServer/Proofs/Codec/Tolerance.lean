import LanguageServer.Proofs.Codec.Record

/-!
# Readers that pass over what they do not know

A `Layout` says where a reader finds records, lists and sets of known values in a document.
`Layout.Extends` compares two documents of a layout: the second one may have more members than the
first wherever there is a record, and more values in every set of known values.

`Codec.Tolerates` says of a reader that it reads the same from both.  `Record.tolerates` brings that
from the fields of a record to the record.
-/

namespace LanguageServer

open Json (Source)

/-! ## Documents with more in them -/

/-- Values are put in between others, all of one kind. -/
inductive Inserts {α : Type} (p : α → Prop) : List α → List α → Prop where
  | nil : Inserts p [] []
  | keep (a : α) {as bs : List α} (rest : Inserts p as bs) : Inserts p (a :: as) (a :: bs)
  | insert {b : α} (new : p b) {as bs : List α} (rest : Inserts p as bs) : Inserts p as (b :: bs)

/-- Nothing need be put in. -/
theorem Inserts.refl {α : Type} (p : α → Prop) : ∀ as : List α, Inserts p as as
  | [] => .nil
  | a :: as => .keep a (refl p as)

/-- Items can be put in at two times. -/
theorem Inserts.trans {α : Type} {p : α → Prop} {as bs cs : List α} (h : Inserts p as bs)
    (h' : Inserts p bs cs) : Inserts p as cs := by
  induction h' generalizing as with
  | nil => exact h
  | keep b _ ih =>
    cases h with
    | keep _ h => exact .keep b (ih h)
    | insert new h => exact .insert new (ih h)
  | insert new _ ih => exact .insert new (ih h)

/-- Where a reader finds records and sets in a document. -/
inductive Layout where
  /-- Anything else. -/
  | leaf
  /-- A list of documents of one layout. -/
  | list (item : Layout)
  /-- A list where values of one kind do not count. -/
  | set (unknown : Json → Prop)
  /-- A record with these keys. -/
  | record (keys : List String) (inner : String → Layout)

namespace Layout

/-- A document is as another one of a layout, with more members of records and more values in
sets. -/
def Extends : Layout → Json → Json → Prop
  | .leaf => fun j j' => j' = j
  | .list item => fun j j' => j' = j ∨
    ∃ items items', j = .array items ∧ j' = .array items' ∧
      List.Forall₂ item.Extends items items'
  | .set unknown => fun j j' => j' = j ∨
    ∃ items items', j = .array items ∧ j' = .array items' ∧ Inserts unknown items items'
  | .record keys inner => fun j j' => j' = j ∨
    (∃ members members', j = .object members ∧ j' = .object members' ∧
      (∀ key ∈ keys,
        Option.Rel (inner key).Extends (Members.get? key members) (Members.get? key members')) ∧
      ∀ key ∉ keys, ∀ v, Members.get? key members = some v → Members.get? key members' = some v) ∨
    -- A record may stand as an array of its fields.
    ∃ items items', j = .array items ∧ j' = .array items' ∧ items'.length = items.length ∧
      List.Forall₂ (fun m v' => (inner m.1).Extends m.2 v') (keys.zip items) items'

/-- A document extends itself. -/
@[refl] theorem Extends.refl (l : Layout) (j : Json) : l.Extends j j := by
  cases l with
  | leaf => exact rfl
  | list item | set unknown | record keys inner => exact .inl rfl

/-- Items that are related one by one can be compared with those of a third list. -/
theorem forall₂_trans {R : Json → Json → Prop}
    (hR : ∀ {j j' j''}, R j j' → R j' j'' → R j j'') {items items' items'' : List Json}
    (h : List.Forall₂ R items items') (h' : List.Forall₂ R items' items'') :
    List.Forall₂ R items items'' := by
  induction h generalizing items'' with
  | nil => exact h'
  | cons hj _ ih =>
    obtain ⟨j'', items'', hj', hrest, rfl⟩ := List.forall₂_cons_left_iff.1 h'
    exact .cons (hR hj hj') (ih hrest)

/-- What holds of pairs that stand under the same keys is transitive if it is so under each key. -/
theorem forall₂_zip_trans {R : String → Json → Json → Prop}
    (hR : ∀ {key j j' j''}, R key j j' → R key j' j'' → R key j j'') {keys : List String}
    {items items' items'' : List Json}
    (h : List.Forall₂ (fun m v' => R m.1 m.2 v') (keys.zip items) items')
    (h' : List.Forall₂ (fun m v' => R m.1 m.2 v') (keys.zip items') items'') :
    List.Forall₂ (fun m v' => R m.1 m.2 v') (keys.zip items) items'' := by
  induction keys generalizing items items' items'' with
  | nil =>
    rw [List.zip_nil_left] at h' ⊢
    exact h'
  | cons key keys ih =>
    cases items with
    | nil =>
      rw [List.zip_nil_right, List.forall₂_nil_left_iff] at h
      subst h
      exact h'
    | cons j items =>
      rw [List.zip_cons_cons, List.forall₂_cons_left_iff] at h
      -- Each key relates the first items of all three lists.
      obtain ⟨j', items', hj, h, rfl⟩ := h
      rw [List.zip_cons_cons, List.forall₂_cons_left_iff] at h'
      obtain ⟨j'', items'', hj', h', rfl⟩ := h'
      exact .cons (hR hj hj') (ih h h')

/-- What has more in it than a document that has more in it has more in it. -/
theorem Extends.trans {l : Layout} {j j' j'' : Json} (h : l.Extends j j') (h' : l.Extends j' j'') :
    l.Extends j j'' := by
  induction l generalizing j j' j'' with
  | leaf => exact Eq.trans h' h
  | list item ih =>
    obtain rfl | ⟨items, items', rfl, rfl, h⟩ := h
    · exact h'
    · obtain rfl | ⟨_, items'', he, rfl, h'⟩ := h'
      · exact .inr ⟨_, _, rfl, rfl, h⟩
      · cases he
        exact .inr ⟨_, _, rfl, rfl, forall₂_trans (R := item.Extends) (fun h h' => ih h h') h h'⟩
  | set unknown =>
    obtain rfl | ⟨items, items', rfl, rfl, h⟩ := h
    · exact h'
    · obtain rfl | ⟨_, items'', he, rfl, h'⟩ := h'
      · exact .inr ⟨_, _, rfl, rfl, h⟩
      · cases he
        exact .inr ⟨_, _, rfl, rfl, h.trans h'⟩
  | record keys inner ih =>
    obtain rfl | ⟨members, members', rfl, rfl, h, hrest⟩ |
      ⟨items, items', rfl, rfl, hlength, h⟩ := h
    · exact h'
    · obtain rfl | ⟨_, members'', he, rfl, h', hrest'⟩ | ⟨_, _, he, -⟩ := h'
      · exact .inr (.inl ⟨_, _, rfl, rfl, h, hrest⟩)
      · cases he
        refine .inr (.inl ⟨_, _, rfl, rfl, fun key hkey => ?_, fun key hkey v hv =>
          hrest' key hkey v (hrest key hkey v hv)⟩)
        -- The member is there in all three objects or in none.
        have hk := h key hkey
        have hk' := h' key hkey
        revert hk hk'
        generalize Members.get? key members = o
        generalize Members.get? key members' = o'
        generalize Members.get? key members'' = o''
        rintro (hj | _) (hj' | _)
        · exact .some (ih key hj hj')
        · exact .none
      · cases he
    · obtain rfl | ⟨_, _, he, -⟩ | ⟨_, items'', he, rfl, hlength', h'⟩ := h'
      · exact .inr (.inr ⟨_, _, rfl, rfl, hlength, h⟩)
      · cases he
      · cases he
        exact .inr (.inr ⟨_, _, rfl, rfl, hlength'.trans hlength,
          forall₂_zip_trans (R := fun key => (inner key).Extends) (fun h => ih _ h) h h'⟩)

/-- A member under a further key makes a record say more. -/
theorem extends_insert_of_not_mem {keys : List String} {inner : String → Layout} (key : String)
    (hkey : key ∉ keys) {members : Members Json} (hnew : Members.get? key members = none)
    (v : Json) :
    (record keys inner).Extends (.object members) (.object (Members.insert key v members)) := by
  have hget {k : String} (hk : k ≠ key) :
      Members.get? k (Members.insert key v members) = Members.get? k members := by
    rw [Members.get?_insert, if_neg (Ne.symm hk)]
  refine .inr (.inl ⟨_, _, rfl, rfl, fun k hk => ?_, fun k _ w hw => ?_⟩)
  · -- A declared key is another one, so that the same stands under it.
    have hne : k ≠ key := fun he => hkey (he ▸ hk)
    rw [hget hne]
    cases Members.get? k members with
    | none => exact .none
    | some w => exact .some (.refl _ w)
  · -- Under the new key there was nothing, so that nothing old is lost.
    have hne : k ≠ key := by
      rintro rfl
      rw [hnew] at hw
      cases hw
    rw [hget hne, hw]

/-- A member that has more in it makes a record say more. -/
theorem extends_insert_of_extends {keys : List String} {inner : String → Layout} (key : String)
    (hkey : key ∈ keys) {members : Members Json} {v v' : Json}
    (hv : Members.get? key members = some v) (h : (inner key).Extends v v') :
    (record keys inner).Extends (.object members) (.object (Members.insert key v' members)) := by
  refine .inr (.inl ⟨_, _, rfl, rfl, fun k hk => ?_, fun k hk w hw => ?_⟩)
  · rw [Members.get?_insert]
    split
    · rename_i he
      rw [← he, hv]
      exact .some h
    · cases Members.get? k members with
      | none => exact .none
      | some w => exact .some (.refl _ w)
  · -- A key that is not declared is another one.
    have hne : key ≠ k := fun he => hk (he ▸ hkey)
    rw [Members.get?_insert, if_neg hne, hw]

/-- What is added makes nothing null, and what is null stays so. -/
theorem Extends.eq_null_iff {l : Layout} {j j' : Json} (h : l.Extends j j') :
    j = .null ↔ j' = .null := by
  cases l with
  -- A leaf stays as it is; lists, sets and records are never null.
  | leaf => rw [show j' = j from h]
  | list item =>
    obtain rfl | ⟨_, _, rfl, rfl, -⟩ := h
    · rfl
    · simp
  | set unknown =>
    obtain rfl | ⟨_, _, rfl, rfl, -⟩ := h
    · rfl
    · simp
  | record keys inner =>
    obtain rfl | ⟨_, _, rfl, rfl, -⟩ | ⟨_, _, rfl, rfl, -⟩ := h
    · rfl
    · simp
    · simp

end Layout

/-! ## Readers -/

/-- A codec that reads from a document with more in it what it reads from the document. -/
def Codec.Tolerates {α : Type} (c : Codec α) (l : Layout) : Prop :=
  ∀ ⦃j j' : Json⦄, j.WellFormed → j'.WellFormed → l.Extends j j' →
    ∀ ⦃a : α⦄, c.ofJson j = .ok a → c.ofJson j' = .ok a

/-- A field that reads from a document with more in it what it reads from the document. -/
def Field.Tolerates {α : Type} (f : Field α) (l : Layout) : Prop :=
  ∀ ⦃j j' : Json⦄, j.WellFormed → j'.WellFormed → l.Extends j j' →
    ∀ ⦃a : α⦄, f.decode (.ofJson .value j) = .ok a → f.decode (.ofJson .value j') = .ok a

/-- All fields of a record do so, and there are no parts. -/
def Fields.Tolerates {σ : Type} (inner : String → Layout) : {τ : Type} → Fields σ τ → Prop
  | _, .done => True
  | _, .own key _ f rest => f.Tolerates (inner key) ∧ rest.Tolerates inner
  | _, .part _ _ _ => False

/-- A list is read item by item. -/
theorem Codec.decode_list {α : Type} (c : Codec α) (p : Json.Place) (items : List Json) :
    c.list.decode (.ofJson p (.array items)) = c.decodeItems (Source.ofItems p items) := by
  simp only [Codec.list, Source.ofJson, bind, Except.bind]
  cases c.decodeItems (Source.ofItems p items) <;> rfl

/-- A list is read when each of its items is. -/
theorem Codec.decodeItems_cons_eq_ok_iff {α : Type} {c : Codec α} {p : Json.Place} {j : Json}
    {items : List Json} {as : List α} :
    c.decodeItems (Source.ofItems p (j :: items)) = .ok as ↔
      ∃ b bs, c.decode (.ofJson p j) = .ok b ∧ c.decodeItems (Source.ofItems p items) = .ok bs ∧
        as = b :: bs := by
  simp only [Source.ofItems, Codec.decodeItems, bind, Except.bind]
  cases c.decode (.ofJson p j) with
  | error e => simp
  | ok b => cases c.decodeItems (Source.ofItems p items) <;> simp [eq_comm]

namespace Codec.Tolerates

variable {α : Type} {c : Codec α} {l : Layout}

/-- Of a document that is the same, the same is read. -/
theorem leaf (c : Codec α) : c.Tolerates .leaf := by
  intro j j' _ _ h a ha
  rwa [show j' = j from h]

/-- A value that may be null tolerates what the value does: no extension makes null of anything, nor
anything of null. -/
theorem option (h : c.Tolerates l) : c.option.Tolerates l := by
  intro j j' hj hj' hext a ha
  by_cases hnull : j = .null
  · -- Nothing can be put into null.
    rwa [hext.eq_null_iff.1 hnull, ← hnull]
  · have hnull' : j' ≠ .null := fun he => hnull (hext.eq_null_iff.2 he)
    simp only [ofJson, Codec.option_decode_ofJson c hnull,
      Codec.option_decode_ofJson c hnull'] at ha ⊢
    cases hd : c.decode (.ofJson .value j) with
    | error e => rw [hd] at ha; cases ha
    | ok b =>
      rw [hd] at ha
      have hd' : c.decode (.ofJson .value j') = .ok b := h hj hj' hext hd
      rw [hd']
      exact ha

/-- Items are read one by one. -/
theorem decodeItems_ofItems (h : c.Tolerates l) {items items' : List Json}
    (hext : List.Forall₂ l.Extends items items') (hi : ∀ j ∈ items, j.WellFormed)
    (hi' : ∀ j ∈ items', j.WellFormed) {as : List α}
    (ha : c.decodeItems (Source.ofItems .value items) = .ok as) :
    c.decodeItems (Source.ofItems .value items') = .ok as := by
  induction hext generalizing as with
  | nil => exact ha
  | @cons j j' items items' hj _ ih =>
    obtain ⟨hw, hi⟩ := List.forall_mem_cons.1 hi
    obtain ⟨hw', hi'⟩ := List.forall_mem_cons.1 hi'
    -- The first item is read as before, and so are those behind it.
    obtain ⟨b, bs, hb, hbs, rfl⟩ := Codec.decodeItems_cons_eq_ok_iff.1 ha
    exact Codec.decodeItems_cons_eq_ok_iff.2 ⟨b, bs, h hw hw' hj hb, ih hi hi' hbs, rfl⟩

/-- A list tolerates what its items do. -/
theorem list (h : c.Tolerates l) : c.list.Tolerates (.list l) := by
  intro j j' hj hj' hext a ha
  obtain rfl | ⟨items, items', rfl, rfl, hext⟩ := hext
  · exact ha
  · cases hj with
    | array _ hi =>
      cases hj' with
      | array _ hi' =>
        rw [ofJson, decode_list] at ha ⊢
        exact h.decodeItems_ofItems hext hi hi' ha

end Codec.Tolerates

/-! ## Sets -/

/-- Values that are put in do not matter to a reader that drops them. -/
theorem Inserts.filterMap_eq {α β : Type} {p : α → Prop} {as bs : List α} (h : Inserts p as bs)
    {f : α → Option β} (hf : ∀ a, p a → f a = none) : bs.filterMap f = as.filterMap f := by
  induction h with
  | nil => rfl
  | keep a _ ih => simp only [List.filterMap_cons, ih]
  | insert new _ ih => rw [List.filterMap_cons, hf _ new, ih]

/-- A set of the values that a codec reads. -/
def Layout.known {α : Type} (c : Codec α) : Layout := .set fun j => ∀ a, c.ofJson j ≠ .ok a

namespace Field.Tolerates

variable {α : Type} {c : Codec α} {l : Layout}

/-- A field reads the same of the same document. -/
theorem leaf (f : Field α) : f.Tolerates .leaf := by
  intro j j' _ _ h a ha
  rwa [show j' = j from h]

/-- A field that is always there tolerates what its value does. -/
theorem required (h : c.Tolerates l) : (Field.required c).Tolerates l := h

/-- A field that may be missing or null tolerates what its value does. -/
theorem trailing (h : c.Tolerates l) : (Field.trailing c).Tolerates l := h.option

/-- A field with a default tolerates what its value does. -/
theorem orElse (h : c.Tolerates l) (default : α) : (Field.orElse c default).Tolerates l := h

/-- Items that cannot be read make no difference to those that can. -/
theorem decodable_eq {items items' : List Json}
    (h : Inserts (fun j => ∀ a, c.ofJson j ≠ .ok a) items items') :
    decodable c items' = decodable c items := by
  refine h.filterMap_eq fun j hj => ?_
  cases hd : c.ofJson j with
  | error e => rfl
  | ok a => exact absurd hd (hj a)

/-- The items of a set are read as they are. -/
theorem decode_items {items : List Json} (hj : (Json.array items).WellFormed) :
    Codec.json.list.option.decode (.ofJson .value (.array items)) = .ok (some items) := by
  cases hj with
  | array _ hi =>
    have hne : Json.array items ≠ .null := nofun
    rw [Codec.option_decode_ofJson _ hne, Codec.decode_items hi]
    rfl

/-- A list of which only the known items are read tolerates unknown ones. -/
theorem known (c : Codec α) : (Field.known c).Tolerates (.known c) := by
  intro j j' hj hj' hext a ha
  obtain rfl | ⟨items, items', rfl, rfl, hext⟩ := hext
  · exact ha
  · simp only [Field.known, decode_items hj, decode_items hj', bind, Except.bind] at ha ⊢
    rw [Option.map_some] at ha ⊢
    rwa [decodable_eq hext]

/-- So does one that must be there. -/
theorem knownSet (c : Codec α) : (Field.knownSet c).Tolerates (.known c) := by
  intro j j' hj hj' hext a ha
  obtain rfl | ⟨items, items', rfl, rfl, hext⟩ := hext
  · exact ha
  · simp only [Field.knownSet, decode_items hj, decode_items hj', bind, Except.bind] at ha ⊢
    rw [Option.getD_some] at ha ⊢
    rwa [decodable_eq hext]

end Field.Tolerates

/-! ## Records -/

namespace Fields

variable {σ τ : Type} {inner : String → Layout}

/-- Tolerant fields have no parts: a part would see the members that are put in. -/
theorem Tolerates.hasParts_eq_false {fs : Fields σ τ} (h : fs.Tolerates inner) :
    fs.hasParts = false := by
  induction fs with
  | done => rfl
  | own key get f rest ih => exact ih h.2
  | part get q rest => exact h.elim

/-- Fields that hold neither records nor sets are read from what they were. -/
theorem tolerates_leaf {fs : Fields σ τ} (h : fs.hasParts = false) :
    fs.Tolerates fun _ => .leaf := by
  induction fs with
  | done => trivial
  | own key get f rest ih => exact ⟨.leaf f, ih h⟩
  | part get q rest => cases h

/-- A failure stays. -/
theorem read_error {fs : Fields σ τ} {entries spare : Entries} {total rank : Nat}
    {e : Nat × DecodeError} {x : σ} : fs.read entries spare total rank (.error e) ≠ .ok x := by
  induction fs generalizing rank e with
  | done => nofun
  | own key get f rest ih =>
    unfold read
    cases readOwn entries rank key f <;> exact ih
  | part get q rest ih =>
    unfold read
    cases readPart spare (rank + total) q <;> exact ih

/-- Fields are read one by one. -/
theorem Tolerates.read {fs : Fields σ τ} (h : fs.Tolerates inner) {members members' : Members Json}
    (hw : ∀ m ∈ members, m.2.WellFormed) (hw' : ∀ m ∈ members', m.2.WellFormed)
    (hext : ∀ key ∈ fs.keys,
      Option.Rel (inner key).Extends (Members.get? key members) (Members.get? key members'))
    {total rank rank' : Nat} {made : τ} {x : σ}
    (hx : fs.read (Source.ofMembers .value members) [] total rank (.ok made) = .ok x) :
    fs.read (Source.ofMembers .value members') [] total rank' (.ok made) = .ok x := by
  induction fs generalizing rank rank' with
  | done => exact hx
  | own key get f rest ih =>
    obtain ⟨hkey, hrest⟩ := List.forall_mem_cons.1 hext
    unfold Fields.read at hx ⊢
    cases hown : readOwn (Source.ofMembers .value members) rank key f with
    | error e =>
      rw [hown] at hx
      exact absurd hx read_error
    | ok a =>
      have hown' : readOwn (Source.ofMembers .value members') rank' key f = .ok a := by
        rw [readOwn_iff] at hown ⊢
        -- The member is there in both objects or in neither.
        generalize hv : Members.get? key members = o at hown hkey
        generalize hv' : Members.get? key members' = o' at hkey ⊢
        cases hkey with
        | none => exact hown
        | some hrel =>
          exact h.1 (hw _ (Members.mem_of_get? hv)) (hw' _ (Members.mem_of_get? hv')) hrel hown
      rw [hown] at hx
      rw [hown']
      exact ih h.2 hrest hx
  | part get q rest => exact h.elim

/-- Fields are read from the items of an array one by one. -/
theorem Tolerates.readItems {fs : Fields σ τ} (h : fs.Tolerates inner) {items items' : List Json}
    (hw : ∀ j ∈ items, j.WellFormed) (hw' : ∀ j ∈ items', j.WellFormed)
    (hlength : items'.length = items.length)
    (hext : List.Forall₂ (fun m v' => (inner m.1).Extends m.2 v') (fs.keys.zip items) items')
    {name : String} {total i : Nat} {made : τ} {x : σ}
    (hx : fs.readItems name .value none total made i (Source.ofItems .value items) = .ok x) :
    fs.readItems name .value none total made i (Source.ofItems .value items') = .ok x := by
  induction fs generalizing items items' i with
  | done =>
    -- Items behind the last field are an error, so there are none in either array.
    rw [keys, List.zip_nil_left, List.forall₂_nil_left_iff] at hext
    subst hext
    rwa [List.length_eq_zero_iff.1 hlength.symm] at hx
  | own key get f rest ih =>
    cases items with
    | nil =>
      -- Both arrays end before this field.
      obtain rfl : items' = [] := List.length_eq_zero_iff.1 hlength
      exact hx
    | cons j items =>
      rw [keys, List.zip_cons_cons, List.forall₂_cons_left_iff] at hext
      obtain ⟨j', items', hj, hext, rfl⟩ := hext
      obtain ⟨hjw, hw⟩ := List.forall_mem_cons.1 hw
      obtain ⟨hjw', hw'⟩ := List.forall_mem_cons.1 hw'
      simp only [Source.ofItems, Fields.readItems] at hx ⊢
      cases hd : f.decode (.ofJson .value j) with
      | error e => rw [hd] at hx; cases hx
      | ok a =>
        rw [hd] at hx
        rw [h.1 hjw hjw' hj hd]
        exact ih h.2 hw hw' (by simpa using hlength) hext hx
  | part get q rest => exact h.elim

end Fields

namespace Record

variable {σ : Type} {r : Record σ} {inner : String → Layout}

/-- Only the words of errors change, not what is read. -/
theorem mapError_eq_ok_iff {f : DecodeError → DecodeError} {d : Decoded σ} {x : σ} :
    d.mapError f = .ok x ↔ d = .ok x := by
  cases d <;> simp [Except.mapError]

/-- A record without parts is read from an object as its fields are. -/
theorem ofJson_object_eq_ok_iff (hp : r.fields.hasParts = false) {members : Members Json}
    (hm : members.Ascending) {x : σ} :
    r.codec.ofJson (.object members) = .ok x ↔
      r.fields.read (Source.ofMembers .value members) [] r.fields.count
        ((Source.ofMembers .value members).length + 1) (.ok r.make) = .ok x := by
  -- No key stands twice, and no member is broken.
  have hcheck : Entries.check r.fields.keys false (Source.ofMembers .value members) [] 0 = .ok () :=
    Entries.check_ofMembers .value _ _ hm.nodup_keys (fun _ _ => List.not_mem_nil) 0
  simp only [Codec.ofJson, codec, Source.ofJson, decode, mapError_eq_ok_iff, decodeEntries, hp,
    hcheck, Ranked.ap, Bool.false_eq_true, if_false]
  split <;> simp_all

/-- A record without parts is read from an array as its fields are. -/
theorem ofJson_array_eq_ok_iff (hp : r.fields.hasParts = false) {items : List Json} {x : σ} :
    r.codec.ofJson (.array items) = .ok x ↔
      r.fields.readItems r.name .value none r.fields.count r.make 0
        (Source.ofItems .value items) = .ok x := by
  simp only [Codec.ofJson, codec, Source.ofJson, decode, hp, Bool.false_eq_true, if_false,
    mapError_eq_ok_iff]

/-- The layout of a record with the layouts of some of its members. -/
def layout (r : Record σ) (inner : String → Layout) : Layout := .record r.fields.keys inner

/-- The layout of a record with no further record and no set in it. -/
def plain (r : Record σ) : Layout := r.layout fun _ => .leaf

/-- A record of fields that pass over what they do not know does so itself. -/
theorem tolerates (h : r.fields.Tolerates inner) : r.codec.Tolerates (r.layout inner) := by
  have hp := h.hasParts_eq_false
  intro j j' hj hj' hext x hx
  -- The document is the same, or both are objects, or both are arrays.
  obtain rfl | ⟨members, members', rfl, rfl, hext, -⟩ | ⟨items, items', rfl, rfl, hlength, hext⟩ :=
    hext
  · exact hx
  · cases hj with
    | object _ hm hw =>
      cases hj' with
      | object _ hm' hw' =>
        rw [ofJson_object_eq_ok_iff hp hm] at hx
        rw [ofJson_object_eq_ok_iff hp hm']
        exact h.read hw hw' hext hx
  · cases hj with
    | array _ hw =>
      cases hj' with
      | array _ hw' =>
        rw [ofJson_array_eq_ok_iff hp] at hx ⊢
        exact h.readItems hw hw' hlength hext hx

/-- A record without parts tolerates all members that it does not declare. -/
theorem tolerates_plain (h : r.fields.hasParts = false) : r.codec.Tolerates r.plain :=
  tolerates (Fields.tolerates_leaf h)

end Record

end LanguageServer
