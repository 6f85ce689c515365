import LanguageServer.Proofs.Codec.Members
import LanguageServer.Proofs.Narrow

/-!
# Members that no field reads

A record may end in a part that takes all members that are left (`Part.rest`).  Such a record is
written as an object exactly when its fields are written as the members under their keys, and its
parts as the members that are left: `Record.encode_eq_object_iff`.

Values of any kind hold members that are left (`LspAny.decode_rest`), and are written as the same
members as long as their integers are 32-bit words (`LspAny.encode_rest_values`).
`Record.KeepsRest` puts together what a record has to fulfil so that an object goes through it
unchanged (`Record.KeepsRest.decode_object`, `Record.KeepsRest.encode_object`), and so that a record
goes through its object (`Record.KeepsRest.readsBack`).
-/

namespace LanguageServer

open Json (Source Place)

namespace Members

variable {α : Type}

/-- A member is found under its key when the keys ascend, since no other one has it. -/
theorem get?_of_mem {members : Members α} (h : members.Ascending) {m : String × α}
    (hm : m ∈ members) : members.get? m.1 = some m.2 := by
  induction members with
  | nil => cases hm
  | cons first rest ih =>
    obtain ⟨k, v⟩ := first
    have ⟨hk, hrest⟩ := ascending_cons.1 h
    rcases List.mem_cons.1 hm with rfl | hm
    · exact if_pos rfl
    · -- The first key comes before all others, so the search goes on.
      have hlt : k < m.1 := hk m.1 (List.mem_map_of_mem hm)
      have hne : k ≠ m.1 := fun he => String.lt_irrefl k (he ▸ hlt)
      rw [get?, if_neg hne, ih hrest hm]

/-- Members are known by what is found under each key. -/
theorem eq_of_get?_eq {a b : Members α} (ha : a.Ascending) (hb : b.Ascending)
    (h : ∀ k, a.get? k = b.get? k) : a = b := by
  have hmem (m : String × α) : m ∈ a ↔ m ∈ b := by
    constructor
    · intro hm
      have hget := get?_of_mem ha hm
      rw [h] at hget
      exact mem_of_get? hget
    · intro hm
      have hget := get?_of_mem hb hm
      rw [← h] at hget
      exact mem_of_get? hget
  -- Both hold the same members, in the only order that ascends.
  have hperm : a.Perm b :=
    (List.perm_ext_iff_of_nodup ha.nodup_keys.of_map hb.nodup_keys.of_map).2 hmem
  refine hperm.eq_of_pairwise (fun m n _ _ hmn hnm => ?_) ha hb
  exact absurd (String.lt_trans hmn hnm) (String.lt_irrefl _)

end Members

/-! ## Fields of its own and parts -/

namespace Fields

variable {σ τ : Type} {fs : Fields σ τ} {x : σ} {look look' : String → Option Json}

/-- The members that the parts of a record are written as. -/
def encodeParts (x : σ) : {τ : Type} → Fields σ τ → Members Json
  | _, .done => []
  | _, .own _ _ _ rest => rest.encodeParts x
  | _, .part get q rest => q.encode (get x) ++ rest.encodeParts x

/-- A table holds the members that the fields of a record are written as, those of parts apart. -/
def ShowsOwn (look : String → Option Json) (x : σ) : {τ : Type} → Fields σ τ → Prop
  | _, .done => True
  | _, .own key get f rest => look key = f.encode (get x) ∧ rest.ShowsOwn look x
  | _, .part _ _ rest => rest.ShowsOwn look x

/-- It matters only what is shown under the keys of the fields. -/
theorem ShowsOwn.congr (h : fs.ShowsOwn look x) (heq : ∀ k ∈ fs.keys, look' k = look k) :
    fs.ShowsOwn look' x := by
  induction fs with
  | done => trivial
  | own key get f rest ih =>
    have ⟨hkey, hrest⟩ := List.forall_mem_cons.1 heq
    exact ⟨hkey.trans h.1, ih h.2 hrest⟩
  | part get q rest ih => exact ih h heq

/-- What a record shows is the same in every table. -/
theorem ShowsOwn.eq_of_mem (h : fs.ShowsOwn look x) (h' : fs.ShowsOwn look' x) {k : String}
    (hk : k ∈ fs.keys) : look k = look' k := by
  induction fs with
  | done => cases hk
  | own key get f rest ih =>
    rcases List.mem_cons.1 hk with rfl | hk
    · exact h.1.trans h'.1.symm
    · exact ih h.2 h'.2 hk
  | part get q rest ih => exact ih h h' hk

/-- The members of a record begin with that of its first field, if there is one. -/
theorem get?_encode_own {α τ : Type} (key : String) (get : σ → α) (f : Field α)
    (rest : Fields σ τ) (k : String) :
    Members.get? k ((own key get f rest).encode x) =
      if key = k ∧ (f.encode (get x)).isSome then f.encode (get x)
      else Members.get? k (rest.encode x) := by
  rw [encode]
  cases f.encode (get x) with
  | none => rw [if_neg (by simp)]
  | some j =>
    rw [Members.get?]
    by_cases hk : key = k <;> simp [hk]

/-- Under a key that no field declares stands what a part has written. -/
theorem get?_encode_of_not_mem {k : String} (hk : k ∉ fs.keys) :
    Members.get? k (fs.encode x) = Members.get? k (fs.encodeParts x) := by
  induction fs with
  | done => rfl
  | own key get f rest ih =>
    rw [keys, List.mem_cons, not_or] at hk
    rw [get?_encode_own, if_neg fun he => hk.1 he.1.symm, encodeParts, ih hk.2]
  | part get q rest ih => rw [encode, encodeParts, Members.get?_append, Members.get?_append, ih hk]

/-- The members of parts do not stand in the way of a record's own. -/
theorem showsOwn_encode (hn : fs.keys.Nodup)
    (hparts : ∀ k ∈ fs.keys, Members.get? k (fs.encodeParts x) = none) :
    fs.ShowsOwn (fun k => Members.get? k (fs.encode x)) x := by
  induction fs with
  | done => trivial
  | own key get f rest ih =>
    have ⟨hkey, hrest⟩ := List.nodup_cons.1 hn
    -- Its own key shows what the field writes, and the rest shows at the keys behind it.
    have ⟨hnone, hparts⟩ := List.forall_mem_cons.1 hparts
    refine ⟨?_, (ih hrest hparts).congr fun k hk => ?_⟩
    · show Members.get? key ((own key get f rest).encode x) = _
      rw [get?_encode_own]
      cases hf : f.encode (get x) with
      | none =>
        rw [if_neg (by simp), get?_encode_of_not_mem hkey]
        exact hnone
      | some j => rw [if_pos ⟨rfl, rfl⟩]
    · have hne : key ≠ k := fun he => hkey (he ▸ hk)
      exact (get?_encode_own key get f rest k).trans (if_neg fun h => hne h.1)
  | part get q rest ih =>
    have hnone (k : String) (hk : k ∈ rest.keys) :
        Members.get? k (q.encode (get x)) = none ∧
          Members.get? k (rest.encodeParts x) = none := by
      have h := hparts k hk
      rwa [encodeParts, Members.get?_append, Option.or_eq_none_iff] at h
    refine (ih hn fun k hk => (hnone k hk).2).congr fun k hk => ?_
    rw [encode, Members.get?_append, (hnone k hk).1, Option.none_or]

/-- The members of a record have keys of their own if those of its parts have. -/
theorem nodup_keys_encode (hn : fs.keys.Nodup)
    (hparts : ∀ k ∈ fs.keys, Members.get? k (fs.encodeParts x) = none)
    (hnodup : (Members.keys (fs.encodeParts x)).Nodup) :
    (Members.keys (fs.encode x)).Nodup := by
  induction fs with
  | done => exact .nil
  | own key get f rest ih =>
    have ⟨hkey, hrest⟩ := List.nodup_cons.1 hn
    have ⟨hnone, hparts⟩ := List.forall_mem_cons.1 hparts
    have hkeys := ih hrest hparts hnodup
    rw [encode]
    cases f.encode (get x) with
    | none => exact hkeys
    | some j =>
      refine List.nodup_cons.2 ⟨?_, hkeys⟩
      show key ∉ Members.keys (rest.encode x)
      rw [← Members.get?_eq_none_iff, get?_encode_of_not_mem hkey]
      exact hnone
  | part get q rest ih =>
    rw [encodeParts, Members.keys, List.map_append, List.nodup_append] at hnodup
    obtain ⟨hq, hrest, hdisjoint⟩ := hnodup
    have hnone (k : String) (hk : k ∈ rest.keys) :
        k ∉ Members.keys (q.encode (get x)) ∧ Members.get? k (rest.encodeParts x) = none := by
      have h := hparts k hk
      rwa [encodeParts, Members.get?_append, Option.or_eq_none_iff, Members.get?_eq_none_iff] at h
    rw [encode, Members.keys, List.map_append, List.nodup_append]
    refine ⟨hq, ih hn (fun k hk => (hnone k hk).2) hrest, fun k hk l hl hkl => ?_⟩
    subst hkl
    -- The part's key is no own key, so that another part would have it as well.
    have hown : k ∉ rest.keys := fun hown => (hnone k hown).1 hk
    refine hdisjoint k hk k (not_not.1 fun hparts => ?_) rfl
    have hget := (get?_encode_of_not_mem hown).trans (Members.get?_eq_none_iff.2 hparts)
    exact Members.get?_eq_none_iff.1 hget hl

end Fields

namespace Record

variable {σ : Type} {r : Record σ} {x : σ}

/-- Nothing is left under a key that is declared. -/
theorem get?_left_of_mem {k : String} (hk : k ∈ r.fields.keys) (members : Members Json) :
    (r.left members).get? k = none := by
  refine Members.get?_eq_none_iff.2 fun hmem => ?_
  obtain ⟨m, hm, rfl⟩ := List.mem_map.1 hmem
  have hleft := (List.mem_filter.1 hm).2
  simp [hk] at hleft

/-- A record is written as an object exactly when the members under its keys are those of its
fields, and the others those of its parts. -/
theorem encode_eq_object_iff (hn : r.fields.keys.Nodup) {members : Members Json}
    (hm : members.Ascending) (hparts : (r.fields.encodeParts x).Ascending)
    (hkeys : ∀ k ∈ r.fields.keys, Members.get? k (r.fields.encodeParts x) = none) :
    r.codec.encode x = .object members ↔
      r.fields.ShowsOwn (fun k => members.get? k) x ∧
        r.left members = r.fields.encodeParts x := by
  have hget (k : String) :
      (Members.ofList (r.fields.encode x)).get? k = Members.get? k (r.fields.encode x) :=
    Members.get?_ofList (Fields.nodup_keys_encode hn hkeys hparts.nodup_keys) k
  have hshows := Fields.showsOwn_encode hn hkeys
  constructor
  · intro h
    obtain rfl : Members.ofList (r.fields.encode x) = members := Json.object.inj h
    refine ⟨hshows.congr fun k _ => hget k, ?_⟩
    refine Members.eq_of_get?_eq (hm.filter _) hparts fun k => ?_
    -- What is left has none of the record's own keys, and under any other key what the parts have.
    by_cases hk : k ∈ r.fields.keys
    · rw [hkeys k hk]
      exact get?_left_of_mem hk _
    · rw [← Fields.get?_encode_of_not_mem hk, ← hget k]
      exact get?_left hk _
  · rintro ⟨hown, hleft⟩
    refine congrArg Json.object (Members.eq_of_get?_eq (Members.ascending_ofList _) hm fun k => ?_)
    rw [hget]
    by_cases hk : k ∈ r.fields.keys
    · exact hshows.eq_of_mem hown hk
    · rw [Fields.get?_encode_of_not_mem hk, ← hleft, get?_left hk]

end Record

/-! ## Values that are left -/

namespace LspAny

/-- The members of an object as values. -/
def values (members : Members Json) (h : members.Ascending) : Dictionary LspAny where
  members := ofMembers members
  ascending := by
    rw [ofMembers_eq_map]
    exact List.pairwise_map.2 h

/-- Values are read from their source one by one. -/
theorem decodeMembers_ofMembers {members : Members Json} (h : ∀ m ∈ members, m.2.WellFormed)
    (p : Place) :
    codec.decodeMembers (Source.ofMembers p members) = .ok (ofMembers members) := by
  induction members with
  | nil => rfl
  | cons m rest ih =>
    obtain ⟨k, j⟩ := m
    have ⟨hj, hrest⟩ := List.forall_mem_cons.1 h
    have hread : codec.decode (.ofJson p j) = .ok (ofJson j) := ofSource_ofJson hj p
    simp only [Source.ofMembers, Codec.decodeMembers, hread, ih hrest]
    rfl

/-- Members that are left are read as their values. -/
theorem decode_rest {members : Members Json} (hm : members.Ascending)
    (h : ∀ m ∈ members, m.2.WellFormed) :
    (Part.rest codec).decode (Source.ofMembers .aside members) = .ok (values members hm) := by
  simp only [Part.rest, decodeMembers_ofMembers h]
  exact congrArg Except.ok (Dictionary.ext (Members.ofList_eq_self (values members hm).ascending))

/-- Values whose integers are 32-bit words are written as the members that they were. -/
theorem encode_rest_values {members : Members Json} (hm : members.Ascending)
    (h : ∀ m ∈ members, m.2.WellFormed) (hn : ∀ m ∈ members, m.2.IsNarrow) :
    (Part.rest codec).encode (values members hm) = members := by
  simp only [Part.rest, values, ofMembers_eq_map, List.map_map]
  refine (List.map_congr_left fun m hmem => ?_).trans (List.map_id members)
  have hwrite : codec.encode (ofJson m.2) = m.2 :=
    (write_eq_toJson (isAscending_ofJson (h m hmem))).trans
      (toJson_ofJson_of_isNarrow (h m hmem) (hn m hmem))
  exact congrArg (m.1, ·) hwrite

/-- What is written of a value can be written again, and its numbers are narrow. -/
theorem plain_encode {v : LspAny} (h : v.WellFormed) :
    (codec.encode v).WellFormed ∧ (codec.encode v).IsNarrow := by
  rw [show codec.encode v = v.toJson from write_eq_toJson h.isAscending]
  exact ⟨wellFormed_toJson h, isNarrow_toJson h.isAscending⟩

/-- Values come back as equal ones under the keys that they had. -/
theorem beq_values {d : Dictionary LspAny} (h : ∀ m ∈ d.members, m.2.WellFormed)
    (hm : Members.Ascending ((Part.rest codec).encode d)) :
    (values ((Part.rest codec).encode d) hm == d) = true := by
  show (ofMembers (d.members.map fun m => (m.1, codec.encode m.2)) == d.members) = true
  generalize d.members = members at h
  induction members with
  | nil => rfl
  | cons m rest ih =>
    have ⟨hv, hrest⟩ := List.forall_mem_cons.1 h
    have hwrite : codec.encode m.2 = m.2.toJson := write_eq_toJson hv.isAscending
    -- The key stays, and the value comes back as an equal one.
    rw [List.map_cons, ofMembers, List.cons_beq_cons, ih hrest, hwrite, Bool.and_true]
    show (m.1 == m.1 && ofJson m.2.toJson == m.2) = true
    rw [beq_self_eq_true, beq_ofJson_toJson hv, Bool.and_self]

end LspAny

/-! ## Records that keep what is left -/

namespace Fields

variable {σ τ : Type} {fs : Fields σ τ} {x : σ}

/-- The fields of a record are read back as they were; its parts may be anything. -/
def OwnIsFaithful : {τ : Type} → Fields σ τ → Prop
  | _, .done => True
  | _, .own _ _ f rest => f.IsFaithful ∧ rest.OwnIsFaithful
  | _, .part _ _ rest => rest.OwnIsFaithful

/-- The parts of a record are what the members that are left give. -/
def PartsGive (spare : Members Json) (x : σ) : {τ : Type} → Fields σ τ → Prop
  | _, .done => True
  | _, .own _ _ _ rest => rest.PartsGive spare x
  | _, .part get q rest =>
    q.decode (Source.ofMembers .aside (q.mine spare)) = .ok (get x) ∧ rest.PartsGive spare x

/-- Faithful fields are given by members that show them, beside parts that are given by what is
spare. -/
theorem OwnIsFaithful.gives (h : fs.OwnIsFaithful) (p : Place) {members spare : Members Json}
    (hown : fs.ShowsOwn (fun k => members.get? k) x) (hparts : fs.PartsGive spare x) :
    fs.Gives p members spare x := by
  induction fs with
  | done => trivial
  | own key get f rest ih =>
    refine ⟨?_, ih h.2 hown.2 hparts⟩
    rw [show members.get? key = f.encode (get x) from hown.1]
    exact (h.1 (get x)).gives p
  | part get q rest ih => exact ⟨hparts.1, ih h hown hparts.2⟩

/-- What faithful fields write can be written, if what the parts write can. -/
theorem OwnIsFaithful.wellFormed_encode (h : fs.OwnIsFaithful)
    (hparts : ∀ m ∈ fs.encodeParts x, m.2.WellFormed) : ∀ m ∈ fs.encode x, m.2.WellFormed := by
  induction fs with
  | done => exact fun m hm => absurd hm List.not_mem_nil
  | own key get f rest ih =>
    cases h.1 (get x) with
    | written he hw hd =>
      simp only [encode, he]
      exact List.forall_mem_cons.2 ⟨hw, ih h.2 hparts⟩
    | omitted he ha =>
      simp only [encode, he]
      exact ih h.2 hparts
  | part get q rest ih =>
    obtain ⟨hq, hrest⟩ := List.forall_mem_append.1 hparts
    exact List.forall_mem_append.2 ⟨hq, ih h hrest⟩

end Fields

namespace Record

variable {σ : Type} {r : Record σ}

/-- The members that are left as values. -/
def valuesLeft (r : Record σ) (members : Members Json) (hm : members.Ascending) :
    Dictionary LspAny :=
  LspAny.values (r.left members) (hm.filter _)

/-- The fields of a record are read back as they were, and `properties` takes all members that are
left; `put` replaces them. -/
structure KeepsRest (r : Record σ) (properties : σ → Dictionary LspAny)
    (put : σ → Dictionary LspAny → σ) : Prop where
  nodup : r.fields.keys.Nodup
  build_make : ∀ x, r.fields.build x r.make = x
  own : r.fields.OwnIsFaithful
  encodeParts_eq : ∀ x, r.fields.encodeParts x = (Part.rest LspAny.codec).encode (properties x)
  partsGive : ∀ x spare,
    (Part.rest LspAny.codec).decode (Source.ofMembers .aside spare) = .ok (properties x) →
      r.fields.PartsGive spare x
  showsOwn_put : ∀ look x d, r.fields.ShowsOwn look x → r.fields.ShowsOwn look (put x d)
  properties_put : ∀ x d, properties (put x d) = d

/-- Properties beside the fields of a record: their decimals are finite, and none of them has the
key of a field. -/
structure Beside (r : Record σ) (d : Dictionary LspAny) : Prop where
  values : ∀ m ∈ d.members, m.2.WellFormed
  keys : ∀ k ∈ d.keys, k ∉ r.fields.keys

namespace KeepsRest

variable {properties : σ → Dictionary LspAny} {put : σ → Dictionary LspAny → σ} {x : σ}
  {members : Members Json}

/-- An object that shows the fields of a record is read as the record with the members that are
left. -/
theorem decode_object (h : r.KeepsRest properties put) (hm : members.Ascending)
    (hw : ∀ m ∈ members, m.2.WellFormed) (hx : r.fields.ShowsOwn (fun k => members.get? k) x)
    (p : Place) :
    r.codec.decode (.ofJson p (.object members)) = .ok (put x (r.valuesLeft members hm)) := by
  have hleft : ∀ m ∈ r.left members, m.2.WellFormed := fun m hmem =>
    hw m (List.mem_of_mem_filter hmem)
  have hrest := h.partsGive (put x (r.valuesLeft members hm)) (r.left members) (by
    rw [h.properties_put]
    exact LspAny.decode_rest (hm.filter _) hleft)
  -- The fields do not depend on the properties, so that they may be put in first.
  have hd := decodeEntries_of_gives (h.build_make _) hm
    (h.own.gives p (h.showsOwn_put _ x _ hx) hrest)
  show (r.decodeEntries (Source.ofMembers p members) none).mapError _ = _
  rw [hd]
  rfl

/-- Such a record is written as the object that it is read from. -/
theorem encode_object (h : r.KeepsRest properties put) (hm : members.Ascending)
    (hw : ∀ m ∈ members, m.2.WellFormed) (hn : ∀ m ∈ r.left members, m.2.IsNarrow)
    (hx : r.fields.ShowsOwn (fun k => members.get? k) x) :
    r.codec.encode (put x (r.valuesLeft members hm)) = .object members := by
  -- What was not declared is written as it was read.
  have hparts : r.fields.encodeParts (put x (r.valuesLeft members hm)) = r.left members := by
    rw [h.encodeParts_eq, h.properties_put]
    exact LspAny.encode_rest_values _ (fun m hmem => hw m (List.mem_of_mem_filter hmem)) hn
  refine (encode_eq_object_iff h.nodup hm ?_ fun k hk => ?_).2
    ⟨h.showsOwn_put _ x _ hx, hparts.symm⟩
  · rw [hparts]
    exact hm.filter _
  · rw [hparts]
    exact get?_left_of_mem hk members

/-- The properties are written in the order of their keys. -/
theorem ascending_encodeParts (h : r.KeepsRest properties put) :
    (r.fields.encodeParts x).Ascending := by
  rw [h.encodeParts_eq]
  exact List.pairwise_map.2 (properties x).ascending

/-- What is written of properties beside the record can be written, with narrow numbers. -/
theorem plain_encodeParts (h : r.KeepsRest properties put) (hp : r.Beside (properties x)) :
    ∀ m ∈ r.fields.encodeParts x, m.2.WellFormed ∧ m.2.IsNarrow := by
  rw [h.encodeParts_eq]
  exact List.forall_mem_map.2 fun m hm => LspAny.plain_encode (hp.values m hm)

/-- Properties beside the record have none of its keys. -/
theorem get?_encodeParts (h : r.KeepsRest properties put) (hp : r.Beside (properties x))
    {k : String} (hk : k ∈ r.fields.keys) : Members.get? k (r.fields.encodeParts x) = none := by
  rw [Members.get?_eq_none_iff, h.encodeParts_eq, Part.rest, Members.keys, List.map_map]
  exact fun hmem => hp.keys k hmem hk

/-- A record is read back with equal properties, and written again as the same object. -/
theorem readsBack (h : r.KeepsRest properties put) (hp : r.Beside (properties x)) :
    ∃ d, r.codec.ReadsBack x (put x d) ∧ (d == properties x) = true ∧
      r.codec.encode (put x d) = r.codec.encode x := by
  have hplain := h.plain_encodeParts hp
  have hm := Members.ascending_ofList (r.fields.encode x)
  have hmembers : ∀ m ∈ Members.ofList (r.fields.encode x), m.2.WellFormed := fun m hmem =>
    h.own.wellFormed_encode (fun m hm => (hplain m hm).1) m (Members.mem_of_mem_ofList hmem)
  -- The object of the record shows its fields and leaves its properties.
  obtain ⟨hown, hleft⟩ := (encode_eq_object_iff h.nodup hm h.ascending_encodeParts
    fun k => h.get?_encodeParts hp).1 rfl
  have hnarrow : ∀ m ∈ r.left (Members.ofList (r.fields.encode x)), m.2.IsNarrow := by
    rw [hleft]
    exact fun m hm => (hplain m hm).2
  refine ⟨r.valuesLeft _ hm, ⟨.object _ hm hmembers, h.decode_object hm hmembers hown⟩, ?_,
    h.encode_object hm hmembers hnarrow hown⟩
  have hrest := hleft.trans (h.encodeParts_eq x)
  simp only [valuesLeft, hrest]
  exact LspAny.beq_values hp.values _

end KeepsRest

end Record

end LanguageServer
