import LanguageServer.Proofs.Codec.RoundTrip

/-!
# Records are read back from their members

A record is read back field by field when its keys differ: `Fields.Shows` says that an object holds
the members of a record, and `Record.decodeEntries_eq` that reading such an object, whatever else it
holds, reads back every field.

`Record.IsFaithful` puts together what a description of a record has to fulfil so that its codec
reads back every record, alone and as a part of another one.
-/

namespace LanguageServer

open Json (Source Place)

/-- Written as a member and read again, `a` becomes `b`. -/
inductive Field.ReadsBack {α : Type} (f : Field α) (a b : α) : Prop where
  | written {j : Json} (encode_eq : f.encode a = some j) (wellFormed : j.WellFormed)
      (decode_eq : ∀ p : Place, f.decode (.ofJson p j) = .ok b)
  | omitted (encode_eq : f.encode a = none) (absent_eq : f.absent = some b)

/-- Every value is read back from its member. -/
def Field.IsFaithful {α : Type} (f : Field α) : Prop := ∀ a, f.ReadsBack a a

/-- Written among other members and read again, `a` becomes `b`. -/
structure Part.ReadsBack {α : Type} (q : Part α) (a b : α) : Prop where
  nodup : (Members.keys (q.encode a)).Nodup
  mem_keys : ∀ k ∈ Members.keys (q.encode a), k ∈ q.keys.getD []
  wellFormed : ∀ m ∈ q.encode a, m.2.WellFormed
  decode_eq : ∀ members : Members Json, members.Ascending →
    (∀ k ∈ q.keys.getD [], members.get? k = Members.get? k (q.encode a)) →
    q.decode (Source.ofMembers .aside members) = .ok b

/-- Every value is read back from its members. -/
def Part.IsFaithful {α : Type} (q : Part α) : Prop := ∀ a, q.ReadsBack a a

/-! ## Fields -/

namespace Field

variable {α : Type} {c : Codec α}

/-- A field that is always written is read back with its value. -/
theorem ReadsBack.required {a b : α} (h : c.ReadsBack a b) : (required c).ReadsBack a b :=
  .written rfl h.wellFormed h.decode_eq

/-- A field that may be missing is read back with its value when it is there, since the value is not
null. -/
theorem ReadsBack.some {a b : α} (h : c.ReadsBack a b) (hn : c.encode a ≠ .null) :
    (optional c).ReadsBack (some a) (some b) :=
  .written rfl h.wellFormed (h.some hn).decode_eq

/-- Only the array form tells a trailing member from an optional one. -/
theorem ReadsBack.trailing {a b : Option α} (h : (Field.optional c).ReadsBack a b) :
    (Field.trailing c).ReadsBack a b := by
  cases h with
  | written he hw hd => exact .written he hw hd
  | omitted he ha => exact .omitted he ha

/-- A document comes back from its member, but null says no more than that it is missing. -/
theorem ReadsBack.json {o : Option Json} (h : ∀ j ∈ o, j.WellFormed) :
    (Field.optional Codec.json).ReadsBack o (o.filter fun j => !j.isNull) := by
  cases o with
  | none => exact .omitted rfl rfl
  | some j =>
    have hj := Codec.ReadsBack.json (h j rfl)
    cases j with
    | null => exact .written rfl .null fun _ => rfl
    | bool _ | number _ | string _ | array _ | object _ => exact .some hj nofun

namespace IsFaithful

/-- A field with a default is always written, so that the default does not show. -/
theorem orElse (h : c.IsFaithful) (default : α) : (Field.orElse c default).IsFaithful := fun a =>
  .written rfl (h.readsBack a).wellFormed (h.readsBack a).decode_eq

/-- A field that is always written is faithful when its codec is. -/
theorem required (h : c.IsFaithful) : (Field.required c).IsFaithful := fun a =>
  .required (h.readsBack a)

/-- A field that is left out when there is nothing is faithful when its codec is. -/
theorem optional (h : c.IsFaithful) : (Field.optional c).IsFaithful
  | .none => .omitted rfl rfl
  | .some a => .some (h.readsBack a) (h.ne_null a)

/-- A field that is left out, or null, when there is nothing is faithful when its codec is. -/
theorem trailing (h : c.IsFaithful) : (Field.trailing c).IsFaithful
  | .none => .omitted rfl rfl
  | .some a =>
    .written rfl (h.readsBack a).wellFormed ((h.readsBack a).some (h.ne_null a)).decode_eq

/-- A field that is null when there is nothing is faithful when its codec is. -/
theorem nullable (h : c.IsFaithful) : (Field.nullable c).IsFaithful
  | .none => .written rfl .null (Codec.ReadsBack.none c).decode_eq
  | .some a =>
    .written rfl (h.readsBack a).wellFormed ((h.readsBack a).some (h.ne_null a)).decode_eq

/-- So is one that may be left out as well. -/
theorem nullableTrailing (h : c.IsFaithful) : (Field.nullableTrailing c).IsFaithful := fun a => by
  -- Only the array form tells the two kinds of members apart.
  cases nullable h a with
  | written he hw hd => exact .written he hw hd
  | omitted he ha => exact .omitted he ha

end IsFaithful

end Field

/-! ## Descriptions of records -/

namespace Fields

variable {σ τ : Type}

/-- The keys of parts. -/
def partKeys : {τ : Type} → Fields σ τ → List String
  | _, .done => []
  | _, .own _ _ _ rest => rest.partKeys
  | _, .part _ q rest => q.keys.getD [] ++ rest.partKeys

/-- Make a record out of the fields of another one. -/
def build (x : σ) : {τ : Type} → Fields σ τ → τ → σ
  | _, .done, made => made
  | _, .own _ get _ rest, made => rest.build x (made (get x))
  | _, .part get _ rest, made => rest.build x (made (get x))

/-- Every field of `x` is read back as that of `y`. -/
def ReadsBack (x y : σ) : {τ : Type} → Fields σ τ → Prop
  | _, .done => True
  | _, .own _ get f rest => f.ReadsBack (get x) (get y) ∧ rest.ReadsBack x y
  | _, .part get q rest => q.ReadsBack (get x) (get y) ∧ rest.ReadsBack x y

/-- Every field is read back as it was. -/
def IsFaithful : {τ : Type} → Fields σ τ → Prop
  | _, .done => True
  | _, .own _ _ f rest => f.IsFaithful ∧ rest.IsFaithful
  | _, .part _ q rest => q.IsFaithful ∧ rest.IsFaithful

/-- Faithful fields read back every record. -/
theorem IsFaithful.readsBack {fs : Fields σ τ} (h : fs.IsFaithful) (x : σ) : fs.ReadsBack x x := by
  induction fs with
  | done => trivial
  | own key get f rest ih => exact ⟨h.1 (get x), ih h.2⟩
  | part get q rest ih => exact ⟨h.1 (get x), ih h.2⟩

/-- Two tables hold the members of a record: `look` its own ones, `spare` those of its parts. -/
def Shows (look spare : String → Option Json) (x : σ) : {τ : Type} → Fields σ τ → Prop
  | _, .done => True
  | _, .own key get f rest => look key = f.encode (get x) ∧ rest.Shows look spare x
  | _, .part get q rest =>
    (∀ k ∈ q.keys.getD [], spare k = Members.get? k (q.encode (get x))) ∧ rest.Shows look spare x

/-- Only the keys of the record count. -/
theorem Shows.congr {fs : Fields σ τ} {look spare look' spare' : String → Option Json} {x : σ}
    (h : fs.Shows look spare x) (hown : ∀ k ∈ fs.keys, look' k = look k)
    (hpart : ∀ k ∈ fs.partKeys, spare' k = spare k) : fs.Shows look' spare' x := by
  induction fs with
  | done => trivial
  | own key get f rest ih =>
    have ⟨hkey, hrest⟩ := List.forall_mem_cons.1 hown
    exact ⟨hkey.trans h.1, ih h.2 hrest hpart⟩
  | part get q rest ih =>
    have ⟨hq, hrest⟩ := List.forall_mem_append.1 hpart
    exact ⟨fun k hk => (hq k hk).trans (h.1 k hk), ih h.2 hown hrest⟩

/-- Keys that are distinct in all are distinct in a part and in the rest, and no key is in both. -/
theorem nodup_of_part {α : Type} {get : σ → α} {q : Part α} {rest : Fields σ τ}
    (h : ((part get q rest).keys ++ (part get q rest).partKeys).Nodup) :
    (q.keys.getD []).Nodup ∧ (rest.keys ++ rest.partKeys).Nodup ∧
      ∀ k ∈ q.keys.getD [], k ∉ rest.keys ++ rest.partKeys := by
  simp only [keys, partKeys] at h
  grind

/-- The members of a record are under its keys. -/
theorem mem_keys_encode {fs : Fields σ τ} {x y : σ} (h : fs.ReadsBack x y) {k : String}
    (hk : k ∈ Members.keys (fs.encode x)) : k ∈ fs.keys ++ fs.partKeys := by
  induction fs with
  | done => cases hk
  | own key get f rest ih =>
    -- A field that is left out adds no key.
    cases hf : f.encode (get x) with
    | none =>
      simp only [encode, hf] at hk
      exact List.mem_cons_of_mem _ (ih h.2 hk)
    | some j =>
      simp only [encode, hf, Members.keys, List.map_cons, List.mem_cons] at hk
      rcases hk with rfl | hk
      · exact List.mem_cons_self
      · exact List.mem_cons_of_mem _ (ih h.2 hk)
  | part get q rest ih =>
    simp only [encode, Members.keys, List.map_append, List.mem_append] at hk
    simp only [keys, partKeys, List.mem_append]
    rcases hk with hk | hk
    · exact .inr (.inl (h.1.mem_keys k hk))
    · have := List.mem_append.1 (ih h.2 hk)
      exact this.imp_right .inr

/-- A record has no members but under its keys. -/
theorem get?_encode_eq_none {fs : Fields σ τ} {x y : σ} (h : fs.ReadsBack x y) {k : String}
    (hk : k ∉ fs.keys ++ fs.partKeys) : Members.get? k (fs.encode x) = none :=
  Members.get?_eq_none_iff.2 fun hmem => hk (mem_keys_encode h hmem)

/-- The members of a record have keys of their own if its fields do. -/
theorem nodup_encode {fs : Fields σ τ} {x y : σ} (h : fs.ReadsBack x y)
    (hn : (fs.keys ++ fs.partKeys).Nodup) : (Members.keys (fs.encode x)).Nodup := by
  induction fs with
  | done => exact .nil
  | own key get f rest ih =>
    have ⟨hkey, hrest⟩ := List.nodup_cons.1 hn
    cases hf : f.encode (get x) with
    | none =>
      simp only [encode, hf]
      exact ih h.2 hrest
    | some j =>
      simp only [encode, hf, Members.keys, List.map_cons]
      exact List.nodup_cons.2 ⟨fun hk => hkey (mem_keys_encode h.2 hk), ih h.2 hrest⟩
  | part get q rest ih =>
    obtain ⟨hq, hrest, hdisjoint⟩ := nodup_of_part hn
    simp only [encode, Members.keys, List.map_append]
    refine List.nodup_append.2 ⟨h.1.nodup, ih h.2 hrest, fun a ha b hb hab => ?_⟩
    -- A key of both would be one of the part and one of the rest.
    exact hdisjoint a (h.1.mem_keys a ha) (hab ▸ mem_keys_encode h.2 hb)

/-- All that is written of fields that are read back can be written. -/
theorem wellFormed_encode {fs : Fields σ τ} {x y : σ} (h : fs.ReadsBack x y) :
    ∀ m ∈ fs.encode x, m.2.WellFormed := by
  induction fs with
  | done => nofun
  | own key get f rest ih =>
    rcases h with ⟨hf | hf, hrest⟩
    · rename_i hj _
      simp only [encode, hf]
      exact List.forall_mem_cons.2 ⟨hj, ih hrest⟩
    · simp only [encode, hf]
      exact ih hrest
  | part get q rest ih => exact List.forall_mem_append.2 ⟨h.1.wellFormed, ih h.2⟩

/-- A record shows its own members. -/
theorem shows_encode {fs : Fields σ τ} {x y : σ} (h : fs.ReadsBack x y)
    (hn : (fs.keys ++ fs.partKeys).Nodup) :
    fs.Shows (fun k => Members.get? k (fs.encode x)) (fun k => Members.get? k (fs.encode x)) x := by
  induction fs with
  | done => trivial
  | own key get f rest ih =>
    have ⟨hkey, hrest⟩ := List.nodup_cons.1 hn
    -- The member of this field does not stand in the way of the others.
    have hne {k : String} (hk : k ∈ rest.keys ++ rest.partKeys) :
        Members.get? k ((own key get f rest).encode x) = Members.get? k (rest.encode x) := by
      have : key ≠ k := fun he => hkey (he ▸ hk)
      simp only [encode]
      split
      · simp only [Members.get?, if_neg this]
      · rfl
    refine ⟨?_, (ih h.2 hrest).congr (fun k hk => hne (List.mem_append_left _ hk))
      fun k hk => hne (List.mem_append_right _ hk)⟩
    cases hf : f.encode (get x) with
    | none =>
      simp only [encode, hf]
      exact Members.get?_eq_none_iff.2 fun hk => hkey (mem_keys_encode h.2 hk)
    | some j => simp only [encode, hf, Members.get?, if_pos]
  | part get q rest ih =>
    obtain ⟨hq, hrest, hdisjoint⟩ := nodup_of_part hn
    have hne {k : String} (hk : k ∈ rest.keys ++ rest.partKeys) :
        Members.get? k ((part get q rest).encode x) = Members.get? k (rest.encode x) := by
      have hq : Members.get? k (q.encode (get x)) = none :=
        Members.get?_eq_none_iff.2 fun hq => hdisjoint k (h.1.mem_keys k hq) hk
      rw [encode, Members.get?_append, hq, Option.none_or]
    refine ⟨fun k hk => ?_, (ih h.2 hrest).congr (fun k hk => hne (List.mem_append_left _ hk))
      fun k hk => hne (List.mem_append_right _ hk)⟩
    have hrest : Members.get? k (rest.encode x) = none :=
      Members.get?_eq_none_iff.2 fun hr => hdisjoint k hk (mem_keys_encode h.2 hr)
    show Members.get? k (q.encode (get x) ++ rest.encode x) = _
    rw [Members.get?_append, hrest, Option.or_none]

/-- Without parts there are no keys of parts. -/
theorem partKeys_eq_nil {fs : Fields σ τ} (h : fs.hasParts = false) : fs.partKeys = [] := by
  induction fs with
  | done => rfl
  | own key get f rest ih => exact ih h
  | part get q rest ih => cases h

end Fields

/-! ## Reading members -/

namespace Entries

/-- What is found in the source of members is the source of what is found in them. -/
theorem find?_ofMembers (p : Place) (key : String) (members : Members Json) (i : Nat) :
    (find? key (Source.ofMembers p members) i).map (·.2) =
      (members.get? key).map (Source.ofJson p) := by
  induction members generalizing i with
  | nil => rfl
  | cons m rest ih =>
    obtain ⟨k, j⟩ := m
    simp only [Source.ofMembers, find?, Members.get?]
    split
    · rfl
    · exact ih (i + 1)

/-- Members of different keys have no fault, whether they are read or passed over. -/
theorem check_ofMembers (p : Place) (known : List String) (reads : Bool) {members : Members Json}
    {seen : List String} (hn : (Members.keys members).Nodup)
    (hs : ∀ k ∈ Members.keys members, k ∉ seen) (i : Nat) :
    check known reads (Source.ofMembers p members) seen i = .ok () := by
  induction members generalizing seen i with
  | nil => rfl
  | cons m rest ih =>
    obtain ⟨k, j⟩ := m
    have ⟨hk, hrest⟩ := List.nodup_cons.1 hn
    have ⟨hseen, hsrest⟩ := List.forall_mem_cons.1 hs
    have hskip := ih hrest hsrest (i + 1)
    -- The key is new, and it does not come again behind.
    have htake : check known reads (Source.ofMembers p rest) (k :: seen) (i + 1) = .ok () := by
      refine ih hrest (fun l hl => ?_) (i + 1)
      rw [List.mem_cons, not_or]
      exact ⟨fun he => hk (he ▸ hl), hsrest l hl⟩
    simp only [Source.ofMembers, check, Source.setAside_ofJson, Json.KeyPlace.none]
    grind

/-- What is spare in the source of members are the members whose keys are not known. -/
theorem spare_ofMembers (p : Place) (known : List String) (members : Members Json) :
    spare known (Source.ofMembers p members) =
      Source.ofMembers .aside (members.filter fun m => !known.contains m.1) := by
  rw [spare, Source.filter_ofMembers p (fun k => !known.contains k),
    Source.setAsideMembers_ofMembers]

end Entries

/-! ## What members give -/

/-- What a field is read as: from its member, or what stands for it where there is none. -/
def Field.Gives {α : Type} (f : Field α) (p : Place) : Option Json → α → Prop
  | some j, a => f.decode (.ofJson p j) = .ok a
  | none, a => f.absent = some a

/-- A field that is read back is given by what was written, wherever it stands. -/
theorem Field.ReadsBack.gives {α : Type} {f : Field α} {a b : α} (h : f.ReadsBack a b) (p : Place) :
    f.Gives p (f.encode a) b := by
  cases h with
  | written he _ hd =>
    rw [he]
    exact hd p
  | omitted he ha =>
    rw [he]
    exact ha

/-- Those of the members that are left which a part reads. -/
def Part.mine {α : Type} (q : Part α) (spare : Members Json) : Members Json :=
  match q.keys with
  | some keys => spare.filter fun m => keys.contains m.1
  | none => spare

/-- A part that is read back is read from what the other fields leave, if that shows what the part
has written. -/
theorem Part.ReadsBack.decode_mine {α : Type} {q : Part α} {a b : α} (h : q.ReadsBack a b)
    {spare : Members Json} (hs : spare.Ascending)
    (hk : ∀ k ∈ q.keys.getD [], spare.get? k = Members.get? k (q.encode a)) :
    q.decode (Source.ofMembers .aside (q.mine spare)) = .ok b := by
  unfold Part.mine
  cases hkeys : q.keys with
  | none => exact h.decode_eq spare hs hk
  | some keys =>
    refine h.decode_eq _ (hs.filter _) fun k hkq => ?_
    rw [Members.get?_filter (by simpa [hkeys] using hkq), hk k hkq]

namespace Fields

variable {σ τ : Type}

/-- Each field of a record is what its member gives, each part what the members that are left
give. -/
def Gives (p : Place) (members spare : Members Json) (x : σ) : {τ : Type} → Fields σ τ → Prop
  | _, .done => True
  | _, .own key get f rest =>
    f.Gives p (Members.get? key members) (get x) ∧ rest.Gives p members spare x
  | _, .part get q rest =>
    q.decode (Source.ofMembers .aside (q.mine spare)) = .ok (get x) ∧ rest.Gives p members spare x

/-- A field is read from its member, or is what stands for it. -/
theorem readOwn_iff {α : Type} {p : Place} {members : Members Json} {rank : Nat} {key : String}
    {f : Field α} {a : α} :
    readOwn (Source.ofMembers p members) rank key f = .ok a ↔
      f.Gives p (Members.get? key members) a := by
  -- The entry found and the member got are the same, with its place or without.
  have hfind := Entries.find?_ofMembers p key members 0
  unfold readOwn Field.Gives
  cases hget : Members.get? key members with
  | none =>
    rw [hget, Option.map_none, Option.map_eq_none_iff] at hfind
    rw [hfind]
    cases f.absent <;> simp
  | some j =>
    rw [hget, Option.map_some] at hfind
    obtain ⟨⟨i, s⟩, hs, rfl⟩ := Option.map_eq_some_iff.1 hfind
    rw [hs]
    cases hd : f.decode (.ofJson p j) <;> simp [hd]

/-- A part is read from its own members, or from all that are left when it does not name any. -/
theorem readPart_iff {α : Type} {spare : Members Json} {rank : Nat} {q : Part α} {a : α} :
    readPart (Source.ofMembers .aside spare) rank q = .ok a ↔
      q.decode (Source.ofMembers .aside (q.mine spare)) = .ok a := by
  unfold readPart Part.mine
  cases q.keys with
  | none =>
    dsimp only
    cases q.decode (Source.ofMembers .aside spare) <;> simp
  | some keys =>
    dsimp only
    rw [Source.filter_ofMembers .aside keys.contains]
    cases q.decode (Source.ofMembers .aside (spare.filter fun m => keys.contains m.1)) <;> simp

/-- Members that show a record give what its fields are read back as. -/
theorem ReadsBack.gives {fs : Fields σ τ} {x y : σ} (h : fs.ReadsBack x y) (p : Place)
    {members spare : Members Json} (hs : spare.Ascending)
    (hshow : fs.Shows (fun k => members.get? k) (fun k => spare.get? k) x) :
    fs.Gives p members spare y := by
  induction fs with
  | done => trivial
  | own key get f rest ih =>
    refine ⟨?_, ih h.2 hshow.2⟩
    rw [show members.get? key = f.encode (get x) from hshow.1]
    exact h.1.gives p
  | part get q rest ih => exact ⟨h.1.decode_mine hs hshow.1, ih h.2 hshow.2⟩

/-- Members that give the fields of a record are read as it. -/
theorem Gives.read {fs : Fields σ τ} {p : Place} {members spare : Members Json} {x : σ}
    (h : fs.Gives p members spare x) (total rank : Nat) (made : τ) :
    fs.read (Source.ofMembers p members) (Source.ofMembers .aside spare) total rank (.ok made) =
      .ok (fs.build x made) := by
  induction fs generalizing rank with
  | done => rfl
  | own key get f rest ih =>
    rw [Fields.read, readOwn_iff.2 h.1]
    exact ih h.2 (rank + 1) (made (get x))
  | part get q rest ih =>
    -- A part reads of the spare members those that are its own.
    rw [Fields.read, readPart_iff.2 h.1]
    exact ih h.2 (rank + 1) (made (get x))

/-- Where there are no parts, it does not matter which members are left. -/
theorem Gives.of_not_hasParts {fs : Fields σ τ} (hp : fs.hasParts = false) {p : Place}
    {members spare spare' : Members Json} {x : σ} (h : fs.Gives p members spare x) :
    fs.Gives p members spare' x := by
  induction fs with
  | done => trivial
  | own key get f rest ih => exact ⟨h.1, ih hp h.2⟩
  | part get q rest => cases hp

end Fields

namespace Record

variable {σ : Type} {r : Record σ}

/-- The members that are left for the parts of a record. -/
def left (r : Record σ) (members : Members Json) : Members Json :=
  members.filter fun m => !r.fields.keys.contains m.1

/-- What is left shows what stands under the keys that are not declared. -/
theorem get?_left {k : String} (hk : k ∉ r.fields.keys) (members : Members Json) :
    (r.left members).get? k = members.get? k :=
  Members.get?_filter (p := fun k => !r.fields.keys.contains k) (by simpa using hk) members

/-- An object that gives the fields of a record is read as it. -/
theorem decodeEntries_of_gives {x : σ} (hb : r.fields.build x r.make = x)
    {members : Members Json} (hm : members.Ascending) {p : Place}
    (h : r.fields.Gives p members (r.left members) x) :
    r.decodeEntries (Source.ofMembers p members) none = .ok x := by
  have hcheck : Entries.check r.fields.keys r.fields.hasParts (Source.ofMembers p members) [] 0 =
      .ok () :=
    Entries.check_ofMembers p _ _ hm.nodup_keys (fun _ _ => List.not_mem_nil) 0
  simp only [decodeEntries, hcheck, Ranked.ap, Entries.spare_ofMembers]
  cases hparts : r.fields.hasParts with
  | true =>
    have hread := h.read r.fields.count ((Source.ofMembers p members).length + 1) r.make
    unfold left at hread
    simp only [if_true, hread, hb]
  | false =>
    -- Nothing is kept for parts, as there are none.
    have hnone : r.fields.Gives p members [] x := h.of_not_hasParts hparts
    have hread := hnone.read r.fields.count ((Source.ofMembers p members).length + 1) r.make
    simp only [Source.ofMembers] at hread
    simp only [Bool.false_eq_true, if_false, hread, hb]

/-- An object that holds the members of a record, whatever else it holds, is read as the record. -/
theorem decodeEntries_eq {x y : σ} (h : r.fields.ReadsBack x y) (hb : r.fields.build y r.make = y)
    {members : Members Json} (hm : members.Ascending)
    (hshow : r.fields.Shows (fun k => members.get? k) (fun k => (r.left members).get? k) x)
    (p : Place) : r.decodeEntries (Source.ofMembers p members) none = .ok y :=
  decodeEntries_of_gives hb hm (h.gives p (hm.filter _) hshow)

/-- An object that has under every key of a record what the record has there is read as it. -/
theorem decodeEntries_of_get? {x y : σ} (hn : (r.fields.keys ++ r.fields.partKeys).Nodup)
    (hb : r.fields.build y r.make = y) (h : r.fields.ReadsBack x y) {members : Members Json}
    (hm : members.Ascending) (hget : ∀ k ∈ r.fields.keys ++ r.fields.partKeys,
      members.get? k = Members.get? k (r.fields.encode x)) (p : Place) :
    r.decodeEntries (Source.ofMembers p members) none = .ok y := by
  have hdisjoint := (List.nodup_append.1 hn).2.2
  refine decodeEntries_eq h hb hm ((Fields.shows_encode h hn).congr
    (fun k hk => hget k (List.mem_append_left _ hk)) fun k hk => ?_) p
  -- What is left for the parts are the members that no field has read.
  rw [get?_left fun hown => hdisjoint k hown k hk rfl, hget k (List.mem_append_right _ hk)]

/-- Pairs that hold the members of a record among others are read as it. -/
theorem decode_ofPairs {x y : σ} (hn : (r.fields.keys ++ r.fields.partKeys).Nodup)
    (hb : r.fields.build y r.make = y) (h : r.fields.ReadsBack x y) {pairs : Members Json}
    (hp : pairs.keys.Nodup) (hget : ∀ k ∈ r.fields.keys ++ r.fields.partKeys,
      pairs.get? k = Members.get? k (r.fields.encode x)) (p : Place) :
    r.codec.decode (.ofJson p (.ofPairs pairs)) = .ok y := by
  have hd := decodeEntries_of_get? hn hb h (Members.ascending_ofList pairs)
    (fun k hk => (Members.get?_ofList hp k).trans (hget k hk)) p
  show (r.decodeEntries (Source.ofMembers p (Members.ofList pairs)) none).mapError _ = _
  rw [hd]
  rfl

/-- A record is read from its members between that of a tag and others. -/
theorem decode_between {x y : σ} (hn : (r.fields.keys ++ r.fields.partKeys).Nodup)
    (hb : r.fields.build y r.make = y) (h : r.fields.ReadsBack x y) {tag : String} {j : Json}
    {extra : Members Json} (hp : (Members.keys ((tag, j) :: r.fields.encode x ++ extra)).Nodup)
    (htag : tag ∉ r.fields.keys ++ r.fields.partKeys)
    (hextra : ∀ k ∈ extra.keys, k ∉ r.fields.keys ++ r.fields.partKeys) (p : Place) :
    r.codec.decode (.ofJson p (.ofPairs ((tag, j) :: r.fields.encode x ++ extra))) = .ok y := by
  refine decode_ofPairs hn hb h hp (fun k hk => ?_) p
  have hne : tag ≠ k := fun he => htag (he ▸ hk)
  have hnone : extra.get? k = none := Members.get?_eq_none_iff.2 fun hmem => hextra k hmem hk
  rw [List.cons_append, Members.get?, if_neg hne, Members.get?_append, hnone, Option.or_none]

/-- A record whose keys differ is read back from its object. -/
theorem readsBack {x y : σ} (hn : (r.fields.keys ++ r.fields.partKeys).Nodup)
    (hb : r.fields.build y r.make = y) (h : r.fields.ReadsBack x y) : r.codec.ReadsBack x y where
  wellFormed := .object _ (Members.ascending_ofList _) fun m hm =>
    Fields.wellFormed_encode h m (Members.mem_of_mem_ofList hm)
  decode_eq := decode_ofPairs hn hb h (Fields.nodup_encode h hn) fun _ _ => rfl

/-- The object of a record shows its members. -/
theorem shows_encode {x y : σ} (hn : (r.fields.keys ++ r.fields.partKeys).Nodup)
    (h : r.fields.ReadsBack x y) :
    r.fields.Shows (fun k => (r.codec.encode x).member? k) (fun k => (r.codec.encode x).member? k)
      x :=
  (Fields.shows_encode h hn).congr (fun k _ => Members.get?_ofList (Fields.nodup_encode h hn) k)
    fun k _ => Members.get?_ofList (Fields.nodup_encode h hn) k

/-- The object of a record has no members but under its keys. -/
theorem member?_eq_none {x y : σ} (h : r.fields.ReadsBack x y) (k : String)
    (hk : k ∉ r.fields.keys ++ r.fields.partKeys) : (r.codec.encode x).member? k = none := by
  refine Members.get?_eq_none_iff.2 fun hmem => hk (Fields.mem_keys_encode h ?_)
  obtain ⟨m, hm, rfl⟩ := List.mem_map.1 hmem
  exact List.mem_map.2 ⟨m, Members.mem_of_mem_ofList hm, rfl⟩

/-- The fields of a record have different keys, they make up the record, and each of them is read
back. -/
structure IsFaithful (r : Record σ) : Prop where
  nodup : (r.fields.keys ++ r.fields.partKeys).Nodup
  build_make : ∀ x, r.fields.build x r.make = x
  fields : r.fields.IsFaithful

namespace IsFaithful

/-- A faithful record is read back, and it is written as an object. -/
theorem codec (h : r.IsFaithful) : r.codec.IsFaithful where
  readsBack x := r.readsBack h.nodup (h.build_make x) (h.fields.readsBack x)
  ne_null _ := nofun

/-- A member is found in the object of a record as among the members that make it up. -/
theorem get?_encode (h : r.IsFaithful) (x : σ) (k : String) :
    Members.get? k (Members.ofList (r.fields.encode x)) = Members.get? k (r.fields.encode x) :=
  Members.get?_ofList (Fields.nodup_encode (h.fields.readsBack x) h.nodup) k

/-- The object of a record has no members but under its keys. -/
theorem member?_eq_none (h : r.IsFaithful) (x : σ) (k : String)
    (hk : k ∉ r.fields.keys ++ r.fields.partKeys) : (r.codec.encode x).member? k = none :=
  Record.member?_eq_none (h.fields.readsBack x) k hk

/-- The object of a record shows its members. -/
theorem shows (h : r.IsFaithful) (x : σ) :
    r.fields.Shows (fun k => (r.codec.encode x).member? k) (fun k => (r.codec.encode x).member? k)
      x :=
  shows_encode h.nodup (h.fields.readsBack x)

/-- A record without parts can be a part. -/
theorem part (h : r.IsFaithful) (hparts : r.fields.hasParts = false) : r.part.IsFaithful
  | x => {
    nodup := Fields.nodup_encode (h.fields.readsBack x) h.nodup
    mem_keys := fun k hk => by
      have := Fields.mem_keys_encode (h.fields.readsBack x) hk
      rwa [Fields.partKeys_eq_nil hparts, List.append_nil] at this
    wellFormed := Fields.wellFormed_encode (h.fields.readsBack x)
    decode_eq := fun members hm hk => by
      refine decodeEntries_eq (h.fields.readsBack x) (h.build_make x) hm ?_ .aside
      exact (Fields.shows_encode (h.fields.readsBack x) h.nodup).congr hk
        (by simp [Fields.partKeys_eq_nil hparts]) }

end IsFaithful

end Record

end LanguageServer
