import LanguageServer.Proofs.Codec.Tolerance

/-!
# Which objects are read as a record

An object that gives the fields of a record is read as it (`Record.decodeEntries_of_gives`).  When
the fields return what the record was made of, these are all the objects that are read as the
record: `Record.IsProjective.ofJson_object_iff`.

`Record.Keeps` says that a record is read back from its object, whatever members under further keys
are put in; `Record.keeps` brings that from the fields to the record.
-/

namespace LanguageServer

open Json (Source Place)

namespace Fields

variable {σ τ : Type}

/-- The arguments of `made` come back from the record through the projections of their fields;
`stands` holds of the record already. -/
def Projects : {τ : Type} → Fields σ τ → τ → (σ → Prop) → Prop
  | _, .done, made, stands => stands made
  | _, .own _ get _ rest, made, stands => ∀ a, rest.Projects (made a) fun x => stands x ∧ get x = a
  | _, .part get _ rest, made, stands => ∀ a, rest.Projects (made a) fun x => stands x ∧ get x = a

/-- Members that are read as a record give its fields. -/
theorem Projects.gives_of_read {fs : Fields σ τ} {made : τ} {stands : σ → Prop}
    (h : fs.Projects made stands) {p : Place} {members spare : Members Json} {total rank : Nat}
    {x : σ}
    (hx : fs.read (Source.ofMembers p members) (Source.ofMembers .aside spare) total rank
      (.ok made) = .ok x) :
    stands x ∧ fs.Gives p members spare x := by
  induction fs generalizing stands rank with
  | done =>
    cases hx
    exact ⟨h, trivial⟩
  | own key get f rest ih =>
    unfold Fields.read at hx
    cases hown : readOwn (Source.ofMembers p members) rank key f with
    | error e =>
      rw [hown] at hx
      exact absurd hx read_error
    | ok a =>
      rw [hown] at hx
      -- `made a` still returns `a` when the other fields are read.
      obtain ⟨⟨hstands, rfl⟩, hrest⟩ := ih (h a) hx
      exact ⟨hstands, readOwn_iff.1 hown, hrest⟩
  | part get q rest ih =>
    unfold Fields.read at hx
    cases hpart : readPart (Source.ofMembers .aside spare) (rank + total) q with
    | error e =>
      rw [hpart] at hx
      exact absurd hx read_error
    | ok a =>
      rw [hpart] at hx
      obtain ⟨⟨hstands, rfl⟩, hrest⟩ := ih (h a) hx
      exact ⟨hstands, readPart_iff.1 hpart, hrest⟩

end Fields

namespace Record

variable {σ : Type} {r : Record σ}

/-- The fields of a record have different keys, and they return what the record was made of. -/
structure IsProjective (r : Record σ) : Prop where
  hasParts : r.fields.hasParts = false
  nodup : r.fields.keys.Nodup
  projects : r.fields.Projects r.make fun _ => True

/-- A record without parts is read from the objects that give its fields, and from no other
ones. -/
theorem IsProjective.ofJson_object_iff (h : r.IsProjective)
    (hb : ∀ x, r.fields.build x r.make = x) {members : Members Json} (hm : members.Ascending)
    {x : σ} :
    r.codec.ofJson (.object members) = .ok x ↔ r.fields.Gives .value members [] x := by
  rw [ofJson_object_eq_ok_iff h.hasParts hm,
    show ([] : Entries) = Source.ofMembers .aside [] from rfl]
  constructor
  · intro hread
    exact (h.projects.gives_of_read hread).2
  · intro hgives
    rw [hgives.read, hb]

end Record

/-! ## Members under further keys -/

namespace Members

variable {α : Type}

/-- Put members in one after the other. -/
def insertAll (extra members : Members α) : Members α :=
  extra.foldl (fun members m => members.insert m.1 m.2) members

/-- Keys still ascend when members are put in. -/
theorem ascending_insertAll (extra : Members α) {members : Members α} (h : members.Ascending) :
    (insertAll extra members).Ascending := by
  induction extra generalizing members with
  | nil => exact h
  | cons m extra ih => exact ih (ascending_insert h)

/-- Under another key there is what was there before. -/
theorem get?_insertAll {extra : Members α} {key : String} (hkey : key ∉ extra.keys)
    (members : Members α) : (insertAll extra members).get? key = members.get? key := by
  induction extra generalizing members with
  | nil => rfl
  | cons m extra ih =>
    rw [keys, List.map_cons, List.mem_cons, not_or] at hkey
    show (insertAll extra (members.insert m.1 m.2)).get? key = _
    rw [ih hkey.2, get?_insert, if_neg fun he => hkey.1 he.symm]

end Members

/-- An object with more members. -/
def Json.add (extra : Members Json) : Json → Json
  | .object members => .object (Members.insertAll extra members)
  | j => j

/-- Written and read again, `x` becomes `y`, and so it does when members under further keys are
put in. -/
def Record.Keeps {σ : Type} (r : Record σ) (x y : σ) : Prop :=
  ∀ extra : Members Json, (∀ k ∈ extra.keys, k ∉ r.fields.keys ++ r.fields.partKeys) →
    r.codec.ofJson ((r.codec.encode x).add extra) = .ok y

/-- A record comes back as an equal one, whatever members under further keys are put in. -/
def Record.Recovers {σ : Type} [BEq σ] (r : Record σ) (x : σ) : Prop :=
  ∃ y, r.Keeps x y ∧ (y == x) = true

/-- No field reads members under further keys, and no part does. -/
theorem Record.keeps {σ : Type} {r : Record σ} {x y : σ}
    (hn : (r.fields.keys ++ r.fields.partKeys).Nodup) (hb : r.fields.build y r.make = y)
    (h : r.fields.ReadsBack x y) : r.Keeps x y := by
  intro extra hextra
  have hm := Members.ascending_ofList (r.fields.encode x)
  have hd : r.decodeEntries (Source.ofMembers .value
      (Members.insertAll extra (Members.ofList (r.fields.encode x)))) none = .ok y := by
    refine decodeEntries_of_get? hn hb h (Members.ascending_insertAll extra hm) (fun k hk => ?_) _
    -- A key of the record is not among those put in, and it stands for what was written.
    rw [Members.get?_insertAll fun hmem => hextra k hmem hk,
      Members.get?_ofList (Fields.nodup_encode h hn)]
  show (r.decodeEntries _ none).mapError _ = _
  rw [hd]
  rfl

/-- A faithful record is read back, whatever members of other keys are put in. -/
theorem Record.IsFaithful.keeps {σ : Type} {r : Record σ} (h : r.IsFaithful) (x : σ) :
    r.Keeps x x :=
  Record.keeps h.nodup (h.build_make x) (h.fields.readsBack x)

end LanguageServer
