/-!
# Members under keys

`Members` are pairs of a key and a value; they are `Ascending` when the keys strictly ascend, so
that no key occurs twice. `Members.insert` puts a member at its place and replaces an earlier one,
`Members.insertNew` keeps the earlier one; both keep the order. A `Dictionary` is ascending members:

* `Members.ascending_ofList`: members made from any pairs ascend;
* `Members.mem_of_get?_ofList`: every value of a dictionary is one of the pairs it was made from;
* `Members.get?_ofList`: pairs of different keys are found as they are found one by one;
* `Members.ofList_eq_self`: pairs that ascend already stay as they are;
* `Members.ofList_eq_of_perm`: pairs of different keys make the same members in every order;
* `Dictionary.foldl_insert_empty`: members that are put in one after the other make the dictionary.
-/

namespace LanguageServer

/-- Members of an object: keys with values, ascending by key. -/
abbrev Members (α : Type) := List (String × α)

namespace Members

variable {α β : Type}

/-- Put a member at its place among ascending keys, in place of an earlier one of the same key. -/
def insert (key : String) (value : α) : Members α → Members α
  | [] => [(key, value)]
  | (k, v) :: rest =>
    if key < k then (key, value) :: (k, v) :: rest
    else if key = k then (key, value) :: rest
    else (k, v) :: insert key value rest

/-- The value under a key. -/
def get? (key : String) : Members α → Option α
  | [] => none
  | (k, v) :: rest => if k = key then some v else get? key rest

/-- Remove the member of a key. -/
def erase (key : String) (members : Members α) : Members α :=
  members.filter fun m => m.1 ≠ key

/-- Whether a key is present. -/
def contains (key : String) (members : Members α) : Bool := (members.get? key).isSome

/-- Put a member at its place among ascending keys, unless the key is there already. -/
def insertNew (key : String) (value : α) : Members α → Members α
  | [] => [(key, value)]
  | (k, v) :: rest =>
    if key < k then (key, value) :: (k, v) :: rest
    else if key = k then (k, v) :: rest
    else (k, v) :: insertNew key value rest

/-- Ascending members from pairs in any order; of several pairs with one key the last stays. -/
def ofList (pairs : List (String × α)) : Members α :=
  pairs.foldr (fun m members => insertNew m.1 m.2 members) []

/-- The keys, in order. -/
def keys (members : Members α) : List String := members.map (·.1)

/-- Keys strictly ascend, so that none occurs twice. -/
def Ascending (members : Members α) : Prop := members.Pairwise fun a b => a.1 < b.1

end Members

/-- Values under keys, ascending by key. -/
structure Dictionary (α : Type) where
  members : Members α
  ascending : members.Ascending
deriving DecidableEq

instance {α : Type} [BEq α] : BEq (Dictionary α) := ⟨fun a b => a.members == b.members⟩

namespace Members

variable {α : Type}

theorem mem_keys_insertNew {key k : String} {value : α} {members : Members α} :
    k ∈ keys (insertNew key value members) ↔ k = key ∨ k ∈ keys members := by
  induction members with
  | nil => simp [insertNew, keys]
  | cons m rest ih =>
    obtain ⟨k', v⟩ := m
    simp only [insertNew]
    split
    · simp [keys]
    · split
      · rename_i h
        subst h
        simp [keys]
      · simp only [keys, List.map_cons, List.mem_cons] at ih ⊢
        rw [ih]
        exact or_left_comm

theorem ascending_cons {k : String} {v : α} {rest : Members α} :
    Ascending ((k, v) :: rest) ↔ (∀ l ∈ keys rest, k < l) ∧ Ascending rest := by
  simp [Ascending, keys]

theorem ascending_insertNew {key : String} {value : α} {members : Members α}
    (h : members.Ascending) : (insertNew key value members).Ascending := by
  induction members with
  | nil => simp [insertNew, Ascending]
  | cons m rest ih =>
    obtain ⟨k, v⟩ := m
    have hk := ascending_cons.1 h
    simp only [insertNew]
    split
    · rename_i hlt
      refine ascending_cons.2 ⟨?_, h⟩
      intro l hl
      rcases List.mem_cons.1 hl with rfl | hl
      · exact hlt
      · exact String.lt_trans hlt (hk.1 l hl)
    · split
      · exact h
      · rename_i hlt hne
        refine ascending_cons.2 ⟨?_, ih hk.2⟩
        intro l hl
        rcases mem_keys_insertNew.1 hl with rfl | hl
        · rcases Decidable.em (k < l) with hk' | hk'
          · exact hk'
          · exact absurd (String.le_antisymm (String.not_lt.1 hk') (String.not_lt.1 hlt)) hne
        · exact hk.1 l hl

theorem mem_keys_insert {key k : String} {value : α} {members : Members α} :
    k ∈ keys (insert key value members) ↔ k = key ∨ k ∈ keys members := by
  induction members with
  | nil => simp [insert, keys]
  | cons m rest ih =>
    obtain ⟨k', v⟩ := m
    simp only [insert]
    split
    · simp [keys]
    · split
      · rename_i h
        subst h
        simp [keys]
      · simp only [keys, List.map_cons, List.mem_cons] at ih ⊢
        rw [ih]
        exact or_left_comm

theorem ascending_insert {key : String} {value : α} {members : Members α}
    (h : members.Ascending) : (insert key value members).Ascending := by
  induction members with
  | nil => simp [insert, Ascending]
  | cons m rest ih =>
    obtain ⟨k, v⟩ := m
    have hk := ascending_cons.1 h
    simp only [insert]
    split
    · rename_i hlt
      refine ascending_cons.2 ⟨?_, h⟩
      intro l hl
      rcases List.mem_cons.1 hl with rfl | hl
      · exact hlt
      · exact String.lt_trans hlt (hk.1 l hl)
    · split
      · rename_i heq
        exact ascending_cons.2 ⟨heq ▸ hk.1, hk.2⟩
      · rename_i hlt hne
        refine ascending_cons.2 ⟨?_, ih hk.2⟩
        intro l hl
        rcases mem_keys_insert.1 hl with rfl | hl
        · rcases Decidable.em (k < l) with hk' | hk'
          · exact hk'
          · exact absurd (String.le_antisymm (String.not_lt.1 hk') (String.not_lt.1 hlt)) hne
        · exact hk.1 l hl

theorem get?_insert (key : String) (value : α) (members : Members α) (k : String) :
    get? k (insert key value members) = if key = k then some value else get? k members := by
  induction members with
  | nil => rfl
  | cons m rest ih =>
    obtain ⟨k', v⟩ := m
    simp only [insert]
    split
    · rfl
    · split
      · rename_i heq
        subst heq
        simp only [get?]
        split <;> rfl
      · rename_i hne
        simp only [get?, ih]
        split
        · rename_i hk
          rw [if_neg fun he => hne (he.trans hk.symm)]
        · rfl

theorem get?_erase (key : String) (members : Members α) (k : String) :
    get? k (erase key members) = if key = k then none else get? k members := by
  induction members with
  | nil => simp [erase, get?]
  | cons m rest ih =>
    obtain ⟨k', v⟩ := m
    have hcons : erase key ((k', v) :: rest) =
        if k' = key then erase key rest else (k', v) :: erase key rest := by
      by_cases hkey : k' = key <;> simp [erase, hkey]
    rw [hcons]
    split
    · rename_i hkey
      simp only [get?, ih, hkey]
      split <;> rfl
    · rename_i hkey
      simp only [get?, ih]
      split
      · rename_i hk
        rw [if_neg fun he => hkey (hk.trans he.symm)]
      · rfl

theorem ascending_ofList (pairs : List (String × α)) : (ofList pairs).Ascending := by
  induction pairs with
  | nil => simp [ofList, Ascending]
  | cons m rest ih => exact ascending_insertNew ih

theorem get?_eq_none_iff {k : String} {members : Members α} :
    get? k members = none ↔ k ∉ keys members := by
  induction members with
  | nil => simp [get?, keys]
  | cons m rest ih =>
    obtain ⟨k', v⟩ := m
    simp only [get?, keys, List.map_cons, List.mem_cons, not_or] at ih ⊢
    split
    · rename_i h
      simp [h]
    · rename_i h
      rw [ih]
      simp [Ne.symm h]

theorem mem_of_get? {k : String} {v : α} {members : Members α} (h : get? k members = some v) :
    (k, v) ∈ members := by
  induction members with
  | nil => cases h
  | cons m rest ih =>
    obtain ⟨k', v'⟩ := m
    simp only [get?] at h
    split at h
    · rename_i hk
      rw [← hk, ← Option.some.inj h]
      exact List.mem_cons_self
    · exact List.mem_cons_of_mem _ (ih h)

theorem get?_insertNew {key : String} {members : Members α} (h : key ∉ keys members) (value : α)
    (k : String) :
    get? k (insertNew key value members) = if key = k then some value else get? k members := by
  induction members with
  | nil => rfl
  | cons m rest ih =>
    obtain ⟨k', v⟩ := m
    simp only [keys, List.map_cons, List.mem_cons, not_or] at h ih
    simp only [insertNew]
    split
    · rfl
    · rw [if_neg h.1]
      simp only [get?, ih h.2]
      by_cases hk : k' = k
      · rw [if_pos hk, if_neg fun he => h.1 (he.trans hk.symm), if_pos hk]
      · rw [if_neg hk, if_neg hk]

/-- Pairs whose keys differ are found among ascending members as they are found in their order. -/
theorem get?_ofList {pairs : List (String × α)} (h : (keys pairs).Nodup) (k : String) :
    get? k (ofList pairs) = get? k pairs := by
  induction pairs generalizing k with
  | nil => rfl
  | cons m rest ih =>
    obtain ⟨key, value⟩ := m
    have ⟨hkey, hrest⟩ := List.nodup_cons.1 h
    have hnot : key ∉ keys (ofList rest) := by
      rw [← get?_eq_none_iff, ih hrest key, get?_eq_none_iff]
      exact hkey
    rw [show ofList ((key, value) :: rest) = insertNew key value (ofList rest) from rfl,
      get?_insertNew hnot, get?, ih hrest]

theorem mem_of_mem_ofList {m : String × α} {pairs : List (String × α)} (h : m ∈ ofList pairs) :
    m ∈ pairs := by
  have hnew {key : String} {value : α} {members : Members α}
      (h : m ∈ insertNew key value members) : m = (key, value) ∨ m ∈ members := by
    induction members with
    | nil => simpa [insertNew] using h
    | cons m' rest ih =>
      simp only [insertNew] at h
      grind
  induction pairs with
  | nil => cases h
  | cons m' rest ih => exact List.mem_cons.2 ((hnew h).imp_right ih)

/-- Every value comes from the pairs. -/
theorem mem_of_get?_ofList {pairs : List (String × α)} {k : String} {v : α}
    (h : get? k (ofList pairs) = some v) : (k, v) ∈ pairs :=
  mem_of_mem_ofList (mem_of_get? h)

theorem get?_filter {p : String → Bool} {k : String} (h : p k = true) (members : Members α) :
    get? k (members.filter fun m => p m.1) = get? k members := by
  induction members with
  | nil => rfl
  | cons m rest ih =>
    obtain ⟨k', v⟩ := m
    rw [List.filter_cons]
    by_cases hk : k' = k
    · simp [get?, hk, h]
    · split <;> simp [get?, hk, ih]

theorem get?_append (k : String) (a b : Members α) :
    get? k (a ++ b) = (get? k a).or (get? k b) := by
  induction a with
  | nil => rfl
  | cons m rest ih =>
    obtain ⟨k', v⟩ := m
    simp only [List.cons_append, get?]
    split
    · rfl
    · exact ih

theorem ascending_iff {members : Members α} :
    members.Ascending ↔ (keys members).Pairwise (· < ·) :=
  List.pairwise_map.symm

theorem Ascending.nodup_keys {members : Members α} (h : members.Ascending) :
    (keys members).Nodup := by
  refine (List.pairwise_map.2 h).imp fun {a b} hlt heq => ?_
  rw [heq] at hlt
  exact String.lt_irrefl b hlt

theorem insertNew_of_lt {key : String} {value : α} {members : Members α}
    (h : ∀ l ∈ keys members, key < l) : insertNew key value members = (key, value) :: members := by
  cases members with
  | nil => rfl
  | cons m rest => simp [insertNew, h m.1 (by simp [keys])]

theorem ofList_eq_self {members : Members α} (h : members.Ascending) :
    ofList members = members := by
  induction members with
  | nil => rfl
  | cons m rest ih =>
    have hk := ascending_cons.1 h
    simp only [ofList, List.foldr_cons]
    rw [show rest.foldr (fun m members => insertNew m.1 m.2 members) [] = rest from ih hk.2]
    exact insertNew_of_lt hk.1

theorem insertNew_perm {key : String} {members : Members α} (h : key ∉ keys members) (value : α) :
    (insertNew key value members).Perm ((key, value) :: members) := by
  induction members with
  | nil => exact .refl _
  | cons m rest ih =>
    obtain ⟨k, v⟩ := m
    obtain ⟨hk, hrest⟩ := not_or.1 (mt List.mem_cons.2 h)
    simp only [insertNew, if_neg hk]
    split
    · exact .refl _
    · exact ((ih hrest).cons _).trans (.swap _ _ _)

theorem ofList_perm {pairs : List (String × α)} (h : (keys pairs).Nodup) :
    (ofList pairs).Perm pairs := by
  induction pairs with
  | nil => exact .refl _
  | cons m rest ih =>
    have ⟨hk, hrest⟩ := List.nodup_cons.1 h
    have hperm := ih hrest
    have hnot : m.1 ∉ keys (ofList rest) := fun hmem => hk ((hperm.map _).mem_iff.1 hmem)
    exact (insertNew_perm hnot m.2).trans (hperm.cons m)

/-- Pairs whose keys differ make the same members in every order. -/
theorem ofList_eq_of_perm {pairs others : List (String × α)} (h : (keys pairs).Nodup)
    (hp : pairs.Perm others) : ofList pairs = ofList others := by
  have hothers : (keys others).Nodup := (hp.map _).nodup_iff.1 h
  have hperm : (ofList pairs).Perm (ofList others) :=
    (ofList_perm h).trans (hp.trans (ofList_perm hothers).symm)
  refine hperm.eq_of_pairwise (fun a b _ _ hab hba => ?_) (ascending_ofList pairs)
    (ascending_ofList others)
  exact absurd (String.lt_trans hab hba) (String.lt_irrefl _)

theorem insert_of_lt {key : String} {value : α} {members : Members α}
    (h : ∀ l ∈ keys members, l < key) :
    insert key value members = members ++ [(key, value)] := by
  induction members with
  | nil => rfl
  | cons m rest ih =>
    have hm : m.1 < key := h m.1 (by simp [keys])
    have hne : key ≠ m.1 := fun he => String.lt_irrefl key (he ▸ hm)
    simp only [insert]
    rw [if_neg (String.lt_asymm hm), if_neg hne,
      ih fun l hl => h l (List.mem_cons_of_mem _ hl)]
    rfl

theorem foldl_insert_eq_append {done rest : Members α} (h : Ascending (done ++ rest)) :
    rest.foldl (fun members m => insert m.1 m.2 members) done = done ++ rest := by
  induction rest generalizing done with
  | nil => simp
  | cons m rest ih =>
    have hm : ∀ l ∈ keys done, l < m.1 := by
      intro l hl
      obtain ⟨d, hd, rfl⟩ := List.mem_map.1 hl
      exact (List.pairwise_append.1 h).2.2 d hd m (by simp)
    rw [List.foldl_cons, insert_of_lt hm, ih (by simpa using h)]
    simp

end Members

namespace Dictionary

variable {α : Type}

/-- No member. -/
def empty : Dictionary α := ⟨[], List.Pairwise.nil⟩

instance : Inhabited (Dictionary α) := ⟨empty⟩

/-- A dictionary from pairs in any order; of several pairs with one key the last stays. -/
def ofList (pairs : List (String × α)) : Dictionary α :=
  ⟨Members.ofList pairs, Members.ascending_ofList pairs⟩

/-- The value under a key. -/
def get? (d : Dictionary α) (key : String) : Option α := Members.get? key d.members

/-- The keys, in order. -/
def keys (d : Dictionary α) : List String := Members.keys d.members

/-- Whether a key is present. -/
def contains (d : Dictionary α) (key : String) : Bool := (d.get? key).isSome

/-- Put a value under a key, in place of an earlier one. -/
def insert (d : Dictionary α) (key : String) (value : α) : Dictionary α :=
  ⟨Members.insert key value d.members, Members.ascending_insert d.ascending⟩

/-- Remove a key. -/
def erase (d : Dictionary α) (key : String) : Dictionary α :=
  ⟨Members.erase key d.members, d.ascending.filter _⟩

theorem get?_insert (d : Dictionary α) (key : String) (value : α) (k : String) :
    (d.insert key value).get? k = if key = k then some value else d.get? k :=
  Members.get?_insert key value d.members k

theorem get?_erase (d : Dictionary α) (key : String) (k : String) :
    (d.erase key).get? k = if key = k then none else d.get? k :=
  Members.get?_erase key d.members k

/-- Two dictionaries with the same members are equal. -/
theorem ext {a b : Dictionary α} (h : a.members = b.members) : a = b := by
  cases a; cases b; cases h; rfl

theorem members_foldl_insert (ms : Members α) (d : Dictionary α) :
    (ms.foldl (fun d m => d.insert m.1 m.2) d).members =
      ms.foldl (fun members m => members.insert m.1 m.2) d.members := by
  induction ms generalizing d with
  | nil => rfl
  | cons m ms ih => exact ih _

/-- A dictionary is made anew from its members. -/
theorem foldl_insert_empty (d : Dictionary α) :
    d.members.foldl (fun d m => d.insert m.1 m.2) empty = d :=
  ext (by
    rw [members_foldl_insert]
    exact Members.foldl_insert_eq_append d.ascending)

end Dictionary

end LanguageServer
