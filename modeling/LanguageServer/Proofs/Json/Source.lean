import LanguageServer.Json.Source

/-!
# Values as sources

A value that is shown as a source has no faults: it is read back whole, and set aside as it is.
What stands inside a value nests less deep than the value: `depth_item_lt`, `depth_lt_of_member?`.
-/

namespace LanguageServer.Json

/-! ## Small objects -/

/-- An object with one member is as good as what stands in it. -/
theorem WellFormed.single {key : String} {v : Json} (hv : v.WellFormed) :
    (Json.object [(key, v)]).WellFormed :=
  .object _ (List.pairwise_singleton _ _) (List.forall_mem_singleton.2 hv)

/-- An object with two members needs their keys in order. -/
theorem WellFormed.pair {key key' : String} {v v' : Json} (hlt : key < key') (hv : v.WellFormed)
    (hv' : v'.WellFormed) : (Json.object [(key, v), (key', v')]).WellFormed :=
  .object _ (List.pairwise_pair.2 hlt)
    (List.forall_mem_cons.2 ⟨hv, List.forall_mem_singleton.2 hv'⟩)

namespace Source

/-! ## Values that are shown as sources -/

mutual

/-- A value can be set aside whole, wherever it stands. -/
theorem setAside_ofJson (p : Place) : ∀ j : Json, (ofJson p j).setAside = .ok (ofJson .aside j)
  | .null | .bool _ | .number _ | .string _ => rfl
  | .array items => by
    simp only [ofJson, setAside, setAsideItems_ofItems p items]
    rfl
  | .object members => by
    simp only [ofJson, setAside, setAsideMembers_ofMembers p members]
    rfl

/-- Items can be set aside whole. -/
theorem setAsideItems_ofItems (p : Place) :
    ∀ items : List Json, setAsideItems (ofItems p items) = .ok (ofItems .aside items)
  | [] => rfl
  | j :: rest => by
    simp only [ofItems, setAsideItems, setAside_ofJson p j, setAsideItems_ofItems p rest]
    rfl

/-- Members can be set aside whole. -/
theorem setAsideMembers_ofMembers (p : Place) :
    ∀ members : List (String × Json),
      setAsideMembers (ofMembers p members) = .ok (ofMembers .aside members)
  | [] => rfl
  | (k, j) :: rest => by
    simp only [ofMembers, setAsideMembers, setAside_ofJson p j, setAsideMembers_ofMembers p rest]
    rfl

end

/-- Items are read back as items when each of them is. -/
theorem itemsToJson_ofItems {p : Place} {items : List Json}
    (h : ∀ j ∈ items, (ofJson p j).toJson = .ok j) :
    itemsToJson (ofItems p items) = .ok items := by
  induction items with
  | nil => rfl
  | cons j rest ih =>
    have ⟨hj, hrest⟩ := List.forall_mem_cons.1 h
    simp only [ofItems, itemsToJson, hj, ih hrest]
    rfl

/-- Members are read back as members when what stands under each key is. -/
theorem membersToJson_ofMembers {p : Place} {members : List (String × Json)}
    (h : ∀ m ∈ members, (ofJson p m.2).toJson = .ok m.2) :
    membersToJson (ofMembers p members) = .ok members := by
  induction members with
  | nil => rfl
  | cons m rest ih =>
    obtain ⟨k, j⟩ := m
    have ⟨hj, hrest⟩ := List.forall_mem_cons.1 h
    simp only [ofMembers, membersToJson, hj, ih hrest]
    rfl

/-- A well-formed value is read back whole. -/
theorem toJson_ofJson {j : Json} (h : j.WellFormed) (p : Place) : (ofJson p j).toJson = .ok j := by
  induction h with
  | null | bool _ | int _ _ _ | float _ _ | string _ => rfl
  | array items each ih =>
    simp only [ofJson, toJson, itemsToJson_ofItems ih]
    rfl
  | object members ascending each ih =>
    -- The keys ascend, so that no member gives way to another one.
    simp only [ofJson, toJson, membersToJson_ofMembers ih]
    exact congrArg (fun ms => Except.ok (Json.object ms)) (Members.ofList_eq_self ascending)

/-- It is the same to choose members by their keys before they are shown as a source, or after. -/
theorem filter_ofMembers (p : Place) (q : String → Bool) (members : List (String × Json)) :
    (ofMembers p members).filter (fun m => q m.1) =
      ofMembers p (members.filter fun m => q m.1) := by
  induction members with
  | nil => rfl
  | cons m rest ih =>
    obtain ⟨k, j⟩ := m
    rw [ofMembers, List.filter_cons, List.filter_cons]
    split
    · rw [ih, ofMembers]
    · exact ih

/-! ## Depth -/

/-- An item nests less deep than the array in which it stands. -/
theorem depth_item_lt {p : Place} {items : List Json} {j : Json} (h : j ∈ items) :
    (ofJson p j).depth < (ofJson p (.array items)).depth := by
  suffices hle : (ofJson p j).depth ≤ itemsDepth (ofItems p items) from Nat.lt_succ_of_le hle
  induction items with
  | nil => cases h
  | cons i rest ih =>
    rw [ofItems, itemsDepth]
    rcases List.mem_cons.1 h with rfl | h
    · exact Nat.le_max_left _ _
    · exact Nat.le_trans (ih h) (Nat.le_max_right _ _)

/-- What stands under a key nests less deep than the object. -/
theorem depth_lt_of_member? {p : Place} {j v : Json} {key : String} (h : j.member? key = some v) :
    (ofJson p v).depth < (ofJson p j).depth := by
  cases j with
  | null | bool _ | number _ | string _ | array _ => cases h
  | object members =>
    have hmem : (key, v) ∈ members := Members.mem_of_get? h
    -- The object adds a level to the deepest of its members.
    suffices hle : (ofJson p v).depth ≤ membersDepth (ofMembers p members) from
      Nat.lt_succ_of_le hle
    clear h
    induction members with
    | nil => cases hmem
    | cons m rest ih =>
      rw [ofMembers, membersDepth]
      rcases List.mem_cons.1 hmem with rfl | hmem
      · exact Nat.le_max_left _ _
      · exact Nat.le_trans (ih hmem) (Nat.le_max_right _ _)

end Source

end LanguageServer.Json
