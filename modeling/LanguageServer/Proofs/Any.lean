import LanguageServer.Any
import LanguageServer.Proofs.Codec.RoundTrip

/-!
# Values of any kind are read back

`LspAny.IsAscending` holds of the values whose objects ascend; both ways of writing such a value
give one document (`LspAny.write_eq_toJson`).  `LspAny.WellFormed` holds if the doubles are finite
as well.  Such a value is read back from its document as an equal one: an unsigned word that fits
the signed ones is read as a signed word (`LspAny.readsBack`, `LspAny.beq_ofJson_toJson`).
-/

namespace LanguageServer

open Json (Source Place)

/-- A double that is finite is equal to itself. -/
theorem Json.Number.float_beq_self {f : Float} (h : f.isFinite = true) : (f == f) = true := by
  show f.toModel.unpack.beq f.toModel.unpack = true
  have hu : f.toModel.unpack.isFinite = true := h
  cases hm : f.toModel.unpack with
  | notANumber | infinity sign =>
    rw [hm] at hu
    cases hu
  | zero sign => rfl
  | finite sign mantissa exponent pos =>
    -- Exponents are compared first, then mantissas.
    have heq : (compare exponent exponent).then (compare mantissa mantissa) = .eq := by
      rw [Std.compare_self, Std.compare_self]
      rfl
    cases sign with
    | positive =>
      show (some ((compare exponent exponent).then (compare mantissa mantissa)) == some .eq) = true
      rw [heq]
      rfl
    | negative =>
      show (some ((compare exponent exponent).then (compare mantissa mantissa)).swap == some .eq) =
        true
      rw [heq]
      rfl

namespace LspAny

/-- The keys of every object ascend. -/
inductive IsAscending : LspAny → Prop where
  | null : IsAscending .null
  | bool (b : Bool) : IsAscending (.bool b)
  | integer (n : Int32) : IsAscending (.integer n)
  | uinteger (n : UInt32) : IsAscending (.uinteger n)
  | decimal (f : Float) : IsAscending (.decimal f)
  | string (s : String) : IsAscending (.string s)
  | array (items : List LspAny) (each : ∀ v ∈ items, IsAscending v) : IsAscending (.array items)
  | object (members : List (String × LspAny)) (ascending : Members.Ascending members)
      (each : ∀ m ∈ members, IsAscending m.2) : IsAscending (.object members)

/-- The keys of every object ascend, and every double is finite. -/
inductive WellFormed : LspAny → Prop where
  | null : WellFormed .null
  | bool (b : Bool) : WellFormed (.bool b)
  | integer (n : Int32) : WellFormed (.integer n)
  | uinteger (n : UInt32) : WellFormed (.uinteger n)
  | decimal (f : Float) (finite : f.isFinite = true) : WellFormed (.decimal f)
  | string (s : String) : WellFormed (.string s)
  | array (items : List LspAny) (each : ∀ v ∈ items, WellFormed v) : WellFormed (.array items)
  | object (members : List (String × LspAny)) (ascending : Members.Ascending members)
      (each : ∀ m ∈ members, WellFormed m.2) : WellFormed (.object members)

/-- An object with one member is as good as what stands in it. -/
theorem WellFormed.single {key : String} {v : LspAny} (hv : v.WellFormed) :
    (LspAny.object [(key, v)]).WellFormed :=
  .object _ (List.pairwise_singleton _ _) (List.forall_mem_singleton.2 hv)

/-- Finite doubles are not needed for keys to ascend. -/
theorem WellFormed.isAscending {v : LspAny} (h : v.WellFormed) : v.IsAscending := by
  induction h with
  | null => exact .null
  | bool b => exact .bool b
  | integer n => exact .integer n
  | uinteger n => exact .uinteger n
  | decimal f _ => exact .decimal f
  | string s => exact .string s
  | array items _ ih => exact .array items ih
  | object members ascending _ ih => exact .object members ascending ih

/-! ## Lists of values -/

/-- Items are read one by one. -/
theorem ofItems_eq_map (items : List Json) : ofItems items = items.map ofJson := by
  induction items with
  | nil => rfl
  | cons j rest ih => rw [ofItems, ih, List.map_cons]

/-- Members are read one by one; their keys stay. -/
theorem ofMembers_eq_map (members : List (String × Json)) :
    ofMembers members = members.map fun m => (m.1, ofJson m.2) := by
  induction members with
  | nil => rfl
  | cons m rest ih => rw [ofMembers, ih, List.map_cons]

/-- Items are shown one by one. -/
theorem itemsToJson_eq_map (items : List LspAny) : itemsToJson items = items.map toJson := by
  induction items with
  | nil => rfl
  | cons v rest ih => rw [itemsToJson, ih, List.map_cons]

/-- Members are shown one by one; their keys stay. -/
theorem membersToJson_eq_map (members : List (String × LspAny)) :
    membersToJson members = members.map fun m => (m.1, toJson m.2) := by
  induction members with
  | nil => rfl
  | cons m rest ih => rw [membersToJson, ih, List.map_cons]

/-- Items are written behind those that are written already. -/
theorem writeItems_eq_append (written : List Json) (items : List LspAny) :
    writeItems written items = written ++ items.map write := by
  induction items generalizing written with
  | nil => rw [writeItems, List.map_nil, List.append_nil]
  | cons v rest ih => rw [writeItems, ih, List.map_cons, List.append_assoc, List.singleton_append]

/-- Members are put, one by one, where their keys belong. -/
theorem writeMembers_eq_foldl (written : Members Json) (members : List (String × LspAny)) :
    writeMembers written members = (members.map fun m => (m.1, write m.2)).foldl
      (fun ms m => Members.insert m.1 m.2 ms) written := by
  induction members generalizing written with
  | nil => rfl
  | cons m rest ih => exact ih _

/-! ## Writing -/

/-- A value is written as the document that it is. -/
theorem write_eq_toJson {v : LspAny} (h : v.IsAscending) : v.write = v.toJson := by
  induction h with
  | null | bool _ | integer _ | uinteger _ | decimal _ | string _ => rfl
  | array items _ ih =>
    rw [write, toJson, writeItems_eq_append, List.nil_append, itemsToJson_eq_map,
      List.map_congr_left ih]
  | object members ascending _ ih =>
    have hmembers : members.map (fun m => (m.1, write m.2)) = membersToJson members := by
      rw [membersToJson_eq_map]
      exact List.map_congr_left fun m hm => by rw [ih m hm]
    have hascending : Members.Ascending ([] ++ membersToJson members) := by
      rw [List.nil_append, membersToJson_eq_map]
      exact List.pairwise_map.2 ascending
    -- The keys ascend, so that each member comes behind those before it.
    rw [write, toJson, writeMembers_eq_foldl, hmembers, Members.foldl_insert_eq_append hascending,
      List.nil_append]

/-- The words of a value are words of 64 bits. -/
theorem toInt_bounds (n : Int32) :
    Json.Number.minInt ≤ n.toInt ∧ n.toInt ≤ Json.Number.maxInt := by
  have hle := n.le_toInt
  have hlt := n.toInt_lt
  simp only [Json.Number.minInt, Json.Number.maxInt]
  omega

/-- An unsigned word fits the integers of documents. -/
theorem toNat_bounds (n : UInt32) :
    Json.Number.minInt ≤ n.toNat ∧ n.toNat ≤ Json.Number.maxInt := by
  have hlt := n.toNat_lt
  simp only [Json.Number.minInt, Json.Number.maxInt]
  omega

/-- What a value shows is a document that can be written. -/
theorem wellFormed_toJson {v : LspAny} (h : v.WellFormed) : v.toJson.WellFormed := by
  induction h with
  | null => exact .null
  | bool b => exact .bool b
  | integer n => exact .int _ (toInt_bounds n).1 (toInt_bounds n).2
  | uinteger n => exact .int _ (toNat_bounds n).1 (toNat_bounds n).2
  | decimal f finite =>
    rw [toJson, Json.ofFloat_of_isFinite finite]
    exact .float f finite
  | string s => exact .string s
  | array items each ih =>
    simp only [toJson, itemsToJson_eq_map]
    exact .array _ (List.forall_mem_map.2 ih)
  | object members ascending each ih =>
    simp only [toJson, membersToJson_eq_map]
    exact .object _ (List.pairwise_map.2 ascending) (List.forall_mem_map.2 ih)

/-- Only null is written as null. -/
theorem encode_ne_null {v : LspAny} (h : v.WellFormed) (hv : v ≠ .null) :
    codec.encode v ≠ .null := by
  show v.write ≠ .null
  rw [write_eq_toJson h.isAscending]
  cases h with
  | null => exact absurd rfl hv
  | decimal f finite =>
    rw [toJson, Json.ofFloat_of_isFinite finite]
    nofun
  | bool | integer | uinteger | string | array | object => simp [toJson]

/-! ## Reading -/

/-- An integer of 64 bits is taken as a signed or an unsigned word of its value. -/
theorem ofNumber_int {n : Int} (low : Json.Number.minInt ≤ n) (high : n ≤ Json.Number.maxInt) :
    ofNumber (.int n) = ofInt n := by
  simp only [Json.Number.minInt, Json.Number.maxInt] at low high
  rw [ofNumber]
  split
  · rw [ofInt64, Int64.toInt_ofInt_of_le (by omega) (by omega)]
  · rw [ofUInt64, UInt64.toNat_ofNat_of_lt' (show n.toNat < 2 ^ 64 by omega),
      Int.toNat_of_nonneg (by omega)]

/-- An integer is read as what it is taken for, whichever word it comes in. -/
theorem readNumber_int {n : Int} (low : Json.Number.minInt ≤ n) (high : n ≤ Json.Number.maxInt) :
    readNumber (.int n) = ofInt n := by
  simp only [Json.Number.minInt, Json.Number.maxInt] at low high
  rw [readNumber]
  split
  · rw [ofUInt64, UInt64.toNat_ofNat_of_lt' (show n.toNat < 2 ^ 64 by omega),
      Int.toNat_of_nonneg (by omega)]
  · rw [ofInt64, Int64.toInt_ofInt_of_le (by omega) (by omega)]

/-- A well-formed document is read from its source as it is read from the document. -/
theorem ofSource_ofJson {j : Json} (h : j.WellFormed) (p : Place) :
    ofSource (.ofJson p j) = .ok (ofJson j) := by
  induction h with
  | null | bool _ | float _ _ | string _ => rfl
  | int n low high =>
    -- An integer is the same number to the reader of sources and to that of documents.
    rw [Source.ofJson, ofSource, ofJson, readNumber_int low high, ofNumber_int low high]
  | array items each ih =>
    have hitems : ofSources (Source.ofItems p items) = .ok (ofItems items) := by
      clear each
      induction items with
      | nil => rfl
      | cons j rest ihr =>
        have ⟨hj, hrest⟩ := List.forall_mem_cons.1 ih
        simp only [Source.ofItems, ofSources, hj, ihr hrest]
        rfl
    simp only [Source.ofJson, ofSource, hitems]
    rfl
  | object members ascending each ih =>
    have hmembers : ofEntries (Source.ofMembers p members) = .ok (ofMembers members) := by
      clear each ascending
      induction members with
      | nil => rfl
      | cons m rest ihr =>
        obtain ⟨k, j⟩ := m
        have ⟨hj, hrest⟩ := List.forall_mem_cons.1 ih
        simp only [Source.ofMembers, ofEntries, hj, ihr hrest]
        rfl
    -- The keys ascend already, so that no member is put elsewhere.
    have hascending : Members.Ascending (ofMembers members) := by
      rw [ofMembers_eq_map]
      exact List.pairwise_map.2 ascending
    simp only [Source.ofJson, ofSource, hmembers]
    show Codec.unlessBroken none (LspAny.object (Members.ofList (ofMembers members))) = _
    rw [Members.ofList_eq_self hascending]
    rfl

/-- A value is read back as what its document says. -/
theorem readsBack {v : LspAny} (h : v.WellFormed) : codec.ReadsBack v (ofJson v.toJson) :=
  have hwrite : codec.encode v = v.toJson := write_eq_toJson h.isAscending
  ⟨by rw [hwrite]; exact wellFormed_toJson h,
    fun p => by rw [hwrite]; exact ofSource_ofJson (wellFormed_toJson h) p⟩

/-- A signed word is taken for what it is. -/
theorem ofInt_toInt (n : Int32) : ofInt n.toInt = .integer n := by
  have hle := n.le_toInt
  have hlt := n.toInt_lt
  rw [ofInt, if_pos (by omega), Int32.ofInt_toInt]

/-- An unsigned word is read as a word of the same number. -/
theorem ofInt_toNat_cases (n : UInt32) :
    (∃ m : Int32, ofInt n.toNat = .integer m ∧ m.toInt = n.toNat) ∨
      ofInt n.toNat = .uinteger n := by
  have hlt := n.toNat_lt
  rw [ofInt]
  split
  · exact .inl ⟨_, rfl, Int32.toInt_ofInt_of_le (by omega) (by omega)⟩
  · rw [if_pos (by omega), Int.toNat_natCast, UInt32.ofNat_toNat]
    exact .inr rfl

/-- An unsigned word is taken for an equal value, be it signed or not. -/
theorem beq_ofInt_toNat (n : UInt32) : (ofInt n.toNat == uinteger n) = true := by
  -- A word below the signed range comes back as a signed one of the same number.
  obtain ⟨m, hm, hn⟩ | hn := ofInt_toNat_cases n
  · rw [hm]
    show (m.toInt == (n.toNat : Int)) = true
    rw [hn, beq_self_eq_true]
  · rw [hn]
    show (n == n) = true
    exact beq_self_eq_true n

/-- What a value is read back as is equal to it. -/
theorem beq_ofJson_toJson {v : LspAny} (h : v.WellFormed) : (ofJson v.toJson == v) = true := by
  induction h with
  | null => rfl
  | bool b => exact beq_self_eq_true b
  | integer n =>
    -- A whole number that fits is signed again; one that does not is unsigned, with the same value.
    rw [toJson, ofJson, ofNumber_int (toInt_bounds n).1 (toInt_bounds n).2, ofInt_toInt]
    exact beq_self_eq_true n
  | uinteger n =>
    rw [toJson, ofJson, ofNumber_int (toNat_bounds n).1 (toNat_bounds n).2]
    exact beq_ofInt_toNat n
  | decimal f finite =>
    rw [toJson, Json.ofFloat_of_isFinite finite]
    exact Json.Number.float_beq_self finite
  | string s => exact beq_self_eq_true s
  | array items each ih =>
    -- The items one by one, with what the outer induction says of each.
    show beqItems (ofItems (itemsToJson items)) items = true
    clear each
    induction items with
    | nil => rfl
    | cons v rest ihr =>
      have ⟨hv, hrest⟩ := List.forall_mem_cons.1 ih
      simp only [itemsToJson, ofItems, beqItems, Bool.and_eq_true]
      exact ⟨hv, ihr hrest⟩
  | object members ascending each ih =>
    show beqMembers (ofMembers (membersToJson members)) members = true
    clear each ascending
    induction members with
    | nil => rfl
    | cons m rest ihr =>
      obtain ⟨k, v⟩ := m
      have ⟨hv, hrest⟩ := List.forall_mem_cons.1 ih
      simp only [membersToJson, ofMembers, beqMembers, Bool.and_eq_true, beq_self_eq_true, true_and]
      exact ⟨hv, ihr hrest⟩

/-- What a value is read back as is written like it. -/
theorem toJson_ofJson_toJson {v : LspAny} (h : v.WellFormed) :
    (ofJson v.toJson).toJson = v.toJson := by
  induction h with
  | null | bool _ | string _ => rfl
  | integer n =>
    rw [toJson, ofJson, ofNumber_int (toInt_bounds n).1 (toInt_bounds n).2, ofInt_toInt, toJson]
  | uinteger n =>
    rw [toJson, ofJson, ofNumber_int (toNat_bounds n).1 (toNat_bounds n).2]
    -- It comes back signed where it can, and is written with the same digits.
    obtain ⟨m, hm, hn⟩ | hn := ofInt_toNat_cases n
    · rw [hm, toJson, hn]
    · rw [hn, toJson]
  | decimal f finite =>
    rw [toJson, Json.ofFloat_of_isFinite finite]
    exact Json.ofFloat_of_isFinite finite
  | array items _ ih =>
    simp only [toJson, ofJson, itemsToJson_eq_map, ofItems_eq_map, List.map_map]
    exact congrArg Json.array (List.map_congr_left ih)
  | object members _ _ ih =>
    simp only [toJson, ofJson, membersToJson_eq_map, ofMembers_eq_map, List.map_map]
    exact congrArg Json.object (List.map_congr_left fun m hm => congrArg (m.1, ·) (ih m hm))

/-- What comes back can be written, too. -/
theorem wellFormed_ofJson_toJson {v : LspAny} (h : v.WellFormed) :
    (ofJson v.toJson).WellFormed := by
  induction h with
  | null => exact .null
  | bool b => exact .bool b
  | string s => exact .string s
  | integer n =>
    rw [toJson, ofJson, ofNumber_int (toInt_bounds n).1 (toInt_bounds n).2, ofInt_toInt]
    exact .integer n
  | uinteger n =>
    rw [toJson, ofJson, ofNumber_int (toNat_bounds n).1 (toNat_bounds n).2]
    obtain ⟨m, hm, -⟩ | hn := ofInt_toNat_cases n
    · exact hm ▸ .integer m
    · exact hn ▸ .uinteger n
  | decimal f finite =>
    rw [toJson, Json.ofFloat_of_isFinite finite]
    exact .decimal f finite
  | array items _ ih =>
    simp only [toJson, ofJson, itemsToJson_eq_map, ofItems_eq_map, List.map_map]
    exact .array _ (List.forall_mem_map.2 ih)
  | object members ascending _ ih =>
    simp only [toJson, ofJson, membersToJson_eq_map, ofMembers_eq_map, List.map_map]
    exact .object _ (List.pairwise_map.2 ascending) (List.forall_mem_map.2 ih)

/-- What comes back is written as before. -/
theorem encode_ofJson_toJson {v : LspAny} (h : v.WellFormed) :
    codec.encode (ofJson v.toJson) = codec.encode v := by
  show (ofJson v.toJson).write = v.write
  rw [write_eq_toJson (wellFormed_ofJson_toJson h).isAscending, write_eq_toJson h.isAscending,
    toJson_ofJson_toJson h]

end LspAny

end LanguageServer
