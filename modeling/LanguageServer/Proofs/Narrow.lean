import LanguageServer.Proofs.Any
import LanguageServer.Proofs.Decimal.Nearest

/-!
# Values of any kind and documents are the same data

A value has 32-bit words only.  `Json.narrow` is what becomes of a document on its way through a
value: integers outside the words become doubles, and nothing else changes
(`LspAny.toJson_ofJson`); a document that `Json.IsNarrow` stays as it is.  In the other direction
`LspAny.finite` is what a document keeps of a value: decimals that are not finite become null.

`LspAny.faithful_to_json` puts the four conversions together.
-/

namespace LanguageServer

namespace Json

/-- An integer outside the 32-bit words becomes the nearest double. -/
def Number.narrow : Number → Number
  | .int n => if -0x80000000 ≤ n ∧ n ≤ 0xFFFFFFFF then .int n else .float (nearestDouble n)
  | .float f => .float f

mutual

/-- A document with every number replaced, at any depth. -/
def mapNumbers (g : Number → Number) : Json → Json
  | .null => .null
  | .bool b => .bool b
  | .number n => .number (g n)
  | .string s => .string s
  | .array items => .array (mapItems g items)
  | .object members => .object (mapMembers g members)

/-- Items with every number replaced. -/
def mapItems (g : Number → Number) : List Json → List Json
  | [] => []
  | j :: rest => mapNumbers g j :: mapItems g rest

/-- Members with every number replaced. -/
def mapMembers (g : Number → Number) : List (String × Json) → List (String × Json)
  | [] => []
  | (k, j) :: rest => (k, mapNumbers g j) :: mapMembers g rest

end

mutual

/-- The numbers of a document, at any depth. -/
def numbers : Json → List Number
  | .null | .bool _ | .string _ => []
  | .number n => [n]
  | .array items => itemsNumbers items
  | .object members => membersNumbers members

/-- The numbers of items. -/
def itemsNumbers : List Json → List Number
  | [] => []
  | j :: rest => numbers j ++ itemsNumbers rest

/-- The numbers of members. -/
def membersNumbers : List (String × Json) → List Number
  | [] => []
  | (_, j) :: rest => numbers j ++ membersNumbers rest

end

/-- A document with doubles in place of its integers outside the 32-bit words. -/
def narrow (j : Json) : Json := j.mapNumbers Number.narrow

/-- All integers of a document are 32-bit words. -/
def IsNarrow (j : Json) : Prop :=
  ∀ n, Number.int n ∈ j.numbers → -0x80000000 ≤ n ∧ n ≤ 0xFFFFFFFF

/-! ## Replacing numbers -/

/-- Items are treated one by one. -/
theorem mapItems_eq_map (g : Number → Number) (items : List Json) :
    mapItems g items = items.map (mapNumbers g) := by
  induction items with
  | nil => rfl
  | cons j rest ih => rw [mapItems, ih, List.map_cons]

/-- Members are treated one by one; their keys stay. -/
theorem mapMembers_eq_map (g : Number → Number) (members : List (String × Json)) :
    mapMembers g members = members.map fun m => (m.1, mapNumbers g m.2) := by
  induction members with
  | nil => rfl
  | cons m rest ih => rw [mapMembers, ih, List.map_cons]

mutual

/-- Numbers that are replaced by themselves leave the document as it is. -/
theorem mapNumbers_eq_self {g : Number → Number} :
    ∀ j : Json, (∀ n ∈ j.numbers, g n = n) → j.mapNumbers g = j
  | .null, _ | .bool _, _ | .string _, _ => rfl
  | .number n, h => by rw [mapNumbers, h n (List.mem_singleton_self n)]
  | .array items, h => by rw [mapNumbers, mapItems_eq_self items h]
  | .object members, h => by rw [mapNumbers, mapMembers_eq_self members h]

/-- Items stay as they are when all their numbers do. -/
theorem mapItems_eq_self {g : Number → Number} :
    ∀ items : List Json, (∀ n ∈ itemsNumbers items, g n = n) → mapItems g items = items
  | [], _ => rfl
  | j :: rest, h => by
    have ⟨hj, hrest⟩ := List.forall_mem_append.1 h
    rw [mapItems, mapNumbers_eq_self j hj, mapItems_eq_self rest hrest]

/-- Members stay as they are when all their numbers do. -/
theorem mapMembers_eq_self {g : Number → Number} :
    ∀ members : List (String × Json), (∀ n ∈ membersNumbers members, g n = n) →
      mapMembers g members = members
  | [], _ => rfl
  | (k, j) :: rest, h => by
    have ⟨hj, hrest⟩ := List.forall_mem_append.1 h
    rw [mapMembers, mapNumbers_eq_self j hj, mapMembers_eq_self rest hrest]

end

mutual

/-- What is replaced once is not replaced again if that holds of every number. -/
theorem mapNumbers_idem {g : Number → Number} (hg : ∀ n, g (g n) = g n) :
    ∀ j : Json, (j.mapNumbers g).mapNumbers g = j.mapNumbers g
  | .null | .bool _ | .string _ => rfl
  | .number n => by simp only [mapNumbers, hg]
  | .array items => by simp only [mapNumbers, mapItems_idem hg items]
  | .object members => by simp only [mapNumbers, mapMembers_idem hg members]

/-- Treating items twice is treating them once, if it is so for numbers. -/
theorem mapItems_idem {g : Number → Number} (hg : ∀ n, g (g n) = g n) :
    ∀ items : List Json, mapItems g (mapItems g items) = mapItems g items
  | [] => rfl
  | j :: rest => by simp only [mapItems, mapNumbers_idem hg j, mapItems_idem hg rest]

/-- Treating members twice is treating them once, if it is so for numbers. -/
theorem mapMembers_idem {g : Number → Number} (hg : ∀ n, g (g n) = g n) :
    ∀ members : List (String × Json), mapMembers g (mapMembers g members) = mapMembers g members
  | [] => rfl
  | (k, j) :: rest => by simp only [mapMembers, mapNumbers_idem hg j, mapMembers_idem hg rest]

end

/-- A number that was narrowed is narrow: a word stays, and a double is one already. -/
theorem Number.narrow_narrow (n : Number) : n.narrow.narrow = n.narrow := by
  cases n with
  | float f => rfl
  | int n =>
    by_cases h : -0x80000000 ≤ n ∧ n ≤ 0xFFFFFFFF
    · simp only [Number.narrow, if_pos h]
    · simp only [Number.narrow, if_neg h]

/-- Narrowing a document twice is narrowing it once. -/
theorem narrow_narrow (j : Json) : j.narrow.narrow = j.narrow :=
  mapNumbers_idem Number.narrow_narrow j

/-- A document whose integers are 32-bit words stays as it is. -/
theorem IsNarrow.narrow_eq {j : Json} (h : j.IsNarrow) : j.narrow = j := by
  refine mapNumbers_eq_self j fun n hn => ?_
  cases n with
  | float f => rfl
  | int n => exact if_pos (h n hn)

/-- A 64-bit word is replaced by a finite double. -/
theorem isFinite_nearestDouble {n : Int} (low : Number.minInt ≤ n) (high : n ≤ Number.maxInt) :
    (Number.nearestDouble n).isFinite = true := by
  simp only [Number.minInt, Number.maxInt] at low high
  exact (Double.isNearest_nearestDouble (by omega)).finite

/-- A narrowed document can still be written: the nearest double is finite. -/
theorem wellFormed_narrow {j : Json} (h : j.WellFormed) : j.narrow.WellFormed := by
  induction h with
  | null => exact .null
  | bool b => exact .bool b
  | string s => exact .string s
  | float f finite => exact .float f finite
  -- A number beyond 32 bits turns into the nearest double, which is finite.
  | int n low high =>
    simp only [narrow, mapNumbers, Number.narrow]
    split
    · exact .int n low high
    · exact .float _ (isFinite_nearestDouble low high)
  | array items _ ih =>
    simp only [narrow, mapNumbers, mapItems_eq_map]
    exact .array _ (List.forall_mem_map.2 ih)
  | object members ascending _ ih =>
    simp only [narrow, mapNumbers, mapMembers_eq_map]
    exact .object _ (List.pairwise_map.2 ascending) (List.forall_mem_map.2 ih)

/-! ## Numbers in parts -/

/-- The numbers of items are those that stand in one of them. -/
theorem mem_itemsNumbers {n : Number} {items : List Json} :
    n ∈ itemsNumbers items ↔ ∃ j ∈ items, n ∈ j.numbers := by
  induction items with
  | nil => simp [itemsNumbers]
  | cons j rest ih => simp [itemsNumbers, ih]

/-- The numbers of members are those that stand in one of them. -/
theorem mem_membersNumbers {n : Number} {members : List (String × Json)} :
    n ∈ membersNumbers members ↔ ∃ m ∈ members, n ∈ m.2.numbers := by
  induction members with
  | nil => simp [membersNumbers]
  | cons m rest ih =>
    obtain ⟨k, j⟩ := m
    simp [membersNumbers, ih]

/-- An array is narrow when its items are. -/
theorem isNarrow_array_iff {items : List Json} :
    (Json.array items).IsNarrow ↔ ∀ j ∈ items, j.IsNarrow := by
  simp only [IsNarrow, numbers, mem_itemsNumbers]
  exact ⟨fun h j hj n hn => h n ⟨j, hj, hn⟩, fun h n ⟨j, hj, hn⟩ => h j hj n hn⟩

/-- An object is narrow when what stands under its keys is. -/
theorem isNarrow_object_iff {members : List (String × Json)} :
    (Json.object members).IsNarrow ↔ ∀ m ∈ members, m.2.IsNarrow := by
  simp only [IsNarrow, numbers, mem_membersNumbers]
  exact ⟨fun h m hm n hn => h n ⟨m, hm, hn⟩, fun h n ⟨m, hm, hn⟩ => h m hm n hn⟩

end Json

namespace LspAny

/-- The words of a value are no larger in its document. -/
theorem isNarrow_toJson {v : LspAny} (h : v.IsAscending) : v.toJson.IsNarrow := by
  induction h with
  | null | bool _ | string _ => exact fun n hn => absurd hn List.not_mem_nil
  | integer n =>
    have hle := n.le_toInt
    have hlt := n.toInt_lt
    intro m hm
    cases List.mem_singleton.1 hm
    omega
  | uinteger n =>
    have hlt := n.toNat_lt
    intro m hm
    cases List.mem_singleton.1 hm
    omega
  | decimal f =>
    -- A decimal is written as a double or as null.
    by_cases hf : f.isFinite = true
    · simp [Json.IsNarrow, toJson, Json.ofFloat_of_isFinite hf, Json.numbers]
    · simp [Json.IsNarrow, toJson, Json.ofFloat_of_not_isFinite hf, Json.numbers]
  | array items _ ih =>
    rw [toJson, itemsToJson_eq_map, Json.isNarrow_array_iff]
    exact List.forall_mem_map.2 ih
  | object members _ _ ih =>
    rw [toJson, membersToJson_eq_map, Json.isNarrow_object_iff]
    exact List.forall_mem_map.2 ih

/-- The keys of a value ascend as those of its document do. -/
theorem isAscending_ofJson {j : Json} (h : j.WellFormed) : (ofJson j).IsAscending := by
  induction h with
  | null => exact .null
  | bool b => exact .bool b
  | string s => exact .string s
  | float f _ => exact .decimal f
  -- Signed, unsigned or decimal, as it fits.
  | int n low high =>
    rw [ofJson, ofNumber_int low high, ofInt]
    split
    · exact .integer _
    · split
      · exact .uinteger _
      · exact .decimal _
  | array items _ ih =>
    rw [ofJson, ofItems_eq_map]
    exact .array _ (List.forall_mem_map.2 ih)
  | object members ascending _ ih =>
    rw [ofJson, ofMembers_eq_map]
    exact .object _ (List.pairwise_map.2 ascending) (List.forall_mem_map.2 ih)

/-! ## From documents to values and back -/

/-- An integer comes back as it was if a word holds it, and else as a double. -/
theorem toJson_ofInt {n : Int} (low : Json.Number.minInt ≤ n) (high : n ≤ Json.Number.maxInt) :
    (ofInt n).toJson = .number (Json.Number.int n).narrow := by
  rw [ofInt, Json.Number.narrow]
  split
  -- A signed word.
  case isTrue h => rw [if_pos (by omega), toJson, Int32.toInt_ofInt_of_le (by omega) (by omega)]
  case isFalse h =>
    split
    -- An unsigned word beyond the signed ones.
    case isTrue h' =>
      rw [if_pos (by omega), toJson,
        UInt32.toNat_ofNat_of_lt' (show n.toNat < 2 ^ 32 by omega), Int.toNat_of_nonneg h'.1]
    -- No word: the nearest double.
    case isFalse h' =>
      rw [if_neg (by omega), toJson,
        Json.ofFloat_of_isFinite (Json.isFinite_nearestDouble low high)]

/-- On its way through a value a document changes only in its integers outside the words. -/
theorem toJson_ofJson {j : Json} (h : j.WellFormed) : (ofJson j).toJson = j.narrow := by
  induction h with
  | null | bool _ | string _ => rfl
  | int n low high =>
    rw [ofJson, ofNumber_int low high, toJson_ofInt low high]
    rfl
  | float f finite =>
    rw [ofJson, ofNumber, toJson, Json.ofFloat_of_isFinite finite]
    rfl
  | array items _ ih =>
    simp only [ofJson, toJson, Json.narrow, Json.mapNumbers, itemsToJson_eq_map, ofItems_eq_map,
      Json.mapItems_eq_map, List.map_map]
    exact congrArg Json.array (List.map_congr_left ih)
  | object members _ _ ih =>
    simp only [ofJson, toJson, Json.narrow, Json.mapNumbers, membersToJson_eq_map,
      ofMembers_eq_map, Json.mapMembers_eq_map, List.map_map]
    exact congrArg Json.object (List.map_congr_left fun m hm => congrArg (m.1, ·) (ih m hm))

/-- What cannot change further stays. -/
theorem toJson_ofJson_of_isNarrow {j : Json} (h : j.WellFormed) (hn : j.IsNarrow) :
    (ofJson j).toJson = j := by
  rw [toJson_ofJson h, hn.narrow_eq]

/-! ## Decimals that are not finite -/

mutual

/-- A value with null in place of every decimal that is not finite. -/
def finite : LspAny → LspAny
  | .null => .null
  | .bool b => .bool b
  | .integer n => .integer n
  | .uinteger n => .uinteger n
  | .decimal f => if f.isFinite then .decimal f else .null
  | .string s => .string s
  | .array items => .array (finiteItems items)
  | .object members => .object (finiteMembers members)

/-- Items with null in place of every decimal that is not finite. -/
def finiteItems : List LspAny → List LspAny
  | [] => []
  | v :: rest => finite v :: finiteItems rest

/-- Members with null in place of every decimal that is not finite. -/
def finiteMembers : List (String × LspAny) → List (String × LspAny)
  | [] => []
  | (k, v) :: rest => (k, finite v) :: finiteMembers rest

end

/-- Items lose their infinite decimals one by one. -/
theorem finiteItems_eq_map (items : List LspAny) : finiteItems items = items.map finite := by
  induction items with
  | nil => rfl
  | cons v rest ih => rw [finiteItems, ih, List.map_cons]

/-- Members lose their infinite decimals one by one. -/
theorem finiteMembers_eq_map (members : List (String × LspAny)) :
    finiteMembers members = members.map fun m => (m.1, finite m.2) := by
  induction members with
  | nil => rfl
  | cons m rest ih => rw [finiteMembers, ih, List.map_cons]

/-- Without infinite decimals a value can be written. -/
theorem wellFormed_finite {v : LspAny} (h : v.IsAscending) : v.finite.WellFormed := by
  induction h with
  | null => exact .null
  | bool b => exact .bool b
  | integer n => exact .integer n
  | uinteger n => exact .uinteger n
  | decimal f =>
    rw [finite]
    split
    case isTrue hf => exact .decimal f hf
    -- What is no number is written as null, so null takes its place.
    case isFalse => exact .null
  | string s => exact .string s
  | array items _ ih =>
    rw [finite, finiteItems_eq_map]
    exact .array _ (List.forall_mem_map.2 ih)
  | object members ascending _ ih =>
    rw [finite, finiteMembers_eq_map]
    exact .object _ (List.pairwise_map.2 ascending) (List.forall_mem_map.2 ih)

/-- A decimal that is not finite has no notation but that of null. -/
theorem toJson_finite {v : LspAny} (h : v.IsAscending) : v.finite.toJson = v.toJson := by
  induction h with
  | null | bool _ | integer _ | uinteger _ | string _ => rfl
  | decimal f =>
    rw [finite]
    split
    case isTrue => rfl
    case isFalse hf => rw [toJson, toJson, Json.ofFloat_of_not_isFinite hf]
  | array items _ ih =>
    simp only [finite, toJson, itemsToJson_eq_map, finiteItems_eq_map, List.map_map]
    exact congrArg Json.array (List.map_congr_left ih)
  | object members _ _ ih =>
    simp only [finite, toJson, membersToJson_eq_map, finiteMembers_eq_map, List.map_map]
    exact congrArg Json.object (List.map_congr_left fun m hm => congrArg (m.1, ·) (ih m hm))

/-! ## The four conversions -/

/-- Values of any kind and documents are the same data.  A document is read as the value that it is,
and the value is that document again, with the nearest double in place of each integer outside the
32-bit words; without such integers it is the same document, and twice makes no difference.  Both
ways of writing a value agree, and a value whose decimals are finite comes back as an equal one from
either; other decimals are null for both. -/
theorem faithful_to_json :
    (∀ j : Json, j.WellFormed →
      codec.ofJson j = .ok (ofJson j) ∧ (ofJson j).toJson = j.narrow ∧
      (j.IsNarrow → (ofJson j).toJson = j) ∧
      (ofJson (ofJson j).toJson).toJson = (ofJson j).toJson) ∧
    (∀ n : Int, Json.Number.minInt ≤ n → n ≤ Json.Number.maxInt →
      Double.IsNearest (Json.Number.nearestDouble n) n) ∧
    (∀ v : LspAny, v.WellFormed →
      v.toJson = codec.encode v ∧ (ofJson v.toJson == v) = true ∧
      ∃ v', codec.ofJson (codec.encode v) = .ok v' ∧ (v' == v) = true) ∧
    ∀ v : LspAny, v.IsAscending →
      v.finite.WellFormed ∧ v.toJson = v.finite.toJson ∧
      codec.encode v = codec.encode v.finite := by
  refine ⟨fun j h => ⟨ofSource_ofJson h _, toJson_ofJson h, toJson_ofJson_of_isNarrow h, ?_⟩,
    fun n low high => ?_, fun v h => ?_, fun v h => ?_⟩
  · -- What is shown is narrow, so that going around once more changes nothing.
    rw [toJson_ofJson h, toJson_ofJson (Json.wellFormed_narrow h), Json.narrow_narrow]
  · simp only [Json.Number.minInt, Json.Number.maxInt] at low high
    exact Double.isNearest_nearestDouble (by omega)
  · exact ⟨(write_eq_toJson h.isAscending).symm, beq_ofJson_toJson h, _, (readsBack h).ofJson_eq,
      beq_ofJson_toJson h⟩
  · -- A decimal that is not finite is shown and written as the null it is taken for.
    have hfinite := wellFormed_finite h
    refine ⟨hfinite, (toJson_finite h).symm, ?_⟩
    show v.write = v.finite.write
    rw [write_eq_toJson h, write_eq_toJson hfinite.isAscending, toJson_finite h]

/-- A document with an integer outside the words. -/
def exampleDocument : Json :=
  .object [("a", .array [.int 5000000000, .int (-1)]), ("b", .null)]

/-- The document can be written: its keys ascend, and its integers fit. -/
theorem wellFormed_exampleDocument : exampleDocument.WellFormed := by
  refine .pair (by decide) (.array _ ?_) .null
  simp only [List.forall_mem_cons, List.not_mem_nil, IsEmpty.forall_iff, implies_true, and_true]
  exact ⟨.int _ (by decide) (by decide), .int _ (by decide) (by decide)⟩

/-- A value with a decimal that is not finite beside an unsigned word. -/
def exampleValue : LspAny := .array [.uinteger 5, .decimal (.ofBits 0x7FF0000000000000)]

/-- The value has no objects, so that there are no keys to be out of order. -/
theorem isAscending_exampleValue : exampleValue.IsAscending := by
  refine .array _ ?_
  simp only [List.forall_mem_cons, List.not_mem_nil, IsEmpty.forall_iff, implies_true, and_true]
  exact ⟨.uinteger 5, .decimal _⟩

/-- The integer becomes the nearest double, and the decimal null; the word comes back as a signed
one, which is equal. -/
theorem faithful_exampleDocument :
    codec.ofJson exampleDocument = .ok (ofJson exampleDocument) ∧
      (ofJson exampleDocument).toJson =
        .object [("a", .array [.number (.float (Json.Number.nearestDouble 5000000000)), .int (-1)]),
          ("b", .null)] ∧
      Double.IsNearest (Json.Number.nearestDouble 5000000000) 5000000000 ∧
      exampleValue.finite = .array [.uinteger 5, .null] ∧
      codec.encode exampleValue = .array [.int 5, .null] ∧
      (ofJson (exampleValue.finite).toJson == exampleValue.finite) = true := by
  obtain ⟨hdocument, hnearest, hvalue, hfinite⟩ := faithful_to_json
  -- First the document, with a number out of range; then the value, with one that is none.
  obtain ⟨hread, hwrite, -⟩ := hdocument exampleDocument wellFormed_exampleDocument
  obtain ⟨hw, -, hencode⟩ := hfinite exampleValue isAscending_exampleValue
  exact ⟨hread, hwrite.trans rfl, hnearest _ (by decide) (by decide), rfl, hencode.trans rfl,
    (hvalue _ hw).2.1⟩

end LspAny

end LanguageServer
