import LanguageServer.Proofs.Any
import LanguageServer.Proofs.Json.Equality
import LanguageServer.Server.Connection

/-!
# Equal values

Values are equal when their documents are (`LspAny.beq_toJson`): the words of an integer are told
apart by neither.  So equality is an equivalence on well-formed values, and equal values can take
each other's place wherever they are sent (`LspAny.equality_of_documents`).
-/

namespace LanguageServer

namespace LspAny

/-- Items are equal when what they show is, if it is so one by one. -/
theorem beqItems_toJson {items others : List LspAny}
    (each : ∀ v ∈ items, ∀ w ∈ others, beq v w = Json.beq v.toJson w.toJson) :
    beqItems items others = Json.beqItems (itemsToJson items) (itemsToJson others) := by
  induction items generalizing others with
  | nil => cases others <;> rfl
  | cons v items ih =>
    cases others with
    | nil => rfl
    | cons w others =>
      have hhead := each v List.mem_cons_self w List.mem_cons_self
      -- Both lists are walked together, so the others vary in the induction.
      have htail := ih fun v hv w hw => each v (.tail _ hv) w (.tail _ hw)
      rw [beqItems, itemsToJson, itemsToJson, Json.beqItems, hhead, htail]

/-- Members are equal when what they show is, if it is so one by one. -/
theorem beqMembers_toJson {members others : List (String × LspAny)}
    (each : ∀ m ∈ members, ∀ n ∈ others, beq m.2 n.2 = Json.beq m.2.toJson n.2.toJson) :
    beqMembers members others =
      Json.beqMembers (membersToJson members) (membersToJson others) := by
  induction members generalizing others with
  | nil => cases others <;> rfl
  | cons m members ih =>
    cases others with
    | nil => rfl
    | cons n others =>
      have hhead := each m List.mem_cons_self n List.mem_cons_self
      have htail := ih fun m hm n hn => each m (.tail _ hm) n (.tail _ hn)
      rw [beqMembers, membersToJson, membersToJson, Json.beqMembers, hhead, htail]

/-- A finite double is written as it is. -/
theorem toJson_decimal {f : Float} (h : f.isFinite = true) :
    (decimal f).toJson = .number (.float f) := by
  rw [toJson, Json.ofFloat_of_isFinite h]

/-- Values are equal when their documents are. -/
theorem beq_toJson {v w : LspAny} (hv : v.WellFormed) (hw : w.WellFormed) :
    (v == w) = (v.toJson == w.toJson) := by
  show beq v w = Json.beq v.toJson w.toJson
  induction hv generalizing w with
  | null | bool _ | string _ =>
    cases hw with
    | decimal g hg =>
      rw [toJson_decimal hg]
      rfl
    | null | bool _ | integer _ | uinteger _ | string _ | array _ _ | object _ _ _ => rfl
  | integer n =>
    cases hw with
    | integer m =>
      -- Words are equal as numbers are.
      show (n == m) = (n.toInt == m.toInt)
      rw [Bool.eq_iff_iff, beq_iff_eq, beq_iff_eq, Int32.toInt_inj]
    | decimal g hg =>
      rw [toJson_decimal hg]
      rfl
    | null | bool _ | uinteger _ | string _ | array _ _ | object _ _ _ => rfl
  | uinteger n =>
    cases hw with
    | uinteger m =>
      show (n == m) = ((n.toNat : Int) == (m.toNat : Int))
      rw [Bool.eq_iff_iff, beq_iff_eq, beq_iff_eq, Int.natCast_inj, UInt32.toNat_inj]
    | decimal g hg =>
      rw [toJson_decimal hg]
      rfl
    | null | bool _ | integer _ | string _ | array _ _ | object _ _ _ => rfl
  | decimal f hf =>
    rw [toJson_decimal hf]
    cases hw with
    | decimal g hg =>
      rw [toJson_decimal hg]
      rfl
    | null | bool _ | integer _ | uinteger _ | string _ | array _ _ | object _ _ _ => rfl
  | array items _ ih =>
    cases hw with
    | array others each => exact beqItems_toJson fun v hv w hw => ih v hv (each w hw)
    | decimal g hg =>
      rw [toJson_decimal hg]
      rfl
    | null | bool _ | integer _ | uinteger _ | string _ | object _ _ _ => rfl
  | object members _ _ ih =>
    cases hw with
    | object others _ each => exact beqMembers_toJson fun m hm n hn => ih m hm (each n hn)
    | decimal g hg =>
      rw [toJson_decimal hg]
      rfl
    | null | bool _ | integer _ | uinteger _ | string _ | array _ _ => rfl

/-- Values are equal when their documents are the same but for the signs of their zeros. -/
theorem beq_iff {v w : LspAny} (hv : v.WellFormed) (hw : w.WellFormed) :
    (v == w) = true ↔ v.toJson.dropZeroSign = w.toJson.dropZeroSign := by
  rw [beq_toJson hv hw, Json.beq_iff (wellFormed_toJson hv) (wellFormed_toJson hw)]

/-- A well-formed value is null when its document is. -/
theorem isNull_iff {v : LspAny} (hv : v.WellFormed) :
    v.isNull = true ↔ v.toJson.dropZeroSign = .null := by
  cases hv with
  | null => exact iff_of_true rfl rfl
  | decimal f hf =>
    rw [toJson_decimal hf]
    exact iff_of_false nofun nofun
  | bool _ | integer _ | uinteger _ | string _ | array _ _ | object _ _ _ =>
    exact iff_of_false nofun nofun

/-- Equal values are the same parameters but for the signs of zeros: both are left out, or none. -/
theorem beq_iff_asParams {v w : LspAny} (hv : v.WellFormed) (hw : w.WellFormed) :
    (v == w) = true ↔
      v.asParams.map Json.dropZeroSign = w.asParams.map Json.dropZeroSign := by
  have hnull := isNull_iff hv
  have hnull' := isNull_iff hw
  rw [beq_iff hv hw, asParams, asParams]
  split <;> split <;> grind

/-- Equality of values is that of their documents, and so it is an equivalence.  A message says the
same with either of two equal values in it, wherever they stand, but for the signs of its zeros; and
no message does so with two others. -/
theorem equality_of_documents {u v w : LspAny} (hu : u.WellFormed) (hv : v.WellFormed)
    (hw : w.WellFormed) :
    ((u == v) = true ↔ (u.toJson == v.toJson) = true) ∧
      (u == u) = true ∧
      ((u == v) = true → (v == u) = true) ∧
      ((u == v) = true → (v == w) = true → (u == w) = true) ∧
      ((u == v) = true ↔
        u.asParams.map Json.dropZeroSign = v.asParams.map Json.dropZeroSign) ∧
      ∀ message : Json.Hole, (u == v) = true ↔
        (message.fill (codec.encode u)).dropZeroSign =
          (message.fill (codec.encode v)).dropZeroSign := by
  refine ⟨by rw [beq_toJson hu hv], (beq_iff hu hu).2 rfl, fun h => ?_, fun h h' => ?_,
    beq_iff_asParams hu hv, fun message => ?_⟩
  · exact (beq_iff hv hu).2 ((beq_iff hu hv).1 h).symm
  · exact (beq_iff hu hw).2 (((beq_iff hu hv).1 h).trans ((beq_iff hv hw).1 h'))
  · -- The same text around them makes no difference.
    rw [message.dropZeroSign_fill, beq_iff hu hv]
    show _ ↔ u.write.dropZeroSign = v.write.dropZeroSign
    rw [write_eq_toJson hu.isAscending, write_eq_toJson hv.isAscending]

/-- A value that holds a positive integer and a zero. -/
def exampleRange (n : LspAny) (zero : Float) : LspAny :=
  .object [("range", .array [n, .decimal zero])]

/-- The range can be written when its numbers can. -/
theorem wellFormed_exampleRange {n : LspAny} (hn : n.WellFormed) {zero : Float}
    (hzero : zero.isFinite = true) : (exampleRange n zero).WellFormed :=
  .single <| .array _ <|
    List.forall_mem_cons.2 ⟨hn, List.forall_mem_singleton.2 (.decimal zero hzero)⟩

/-- A notification with something in place of its parameters. -/
def exampleTelemetry : Json.Hole :=
  .member [("jsonrpc", .string "2.0"), ("method", .string "telemetry/event")] "params" .here []

/-- Neither the word of the integer nor the sign of the zero tells the values apart. -/
theorem equality_of_exampleRange :
    (exampleRange (.integer 5) 0).WellFormed ∧ (exampleRange (.uinteger 5) (-0)).WellFormed ∧
    (exampleRange (.uinteger 5) 0).WellFormed ∧
    (exampleRange (.integer 5) 0 == exampleRange (.uinteger 5) (-0)) = true ∧
    (exampleRange (.uinteger 5) (-0) == exampleRange (.integer 5) 0) = true ∧
    (exampleRange (.integer 5) 0 == exampleRange (.uinteger 5) 0) = true ∧
    (exampleTelemetry.fill (codec.encode (exampleRange (.integer 5) 0))).dropZeroSign =
      (exampleTelemetry.fill (codec.encode (exampleRange (.uinteger 5) (-0)))).dropZeroSign := by
  have hu : (exampleRange (.integer 5) 0).WellFormed :=
    wellFormed_exampleRange (.integer 5) rfl
  have hv : (exampleRange (.uinteger 5) (-0)).WellFormed :=
    wellFormed_exampleRange (.uinteger 5) rfl
  have hw : (exampleRange (.uinteger 5) 0).WellFormed :=
    wellFormed_exampleRange (.uinteger 5) rfl
  obtain ⟨-, -, hsymm, htrans, -, hfill⟩ := equality_of_documents hu hv hw
  have huv : (exampleRange (.integer 5) 0 == exampleRange (.uinteger 5) (-0)) = true := rfl
  exact ⟨hu, hv, hw, huv, hsymm huv, htrans huv rfl, (hfill exampleTelemetry).1 huv⟩

end LspAny

end LanguageServer
