import LanguageServer.Proofs.Codec.Record
import LanguageServer.Protocol.Message

/-!
# Messages are read back

The three kinds of messages share one form and are told apart by two keys.
`RpcMessage.survives_and_told_apart` says that every message is read back as one of its kind with
the same content, that a response without an error shows a result, and that the two keys decide for
every object, whatever else it holds.

A document that may be left out says nothing when it is null: `RpcMessage.withoutNull` is a message
without such documents.
-/

namespace LanguageServer

open Json (Source)

/-! ## Messages without null -/

/-- Data that are null are left out. -/
def ResponseError.withoutNull (e : ResponseError) : ResponseError :=
  { e with data := e.data.filter fun j => !j.isNull }

/-- Parameters that are null are left out. -/
def RequestMessage.withoutNull (m : RequestMessage) : RequestMessage :=
  { m with params := m.params.filter fun j => !j.isNull }

/-- Parameters that are null are left out. -/
def NotificationMessage.withoutNull (m : NotificationMessage) : NotificationMessage :=
  { m with params := m.params.filter fun j => !j.isNull }

/-- A result and data that are null are left out. -/
def ResponseMessage.withoutNull (m : ResponseMessage) : ResponseMessage :=
  { m with
    result := m.result.filter fun j => !j.isNull
    error := m.error.map ResponseError.withoutNull }

/-- Documents that are null are left out. -/
def RpcMessage.withoutNull : RpcMessage → RpcMessage
  | .request m => .request m.withoutNull
  | .notification m => .notification m.withoutNull
  | .response m => .response m.withoutNull

/-- The documents that a message carries. -/
def RpcMessage.documents : RpcMessage → List Json
  | .request m => m.params.toList
  | .notification m => m.params.toList
  | .response m => m.result.toList ++ (m.error.bind (·.data)).toList

/-- A missing result and one that is null come to the same. -/
theorem ResponseMessage.toResult_withoutNull (m : ResponseMessage) :
    m.withoutNull.toResult = m.toResult.mapError ResponseError.withoutNull := by
  simp only [toResult, withoutNull]
  cases m.error with
  | some e => rfl
  | none =>
    cases m.result with
    | none => rfl
    | some j => cases j <;> rfl

/-! ## The parts of a message -/

/-- Identifiers are read back, be they numbers or texts. -/
theorem IntOrString.isFaithful : IntOrString.codec.IsFaithful where
  readsBack
    | .string s => ⟨.string s, fun _ => rfl⟩
    | .int n => by
      -- An integer is written and read like any 32-bit word.
      obtain ⟨hw, -⟩ := Codec.IsFaithful.int32.readsBack n
      have hle := n.le_toInt
      have hlt := n.toInt_lt
      refine ⟨hw, fun p => ?_⟩
      simp only [IntOrString.codec, Source.ofJson]
      rw [if_pos (by omega), Int32.ofInt_toInt]
  ne_null
    | .int _ | .string _ => nofun

/-- An error object is read back, but for data that are null. -/
theorem ResponseError.readsBack {e : ResponseError} (h : ∀ j ∈ e.data, j.WellFormed) :
    codec.ReadsBack e e.withoutNull :=
  Record.readsBack (by decide) rfl
    ⟨Field.IsFaithful.required .int32 _, Field.IsFaithful.required .string _, .json h, trivial⟩

section Fields

variable {m : RequestMessage} {n : NotificationMessage} {r : ResponseMessage}

/-- The version is read back. -/
private theorem version_readsBack (v : String) :
    (Field.orElse Codec.string protocolVersion).ReadsBack v v :=
  Field.IsFaithful.orElse .string protocolVersion v

/-- The fields of a request are read back, but for parameters that are null. -/
theorem RequestMessage.fields_readsBack (h : ∀ j ∈ m.params, j.WellFormed) :
    record.fields.ReadsBack m m.withoutNull :=
  ⟨version_readsBack _, Field.IsFaithful.required IntOrString.isFaithful _,
    Field.IsFaithful.required .string _, .trailing (.json h), trivial⟩

/-- The fields of a notification are read back, but for parameters that are null. -/
theorem NotificationMessage.fields_readsBack (h : ∀ j ∈ n.params, j.WellFormed) :
    record.fields.ReadsBack n n.withoutNull :=
  ⟨version_readsBack _, Field.IsFaithful.required .string _, .trailing (.json h), trivial⟩

/-- A response is read back from the members that stand for it. -/
theorem RawResponse.fields_readsBack (hresult : ∀ j ∈ r.result, j.WellFormed)
    (hdata : ∀ e ∈ r.error, ∀ j ∈ e.data, j.WellFormed) :
    record.fields.ReadsBack r.toRaw
      ⟨r.jsonrpc, r.id, r.withoutNull.result, r.withoutNull.error⟩ := by
  have herror : (Field.trailing ResponseError.codec).ReadsBack r.error
      (r.error.map ResponseError.withoutNull) := by
    refine .trailing ?_
    cases he : r.error with
    | none => exact .omitted rfl rfl
    | some e => exact .some (ResponseError.readsBack (hdata e he)) nofun
  have hid := Field.IsFaithful.nullableTrailing IntOrString.isFaithful r.id
  cases hr : r.result with
  | some j =>
    have hj : (Field.trailing Codec.json).ReadsBack (some j)
        (Option.filter (fun j => !j.isNull) (some j)) := .trailing (.json (hr ▸ hresult))
    simp only [ResponseMessage.toRaw, ResponseMessage.withoutNull, hr]
    exact ⟨version_readsBack _, hid, hj, herror, trivial⟩
  | none =>
    -- The null that is written in place of a missing result is read as none again.
    have hnull : (Field.trailing Codec.json).ReadsBack (some .null) none :=
      .written rfl .null fun _ => rfl
    cases he : r.error with
    | none =>
      rw [he] at herror
      simp only [ResponseMessage.toRaw, ResponseMessage.withoutNull, hr, he]
      exact ⟨version_readsBack _, hid, hnull, herror, trivial⟩
    | some e =>
      rw [he] at herror
      simp only [ResponseMessage.toRaw, ResponseMessage.withoutNull, hr, he]
      exact ⟨version_readsBack _, hid, .omitted rfl rfl, herror, trivial⟩

end Fields

/-- A request is read back, but for parameters that are null. -/
theorem RequestMessage.readsBack {m : RequestMessage} (h : ∀ j ∈ m.params, j.WellFormed) :
    codec.ReadsBack m m.withoutNull :=
  Record.readsBack (by decide) rfl (fields_readsBack h)

/-- A notification is read back, but for parameters that are null. -/
theorem NotificationMessage.readsBack {m : NotificationMessage}
    (h : ∀ j ∈ m.params, j.WellFormed) : codec.ReadsBack m m.withoutNull :=
  Record.readsBack (by decide) rfl (fields_readsBack h)

/-- A response is read back, but for what is null in it. -/
theorem ResponseMessage.readsBack {m : ResponseMessage} (hresult : ∀ j ∈ m.result, j.WellFormed)
    (hdata : ∀ e ∈ m.error, ∀ j ∈ e.data, j.WellFormed) : codec.ReadsBack m m.withoutNull :=
  .map (Record.readsBack (by decide) rfl (RawResponse.fields_readsBack hresult hdata))

/-! ## Telling messages apart -/

/-- Whether an object names a method. -/
def Json.hasMethod (j : Json) : Bool := (j.member? "method").isSome

/-- Whether an object has an identifier, which null is none. -/
def Json.hasId (j : Json) : Bool := (j.member? "id").any fun id => !id.isNull

namespace RpcMessage

/-- The two keys say what an object is read as. -/
theorem ofJson_object (members : List (String × Json)) :
    ofJson (.object members) =
      if (Json.object members).hasMethod then
        if (Json.object members).hasId then
          (RequestMessage.codec.ofJson (.object members)).map .request
        else (NotificationMessage.codec.ofJson (.object members)).map .notification
      else (ResponseMessage.codec.ofJson (.object members)).map .response :=
  rfl

/-- The members of an object that is made of pairs with different keys. -/
theorem member?_ofPairs {pairs : List (String × Json)} (h : (Members.keys pairs).Nodup)
    (key : String) : (Json.ofPairs pairs).member? key = Members.get? key pairs :=
  Members.get?_ofList h key

/-- A request shows its method and its identifier. -/
theorem keys_request {m : RequestMessage} (h : ∀ j ∈ m.params, j.WellFormed) :
    (RequestMessage.codec.encode m).hasMethod = true ∧
      (RequestMessage.codec.encode m).hasId = true := by
  have hreads := RequestMessage.fields_readsBack h
  have hmember (key : String) : (RequestMessage.codec.encode m).member? key = _ :=
    member?_ofPairs (Fields.nodup_encode hreads (by decide)) key
  simp only [Json.hasMethod, Json.hasId, hmember]
  refine ⟨rfl, ?_⟩
  show (!(IntOrString.codec.encode m.id).isNull) = true
  cases m.id <;> rfl

/-- A notification shows its method and no identifier. -/
theorem keys_notification {m : NotificationMessage} (h : ∀ j ∈ m.params, j.WellFormed) :
    (NotificationMessage.codec.encode m).hasMethod = true ∧
      (NotificationMessage.codec.encode m).hasId = false := by
  have hreads := NotificationMessage.fields_readsBack h
  have hmember (key : String) : (NotificationMessage.codec.encode m).member? key = _ :=
    member?_ofPairs (Fields.nodup_encode hreads (by decide)) key
  simp only [Json.hasMethod, Json.hasId, hmember]
  refine ⟨rfl, ?_⟩
  -- No field of a notification has this key, whatever its parameters hold.
  rw [Fields.get?_encode_eq_none hreads (by decide)]
  rfl

/-- A response shows no method, and a result if it shows no error. -/
theorem keys_response {m : ResponseMessage} (hresult : ∀ j ∈ m.result, j.WellFormed)
    (hdata : ∀ e ∈ m.error, ∀ j ∈ e.data, j.WellFormed) :
    (ResponseMessage.codec.encode m).hasMethod = false ∧
      (m.error = none → (ResponseMessage.codec.encode m).member? "result" =
        some (m.result.getD .null)) := by
  have hreads := RawResponse.fields_readsBack hresult hdata
  have hmember (key : String) : (ResponseMessage.codec.encode m).member? key = _ :=
    member?_ofPairs (Fields.nodup_encode hreads (by decide)) key
  simp only [Json.hasMethod, hmember]
  constructor
  · rw [Fields.get?_encode_eq_none hreads (by decide)]
    rfl
  · intro he
    -- A result that is missing is written as null.
    cases hr : m.result with
    | none => simp only [ResponseMessage.toRaw, hr, he]; rfl
    | some j => simp only [ResponseMessage.toRaw, hr, he]; rfl

/-- The documents in a response are its result and the data of its error. -/
theorem documents_response {r : ResponseMessage} :
    (∀ j ∈ (response r).documents, j.WellFormed) ↔
      (∀ j ∈ r.result, j.WellFormed) ∧ ∀ e ∈ r.error, ∀ j ∈ e.data, j.WellFormed := by
  simp only [documents, List.forall_mem_append, Option.mem_toList]
  refine and_congr_right fun _ => ⟨fun h e he j hj => ?_, fun h j hj => ?_⟩
  · exact h j (Option.mem_bind_iff.2 ⟨e, he, hj⟩)
  · obtain ⟨e, he, hj⟩ := Option.mem_bind_iff.1 hj
    exact h e he j hj

/-- Every message is read back, but for documents that are null. -/
theorem readsBack {m : RpcMessage} (h : ∀ j ∈ m.documents, j.WellFormed) :
    codec.ReadsBack m m.withoutNull := by
  cases m with
  | request m =>
    have hparams : ∀ j ∈ m.params, j.WellFormed := fun j hj => h j (Option.mem_toList.2 hj)
    -- A request shows a method and an identifier.
    obtain ⟨hm, hid⟩ := keys_request hparams
    show codec.ReadsBack (.request m) (.request m.withoutNull)
    refine .alternative (RequestMessage.readsBack hparams) rfl ?_
    exact (ofJson_object _).trans ((if_pos hm).trans (if_pos hid))
  | notification m =>
    have hparams : ∀ j ∈ m.params, j.WellFormed := fun j hj => h j (Option.mem_toList.2 hj)
    -- A notification shows a method and no identifier.
    obtain ⟨hm, hid⟩ := keys_notification hparams
    show codec.ReadsBack (.notification m) (.notification m.withoutNull)
    refine .alternative (NotificationMessage.readsBack hparams) rfl ?_
    exact (ofJson_object _).trans ((if_pos hm).trans (if_neg (Bool.eq_false_iff.1 hid)))
  | response m =>
    obtain ⟨hresult, hdata⟩ := documents_response.1 h
    -- A response shows no method.
    obtain ⟨hm, -⟩ := keys_response hresult hdata
    show codec.ReadsBack (.response m) (.response m.withoutNull)
    refine .alternative (ResponseMessage.readsBack hresult hdata) rfl ?_
    exact (ofJson_object _).trans (if_neg (Bool.eq_false_iff.1 hm))

/-! ## What an object is read as -/

/-- A message is read off the document as a whole, so that its errors name no place. -/
theorem codec_ofJson {j : Json} (hj : j.WellFormed) :
    codec.ofJson j = (ofJson j).mapError DecodeError.withoutPlace := by
  have hv : (Source.ofJson .value j).value = .ok j := by
    rw [Source.value, Source.toJson_ofJson hj .value]
    rfl
  simp only [Codec.ofJson, codec, Codec.byValue, hv]
  rfl

/-- What is read one way and wrapped is what that way reads. -/
private theorem map_eq_ok {α : Type} {d : Decoded α} {wrap : α → RpcMessage}
    (hwrap : Function.Injective wrap) (a : α) :
    (d.map wrap).mapError DecodeError.withoutPlace = .ok (wrap a) ↔ d = .ok a := by
  cases d with
  | error e => exact ⟨nofun, nofun⟩
  | ok b => exact ⟨fun h => congrArg _ (hwrap (Except.ok.inj h)), fun h => by rw [h]; rfl⟩

/-- What is read one way and wrapped is wrapped in no other way. -/
private theorem map_ne_ok {α : Type} {d : Decoded α} {wrap : α → RpcMessage} {m : RpcMessage}
    (hwrap : ∀ a, wrap a ≠ m) : (d.map wrap).mapError DecodeError.withoutPlace ≠ .ok m := by
  cases d with
  | error e => exact nofun
  | ok b => exact fun h => hwrap b (Except.ok.inj h)

variable {j : Json}

/-- A request has a method and an identifier. -/
theorem ofJson_eq_request_iff (hj : j.WellFormed) (q : RequestMessage) :
    codec.ofJson j = .ok (.request q) ↔
      (j.isObject ∧ j.hasMethod ∧ j.hasId) ∧ RequestMessage.codec.ofJson j = .ok q := by
  rw [codec_ofJson hj]
  cases j with
  | null | bool _ | number _ | string _ | array _ => exact ⟨nofun, fun h => nomatch h.1.1⟩
  | object members =>
    rw [ofJson_object]
    -- The method and the identifier decide, in this order.
    split <;> rename_i hm
    · split <;> rename_i hid
      · exact (map_eq_ok (fun _ _ => RpcMessage.request.inj) q).trans
          (iff_and_self.2 fun _ => ⟨rfl, hm, hid⟩)
      · exact iff_of_false (map_ne_ok nofun) fun h => hid h.1.2.2
    · exact iff_of_false (map_ne_ok nofun) fun h => hm h.1.2.1

/-- A notification has a method and no identifier. -/
theorem ofJson_eq_notification_iff (hj : j.WellFormed) (n : NotificationMessage) :
    codec.ofJson j = .ok (.notification n) ↔
      (j.isObject ∧ j.hasMethod ∧ ¬ j.hasId) ∧ NotificationMessage.codec.ofJson j = .ok n := by
  rw [codec_ofJson hj]
  cases j with
  | null | bool _ | number _ | string _ | array _ => exact ⟨nofun, fun h => nomatch h.1.1⟩
  | object members =>
    rw [ofJson_object]
    split <;> rename_i hm
    · split <;> rename_i hid
      · -- With an id it is a request.
        exact iff_of_false (map_ne_ok nofun) fun h => h.1.2.2 hid
      · exact (map_eq_ok (fun _ _ => RpcMessage.notification.inj) n).trans
          (iff_and_self.2 fun _ => ⟨rfl, hm, hid⟩)
    · exact iff_of_false (map_ne_ok nofun) fun h => hm h.1.2.1

/-- A response has no method. -/
theorem ofJson_eq_response_iff (hj : j.WellFormed) (r : ResponseMessage) :
    codec.ofJson j = .ok (.response r) ↔
      (j.isObject ∧ ¬ j.hasMethod) ∧ ResponseMessage.codec.ofJson j = .ok r := by
  rw [codec_ofJson hj]
  cases j with
  | null | bool _ | number _ | string _ | array _ => exact ⟨nofun, fun h => nomatch h.1.1⟩
  | object members =>
    rw [ofJson_object]
    split <;> rename_i hm
    · split
      · exact iff_of_false (map_ne_ok nofun) fun h => h.1.2 hm
      · exact iff_of_false (map_ne_ok nofun) fun h => h.1.2 hm
    · -- Without a method it is a response, whatever else it has.
      exact (map_eq_ok (fun _ _ => RpcMessage.response.inj) r).trans
        (iff_and_self.2 fun _ => ⟨rfl, hm⟩)

/-- Messages survive the wire, and the keys of an object say what it is.

* Every message is read back as it was, but for documents that are null, which are left out.
* A response without an error shows a result, and a caller that waits for it gets the same before
  and after.
* An object is a request, a notification or a response by whether it has a method and an identifier
  that is not null, or it is rejected; what is no object is rejected. -/
theorem survives_and_told_apart :
    (∀ m : RpcMessage, (∀ j ∈ m.documents, j.WellFormed) →
      codec.ofJson (codec.encode m) = .ok m.withoutNull) ∧
    (∀ r : ResponseMessage, (∀ j ∈ (response r).documents, j.WellFormed) →
      (r.error = none →
        (codec.encode (.response r)).member? "result" = some (r.result.getD .null)) ∧
      ∃ r', codec.ofJson (codec.encode (.response r)) = .ok (.response r') ∧
        r'.toResult = r.toResult.mapError ResponseError.withoutNull) ∧
    (∀ j : Json, j.WellFormed →
      (∀ q, codec.ofJson j = .ok (.request q) ↔
        (j.isObject ∧ j.hasMethod ∧ j.hasId) ∧ RequestMessage.codec.ofJson j = .ok q) ∧
      (∀ n, codec.ofJson j = .ok (.notification n) ↔
        (j.isObject ∧ j.hasMethod ∧ ¬ j.hasId) ∧ NotificationMessage.codec.ofJson j = .ok n) ∧
      (∀ r, codec.ofJson j = .ok (.response r) ↔
        (j.isObject ∧ ¬ j.hasMethod) ∧ ResponseMessage.codec.ofJson j = .ok r) ∧
      (¬ j.isObject → ∃ e, codec.ofJson j = .error e)) := by
  refine ⟨fun m h => (readsBack h).ofJson_eq, fun r h => ⟨fun he => ?_, ?_⟩, fun j hj => ?_⟩
  · obtain ⟨hresult, hdata⟩ := documents_response.1 h
    exact (keys_response hresult hdata).2 he
  · exact ⟨r.withoutNull, (readsBack h).ofJson_eq, r.toResult_withoutNull⟩
  · refine ⟨ofJson_eq_request_iff hj, ofJson_eq_notification_iff hj, ofJson_eq_response_iff hj,
      fun hobject => ?_⟩
    rw [codec_ofJson hj]
    cases j with
    | object members => exact absurd rfl hobject
    | null | bool _ | number _ | string _ | array _ => exact ⟨_, rfl⟩

/-- An object with the keys of a message, as the parameters of a request, as the result of a
response beside data that are null, and as a message. -/
theorem keys_survive_and_tell_apart :
    let keys : Json := .object [("id", .null), ("method", .string "exit")]
    let request : RpcMessage := .request { id := .int 7, method := "echo", params := some keys }
    let failed : ResponseMessage :=
      { id := none, result := some keys, error := some ⟨-32800, "gone", some .null⟩ }
    let empty : ResponseMessage := { id := some (.string "7") }
    codec.ofJson (codec.encode request) = .ok request ∧
      (∃ r, codec.ofJson (codec.encode (.response failed)) = .ok (.response r) ∧
        r.toResult = .error ⟨-32800, "gone", none⟩) ∧
      (codec.encode (.response empty)).member? "result" = some .null ∧
      codec.ofJson keys = .ok (.notification { method := "exit" }) ∧
      ∃ e, codec.ofJson (.array [keys]) = .error e := by
  intro keys request failed empty
  -- The parameters of the request have keys that would tell a message apart.
  have hkeys : keys.WellFormed := .pair (by decide) .null (.string _)
  have hrequest : ∀ j ∈ request.documents, j.WellFormed := by
    rintro j (_ | ⟨_, ⟨⟩⟩)
    exact hkeys
  have hfailed : ∀ j ∈ (response failed).documents, j.WellFormed := by
    rintro j (_ | ⟨_, _ | ⟨_, ⟨⟩⟩⟩)
    · exact hkeys
    · exact .null
  obtain ⟨hsurvives, hresponse, htold⟩ := survives_and_told_apart
  refine ⟨hsurvives request hrequest, (hresponse failed hfailed).2,
    (hresponse empty (List.forall_mem_nil _)).1 rfl, ?_, ?_⟩
  · exact ((htold keys hkeys).2.1 _).2 ⟨⟨rfl, rfl, Bool.false_ne_true⟩, rfl⟩
  · have harray : (Json.array [keys]).WellFormed := .array _ (by simpa using hkeys)
    exact (htold (.array [keys]) harray).2.2.2 Bool.false_ne_true

end RpcMessage

end LanguageServer
