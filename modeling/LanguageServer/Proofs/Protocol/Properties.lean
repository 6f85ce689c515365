import LanguageServer.Proofs.Codec.Recovers
import LanguageServer.Proofs.Codec.Rest
import LanguageServer.Proofs.Server.Payload

/-!
# Properties that the client adds

Action items and formatting options take members that the protocol does not name.  Such an object
goes through its record unchanged, and an item that is offered to the user and sent back by the
client is the item that was offered: `properties_pass_through`.
-/

namespace LanguageServer

/-! ## What the records keep -/

/-- The properties of an action item can be written and read, and none of them is its title. -/
def MessageActionItem.WellFormed (i : MessageActionItem) : Prop := record.Beside i.properties

/-- An action item keeps the members that it does not declare. -/
theorem MessageActionItem.keepsRest :
    record.KeepsRest (·.properties) fun i d => { i with properties := d } where
  nodup := by decide
  build_make _ := rfl
  own := ⟨.required .string, trivial⟩
  encodeParts_eq _ := List.append_nil _
  partsGive _ _ h := ⟨h, trivial⟩
  showsOwn_put _ _ _ h := h
  properties_put _ _ := rfl

/-- The properties of formatting options can be written and read, and none of them is called like an
option that the protocol names. -/
def FormattingOptions.WellFormed (o : FormattingOptions) : Prop := record.Beside o.properties

/-- Formatting options keep the members that they do not declare. -/
theorem FormattingOptions.keepsRest :
    record.KeepsRest (·.properties) fun o d => { o with properties := d } where
  nodup := by decide
  build_make _ := rfl
  own := ⟨.required .uint32, .required .bool, .trailing .bool, .trailing .bool, .trailing .bool,
    trivial⟩
  encodeParts_eq _ := List.append_nil _
  partsGive _ _ h := ⟨h, trivial⟩
  showsOwn_put _ _ _ h := h
  properties_put _ _ := rfl

/-- Formatting options are recovered with their properties. -/
theorem FormattingOptions.recovers {o : FormattingOptions} (h : o.WellFormed) :
    codec.Recovers o := by
  obtain ⟨properties, hread, heq, -⟩ := keepsRest.readsBack (x := o) h
  refine ⟨{ o with properties }, hread, ?_⟩
  show instBEqFormattingOptions.beq _ _ = true
  simp only [instBEqFormattingOptions.beq, beq_self_eq_true, heq, Bool.and_self]

/-- An object that shows the fields of a record goes through it unchanged. -/
theorem Record.KeepsRest.exists_ofJson {σ : Type} {r : Record σ}
    {properties : σ → Dictionary LspAny} {put : σ → Dictionary LspAny → σ}
    (h : r.KeepsRest properties put) {members : Members Json} (hj : (Json.object members).IsPlain)
    {x : σ} (hx : r.fields.ShowsOwn (fun k => members.get? k) x) :
    ∃ y, r.codec.ofJson (.object members) = .ok y ∧ r.codec.encode y = .object members := by
  obtain ⟨hm, heach⟩ := hj.of_object
  have hw : ∀ m ∈ members, m.2.WellFormed := fun m hmem => (heach m hmem).wellFormed
  have hn : ∀ m ∈ r.left members, m.2.IsNarrow := fun m hmem =>
    (heach m (List.mem_of_mem_filter hmem)).isNarrow
  exact ⟨_, h.decode_object hm hw hx .value, h.encode_object hm hw hn hx⟩

/-! ## Items that are offered -/

namespace MessageActionItem

variable {i : MessageActionItem}

/-- What is written of an action item is plain. -/
theorem isPlain_encode (h : i.WellFormed) : (codec.encode i).IsPlain := by
  refine Json.isPlain_ofPairs ?_
  show ∀ m ∈ ("title", .string i.title) :: ((Part.rest LspAny.codec).encode i.properties ++ []), _
  rw [List.append_nil]
  refine List.forall_mem_cons.2 ⟨Json.isPlain_string i.title, ?_⟩
  refine List.forall_mem_map.2 fun m hm => ?_
  obtain ⟨hwell, hnarrow⟩ := LspAny.plain_encode (h.values m hm)
  exact ⟨hwell, hnarrow⟩

/-- An object with a title goes through an item unchanged. -/
theorem exists_ofJson_object {members : Members Json} (hj : (Json.object members).IsPlain)
    {title : String} (ht : members.get? "title" = some (.string title)) :
    ∃ i, codec.ofJson (.object members) = .ok i ∧ codec.encode i = .object members :=
  -- Only its title counts of the item that is named here; its properties are replaced.
  keepsRest.exists_ofJson hj (x := .plain title) ⟨ht, trivial⟩

/-- An item comes back as an equal one, which is written like it. -/
theorem exists_ofJson (h : i.WellFormed) :
    ∃ i', codec.option.ofJson (codec.encode i) = .ok (some i') ∧ (i' == i) = true ∧
      codec.encode i' = codec.encode i := by
  obtain ⟨d, hd, heq, hencode⟩ := keepsRest.readsBack (x := i) h
  refine ⟨{ i with properties := d }, (hd.some nofun).decode_eq .value, ?_, hencode⟩
  show (i.title == i.title && d == i.properties) = true
  rw [beq_self_eq_true, heq, Bool.and_self]

end MessageActionItem

/-- The message and its buttons are shown to the client as they are. -/
theorem ShowMessageRequestParams.member?_ofTyped {params : ShowMessageRequestParams}
    {items : List MessageActionItem} (ha : params.actions = some items)
    (h : ∀ i ∈ items, i.WellFormed) :
    (LspAny.ofTyped codec params).toJson.member? "actions" =
      some (.array (items.map MessageActionItem.codec.encode)) := by
  obtain ⟨level, message, actions⟩ := params
  obtain rfl : actions = some items := ha
  let pairs : Members Json := [("type", .int level.toNat), ("message", .string message),
    ("actions", .array (items.map MessageActionItem.codec.encode))]
  have hencode : codec.encode ⟨level, message, some items⟩ = .ofPairs pairs := rfl
  -- All that is sent is plain, so that it is sent as it was written.
  have hplain : (Json.ofPairs pairs).IsPlain := by
    refine Json.isPlain_ofPairs (List.forall_mem_cons.2 ⟨?_, List.forall_mem_cons.2 ⟨?_,
      List.forall_mem_singleton.2 ?_⟩⟩)
    · cases level <;> exact Json.isPlain_int (by decide) (by decide)
    · exact Json.isPlain_string message
    · refine Json.isPlain_array (List.forall_mem_map.2 fun i hi => ?_)
      exact MessageActionItem.isPlain_encode (h i hi)
  rw [LspAny.ofTyped, hencode,
    LspAny.toJson_ofJson_of_isNarrow hplain.wellFormed hplain.isNarrow]
  have hkeys : pairs.keys.Nodup := by
    show ["type", "message", "actions"].Nodup
    decide
  exact Members.get?_ofList hkeys "actions"

/-- What the client adds to an action item or to formatting options is kept.

* Every object with a title, whatever else it holds, is read as an action item that is written as
  this object, if its integers are 32-bit words.
* So is every object with a width and a choice of blanks as formatting options, where the other
  members that the protocol names are missing or truth values.
* The items under a message go to the client as they are written, and the one that the client sends
  back as its result comes back to the callback as an equal one; whatever else is added to it comes
  back with it. -/
theorem properties_pass_through :
    (∀ members : Members Json, (Json.object members).IsPlain →
      (∃ title, members.get? "title" = some (.string title)) →
      ∃ i, MessageActionItem.codec.ofJson (.object members) = .ok i ∧
        MessageActionItem.codec.encode i = .object members) ∧
    (∀ members : Members Json, (Json.object members).IsPlain →
      (∃ n : UInt32, members.get? "tabSize" = some (.int n.toNat)) →
      (∃ b, members.get? "insertSpaces" = some (.bool b)) →
      (∀ key ∈ ["trimTrailingWhitespace", "insertFinalNewline", "trimFinalNewlines"],
        ∃ flag : Option Bool, members.get? key = flag.map .bool) →
      ∃ o, FormattingOptions.codec.ofJson (.object members) = .ok o ∧
        FormattingOptions.codec.encode o = .object members) ∧
    ∀ (params : ShowMessageRequestParams) (items : List MessageActionItem)
        (k : Outcome (Option MessageActionItem) → Activity),
      params.actions = some items → (∀ i ∈ items, i.WellFormed) →
      ∃ (sent : LspAny) (next : Outcome LspAny → Activity),
        Client.showMessageRequest params k = .call Method.showMessageRequest sent next ∧
        sent.toJson.member? "actions" =
          some (.array (items.map MessageActionItem.codec.encode)) ∧
        (∀ i ∈ items, ∀ response : ResponseMessage,
          response.toResult = .ok (MessageActionItem.codec.encode i) →
          ∃ i', next (Calls.resultOf response) = k (.ok (some i')) ∧ (i' == i) = true ∧
            MessageActionItem.codec.encode i' = MessageActionItem.codec.encode i) ∧
        ∀ members : Members Json, (Json.object members).IsPlain →
          (∃ title, members.get? "title" = some (.string title)) →
          ∀ response : ResponseMessage, response.toResult = .ok (.object members) →
          ∃ i, next (Calls.resultOf response) = k (.ok (some i)) ∧
            MessageActionItem.codec.encode i = .object members := by
  refine ⟨?item, ?options, ?echo⟩
  case item =>
    rintro members hj ⟨title, htitle⟩
    exact MessageActionItem.exists_ofJson_object hj htitle
  case options =>
    rintro members hj ⟨tabSize, htab⟩ ⟨insertSpaces, hspaces⟩ hflags
    obtain ⟨trim, htrim⟩ := hflags "trimTrailingWhitespace" (by decide)
    obtain ⟨final, hfinal⟩ := hflags "insertFinalNewline" (by decide)
    obtain ⟨trimFinal, htrimFinal⟩ := hflags "trimFinalNewlines" (by decide)
    let o : FormattingOptions := ⟨tabSize, insertSpaces, trim, final, trimFinal, .empty⟩
    exact FormattingOptions.keepsRest.exists_ofJson hj (x := o)
      ⟨htab, hspaces, htrim, hfinal, htrimFinal, trivial⟩
  case echo =>
    intro params items k hactions hitems
    refine ⟨_, _, Client.request_apply _ _ params _ k,
      ShowMessageRequestParams.member?_ofTyped hactions hitems, ?_, ?_⟩
    · intro i hi response hr
      obtain ⟨i', hread, heq, hencode⟩ := MessageActionItem.exists_ofJson (hitems i hi)
      refine ⟨i', ?_, heq, hencode⟩
      rw [Client.receive_resultOf hr (MessageActionItem.isPlain_encode (hitems i hi)), hread]
      rfl
    · rintro members hj ⟨title, htitle⟩ response hr
      obtain ⟨i, hread, hencode⟩ := MessageActionItem.exists_ofJson_object hj htitle
      refine ⟨i, ?_, hencode⟩
      -- The result may be null in general, which an object is not.
      have hsome : MessageActionItem.codec.option.ofJson (.object members) = .ok (some i) :=
        congrArg (Except.map some) hread
      rw [Client.receive_resultOf hr hj, hsome]
      rfl

/-- A button with a property, as the user's client sends it. -/
def MessageActionItem.exampleMembers : Members Json :=
  [("data", .null), ("title", .string "Retry")]

/-- A button with a property. -/
def MessageActionItem.exampleItem : MessageActionItem :=
  ⟨"Retry", ⟨[("data", .null)], List.pairwise_singleton _ _⟩⟩

/-- The item can be written. -/
theorem MessageActionItem.wellFormed_exampleItem : exampleItem.WellFormed where
  values := List.forall_mem_singleton.2 .null
  keys := by decide

/-- Formatting options with properties of the client. -/
def FormattingOptions.exampleMembers : Members Json :=
  [("indent", .array [.int (-1), .string "x"]), ("insertSpaces", .bool true), ("quotes", .null),
    ("tabSize", .int 4)]

/-- The document is plain. -/
theorem FormattingOptions.isPlain_exampleMembers : (Json.object exampleMembers).IsPlain := by
  suffices heach : ∀ m ∈ exampleMembers, m.2.IsPlain from Json.isPlain_ofPairs heach
  simp only [exampleMembers, List.forall_mem_cons, List.not_mem_nil, IsEmpty.forall_iff,
    implies_true, and_true]
  refine ⟨Json.isPlain_array (List.forall_mem_cons.2 ⟨?_, List.forall_mem_singleton.2 ?_⟩),
    Json.isPlain_bool true, Json.isPlain_null, Json.isPlain_int (by decide) (by decide)⟩
  · exact Json.isPlain_int (by decide) (by decide)
  · exact Json.isPlain_string "x"

/-- The properties come back, null and a nested list among them, and so does the button. -/
theorem properties_pass_through_examples :
    (∃ i, MessageActionItem.codec.ofJson (.object MessageActionItem.exampleMembers) = .ok i ∧
      MessageActionItem.codec.encode i = .object MessageActionItem.exampleMembers) ∧
    (∃ o, FormattingOptions.codec.ofJson (.object FormattingOptions.exampleMembers) = .ok o ∧
      FormattingOptions.codec.encode o = .object FormattingOptions.exampleMembers) ∧
    ∀ k : Outcome (Option MessageActionItem) → Activity,
      ∃ (sent : LspAny) (next : Outcome LspAny → Activity),
        Client.showMessageRequest ⟨.error, "Failed", some [.exampleItem]⟩ k =
          .call Method.showMessageRequest sent next ∧
        sent.toJson.member? "actions" = some (.array [.object MessageActionItem.exampleMembers]) ∧
        ∃ i', next (Calls.resultOf (.success (.string "1")
            (.object MessageActionItem.exampleMembers))) = k (.ok (some i')) ∧
          (i' == MessageActionItem.exampleItem) = true := by
  obtain ⟨hitem, hoptions, hrequest⟩ := properties_pass_through
  refine ⟨?_, ?_, fun k => ?_⟩
  · exact hitem _ (MessageActionItem.isPlain_encode MessageActionItem.wellFormed_exampleItem)
      ⟨"Retry", rfl⟩
  · refine hoptions _ FormattingOptions.isPlain_exampleMembers ⟨4, rfl⟩ ⟨true, rfl⟩ ?_
    simp only [List.forall_mem_cons, List.not_mem_nil, IsEmpty.forall_iff, implies_true, and_true]
    exact ⟨⟨none, rfl⟩, ⟨none, rfl⟩, ⟨none, rfl⟩⟩
  · -- The client sends back the very item that it was shown.
    obtain ⟨sent, next, hcall, hsent, hecho, -⟩ :=
      hrequest ⟨.error, "Failed", some [.exampleItem]⟩ _ k rfl
        (List.forall_mem_singleton.2 MessageActionItem.wellFormed_exampleItem)
    obtain ⟨i', hnext, heq, -⟩ := hecho _ (List.mem_singleton_self _)
      (.success (.string "1") (.object MessageActionItem.exampleMembers)) rfl
    exact ⟨sent, next, hcall, hsent, i', hnext, heq⟩

end LanguageServer
