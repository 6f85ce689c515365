import LanguageServer.Proofs.Handler.Dispatch
import LanguageServer.Proofs.Protocol.Initialize
import LanguageServer.Proofs.Protocol.ServerCapabilities

/-!
# The encoding that both sides count in

A client offers encodings of positions by their names, and a server prefers some to others.
`PositionEncodingKind.Agreed` is the encoding that this leads to: the first of the server's that is
on offer, or else UTF-16.

* `InitializeParams.positionEncodings_eq`: what is read of an offer are the names in it that are
  known.
* `Handler.encoding_of_offers`: a server answers with the encoding that is agreed on, and with the
  same one however the client puts its offer.
-/

namespace LanguageServer

/-! ## What is agreed on -/

namespace PositionEncodingKind

/-- The encoding that comes of those a server prefers and the names that a client offers. -/
inductive Agreed (preferred : List PositionEncodingKind) (names : List String) :
    PositionEncodingKind → Prop
  /-- The first one of the server's that is on offer. -/
  | first {before after : List PositionEncodingKind} {e : PositionEncodingKind} :
    preferred = before ++ e :: after → e.name ∈ names → (∀ e' ∈ before, e'.name ∉ names) →
    Agreed preferred names e
  /-- There is none. -/
  | fallback : (∀ e ∈ preferred, e.name ∉ names) → Agreed preferred names .utf16

variable {preferred : List PositionEncodingKind} {names names' : List String}
  {e : PositionEncodingKind}

/-- The first of the preferred encodings that is named, or else UTF-16, is agreed on. -/
theorem agreed_find? (preferred : List PositionEncodingKind) (names : List String) :
    Agreed preferred names ((preferred.find? fun e => names.contains e.name).getD .utf16) := by
  cases h : preferred.find? fun e => names.contains e.name with
  | none => exact .fallback fun e he => by simpa using List.find?_eq_none.1 h e he
  | some e =>
    obtain ⟨he, before, after, rfl, hbefore⟩ := List.find?_eq_some_iff_append.1 h
    exact .first rfl (by simpa using he) fun e' he' => by simpa using hbefore e' he'

/-- No other one is. -/
theorem Agreed.eq_find? (h : Agreed preferred names e) :
    e = (preferred.find? fun e => names.contains e.name).getD .utf16 := by
  cases h with
  | first hp he hbefore =>
    rw [List.find?_eq_some_iff_append.2 ⟨by simpa using he, _, _, hp, by simpa using hbefore⟩]
    rfl
  | fallback hnone => rw [List.find?_eq_none.2 (by simpa using hnone), Option.getD_none]

/-- One encoding is agreed on. -/
theorem Agreed.unique {e' : PositionEncodingKind} (h : Agreed preferred names e)
    (h' : Agreed preferred names e') : e' = e := h'.eq_find?.trans h.eq_find?.symm

/-- Both sides have named the encoding, or it is UTF-16. -/
theorem Agreed.mem_or_eq (h : Agreed preferred names e) :
    e ∈ preferred ∧ e.name ∈ names ∨ e = .utf16 := by
  cases h with
  | first hp he _ => exact .inl ⟨by simp [hp], he⟩
  | fallback _ => exact .inr rfl

/-- Only which encodings are on offer counts. -/
theorem Agreed.congr (h : Agreed preferred names e)
    (hn : ∀ e : PositionEncodingKind, e.name ∈ names ↔ e.name ∈ names') :
    Agreed preferred names' e := by
  cases h with
  | first hp he hbefore =>
    exact .first hp ((hn e).1 he) fun e' he' hin => hbefore e' he' ((hn e').2 hin)
  | fallback hnone => exact .fallback fun e he hin => hnone e he ((hn e).2 hin)

/-- An encoding has the name by which it is found. -/
theorem ofName?_name (e : PositionEncodingKind) : ofName? e.name = some e := by
  cases e <;> decide

/-- A name stands for the encoding that has it. -/
theorem ofName?_eq_some_iff {name : String} : ofName? name = some e ↔ e.name = name := by
  refine ⟨fun h => ?_, fun h => h ▸ ofName?_name e⟩
  rw [ofName?, Enumeration.ofName?] at h
  have hname := List.find?_some h
  exact of_decide_eq_true hname

/-- An encoding is read of an offer when its name is in it. -/
theorem mem_filterMap_ofName? : e ∈ names.filterMap ofName? ↔ e.name ∈ names := by
  simp only [List.mem_filterMap, ofName?_eq_some_iff]
  exact ⟨fun ⟨_, hn, he⟩ => he ▸ hn, fun h => ⟨_, h, rfl⟩⟩

/-- What a member of a document offers: the names of a list, or nothing where there is none. -/
inductive Offers : Option Json → List String → Prop
  | absent : Offers none []
  | null : Offers (some .null) []
  | names (names : List String) : Offers (some (.array (names.map .string))) names

end PositionEncodingKind

/-! ## What is offered -/

open PositionEncodingKind (Offers Agreed ofName?)

/-- Strings are read as they are. -/
theorem Codec.decodeItems_string (names : List String) :
    Codec.string.decodeItems (Json.Source.ofItems .value (names.map .string)) = .ok names := by
  induction names with
  | nil => rfl
  | cons name rest ih =>
    exact Codec.decodeItems_cons_eq_ok_iff.2 ⟨name, rest, rfl, ih, rfl⟩

/-- A list of names is read as the encodings in it that are known. -/
theorem Field.decode_names (names : List String) :
    Field.knownEncodings.decode (.ofJson .value (.array (names.map .string))) =
      .ok (some (names.filterMap ofName?)) := by
  have hne : Json.array (names.map .string) ≠ .null := nofun
  simp only [Field.knownEncodings, Codec.option_decode_ofJson _ hne, Codec.decode_list,
    Codec.decodeItems_string, bind, Except.bind, Except.map, Option.map_some]

/-- A field whose member is missing holds the one value that stands for it. -/
theorem Field.eq_of_missing {α : Type} {f : Field α} {a d : α} (habsent : f.absent = some d)
    (hshort : f.short = some d) (h : f.absent = some a ∨ f.short = some a) : a = d := by
  rcases h with h | h
  · exact Option.some.inj (h.symm.trans habsent)
  · exact Option.some.inj (h.symm.trans hshort)

/-- A member that may be missing is missing, or null, or it is read as itself. -/
theorem Field.cases_of_trailing {α : Type} {c : Codec α} {o : Option α} {v? : Option Json}
    (hread : ∀ v, v? = some v → (trailing c).decode (.ofJson .value v) = .ok o)
    (habsent : v? = none → (trailing c).absent = some o ∨ (trailing c).short = some o) :
    (o = none ∧ (v? = none ∨ v? = some .null)) ∨
      ∃ v a, v? = some v ∧ o = some a ∧ c.ofJson v = .ok a := by
  cases v? with
  | none => exact .inl ⟨Field.eq_of_missing rfl rfl (habsent rfl), .inl rfl⟩
  | some v =>
    -- Null counts as nothing.
    by_cases hv : v = .null
    · subst hv
      exact .inl ⟨(Except.ok.inj (hread _ rfl)).symm, .inr rfl⟩
    · obtain ⟨a, ho, ha⟩ := Field.exists_of_trailing hv (hread v rfl)
      exact .inr ⟨v, a, rfl, ho, ha⟩

/-- Of the encodings that the general capabilities name, the known ones are read, in order. -/
theorem GeneralClientCapabilities.positionEncodings_eq {j : Json} (hj : j.WellFormed)
    {g : GeneralClientCapabilities} (hg : codec.ofJson j = .ok g) {names : List String}
    (ho : Offers (record.member? "positionEncodings" j) names) :
    g.positionEncodings.getD [] = names.filterMap ofName? := by
  obtain ⟨-, -, ⟨hread, habsent⟩, -⟩ := isProjective.holds hj hg
  simp only at hread habsent
  -- The client names nothing, null, or a list.
  generalize record.member? "positionEncodings" j = v? at hread habsent ho
  cases ho with
  | absent =>
    have hnone : g.positionEncodings = none := Field.eq_of_missing rfl rfl (habsent rfl)
    rw [hnone]
    rfl
  | null =>
    have hnone : g.positionEncodings = none := (Except.ok.inj (hread _ rfl)).symm
    rw [hnone]
    rfl
  | names names =>
    have hsome : g.positionEncodings = some (names.filterMap ofName?) :=
      Except.ok.inj ((hread _ rfl).symm.trans (Field.decode_names names))
    rw [hsome]
    rfl

/-- So they are of the capabilities as a whole. -/
theorem ClientCapabilities.positionEncodings_eq {j : Json} (hj : j.WellFormed)
    {c : ClientCapabilities} (hc : codec.ofJson j = .ok c) {names : List String}
    (ho : Offers ((record.member? "general" j).bind
      (GeneralClientCapabilities.record.member? "positionEncodings")) names) :
    c.positionEncodings = names.filterMap ofName? := by
  obtain ⟨-, -, -, -, ⟨hread, habsent⟩, -⟩ := isProjective.holds hj hc
  have hcases : (c.general = none ∧ (record.member? "general" j = none ∨
      record.member? "general" j = some .null)) ∨
      ∃ v g, record.member? "general" j = some v ∧ c.general = some g ∧
        GeneralClientCapabilities.codec.ofJson v = .ok g :=
    Field.cases_of_trailing hread habsent
  rcases hcases with ⟨hnone, hv⟩ | ⟨v, g, hv, hsome, hg⟩
  · -- Without general capabilities there is no offer.
    have hnames : Offers none names := by
      rcases hv with hv | hv <;> rwa [hv] at ho
    cases hnames
    rw [positionEncodings, hnone]
    rfl
  · rw [hv] at ho
    rw [positionEncodings, hsome]
    exact GeneralClientCapabilities.positionEncodings_eq (Record.wellFormed_of_member? hj hv) hg ho

namespace InitializeParams

/-- The place in a request to start where the client offers encodings. -/
def offer? (j : Json) : Option Json :=
  ((record.member? "capabilities" j).bind (ClientCapabilities.record.member? "general")).bind
    (GeneralClientCapabilities.record.member? "positionEncodings")

/-- What is read of an offer are the encodings in it that are known. -/
theorem positionEncodings_eq {j : Json} (hj : j.WellFormed) {p : InitializeParams}
    (hp : codec.ofJson j = .ok p) {names : List String} (ho : Offers (offer? j) names) :
    p.capabilities.positionEncodings = names.filterMap ofName? := by
  obtain ⟨-, -, -, -, -, -, ⟨hread, habsent⟩, -⟩ := isProjective.holds hj hp
  rw [offer?] at ho
  cases hv : record.member? "capabilities" j with
  | none =>
    -- Without capabilities no encoding is named.
    have hdefault : p.capabilities = {} := Field.eq_of_missing rfl rfl (habsent hv)
    rw [hv] at ho
    cases ho
    rw [hdefault]
    rfl
  | some v =>
    rw [hv, Option.bind_some] at ho
    exact ClientCapabilities.positionEncodings_eq (Record.wellFormed_of_member? hj hv)
      (hread v hv) ho

/-- The parameters that a message is read as offer what the message offers; null stands for a
request that says nothing. -/
theorem positionEncodings_of_reads {x : Context} (hx : x.params.WellFormed) {p : InitializeParams}
    (hp : x.Reads codec p) {names : List String} (ho : Offers (offer? x.params) names) :
    p.capabilities.positionEncodings = names.filterMap ofName? := by
  cases hp with
  | given hp => exact positionEncodings_eq hx hp ho
  | absent hnull _ hempty =>
    have hempty' : (Json.object []).WellFormed := .object [] .nil nofun
    rw [hnull] at ho
    exact positionEncodings_eq hempty' hempty ho

end InitializeParams

/-! ## What is answered -/

/-- What a server chooses is agreed on. -/
theorem ServerConfig.agreed_negotiateEncoding (c : ServerConfig) {client : ClientCapabilities}
    {names : List String} (h : client.positionEncodings = names.filterMap ofName?) :
    Agreed c.positionEncodings names (c.negotiateEncoding client) := by
  have hcontains (e : PositionEncodingKind) :
      client.positionEncodings.contains e = names.contains e.name := by
    rw [Bool.eq_iff_iff, List.contains_iff_mem, List.contains_iff_mem, h,
      PositionEncodingKind.mem_filterMap_ofName?]
  rw [ServerConfig.negotiateEncoding, funext hcontains]
  exact PositionEncodingKind.agreed_find? c.positionEncodings names

/-- A number has no members. -/
theorem LspAny.get?_ofInt (key : String) (n : Int) : (ofInt n).get? key = none := by
  rw [ofInt]
  split
  · rfl
  · split <;> rfl

/-- The members of a value that was taken from a document are those of the document. -/
theorem LspAny.get?_ofJson (key : String) (j : Json) :
    (ofJson j).get? key = (j.member? key).map ofJson := by
  cases j with
  | object members =>
    show Members.get? key (ofMembers members) = (Members.get? key members).map ofJson
    -- The members are searched for the same key.
    induction members with
    | nil => rfl
    | cons m rest ih =>
      obtain ⟨k, v⟩ := m
      simp only [ofMembers, Members.get?, ih]
      split <;> rfl
  | number n =>
    show (ofNumber n).get? key = none
    cases n with
    | int n =>
      rw [ofNumber]
      split
      · exact get?_ofInt key _
      · exact get?_ofInt key _
    | float f => rfl
  | null | bool _ | string _ | array _ => rfl

/-- What the server can do is a member of its answer. -/
theorem InitializeResult.member?_capabilities (r : InitializeResult) :
    (codec.encode r).member? "capabilities" =
      some (ServerCapabilities.codec.encode r.capabilities) := by
  have hnodup : (Members.keys (record.fields.encode r)).Nodup := by
    cases hi : r.serverInfo <;>
      simp [record, Fields.encode, Field.required, Field.trailing, Members.keys, hi]
  exact (Members.get?_ofList hnodup _).trans rfl

/-- The encoding is a member of what the server can do. -/
theorem ServerCapabilities.member?_positionEncoding {s : ServerCapabilities}
    (hs : s.experimental = none) :
    (codec.encode s).member? "positionEncoding" =
      s.positionEncoding.map PositionEncodingKind.codec.encode := by
  have hexperimental : (Field.optional LspAny.codec).ReadsBack s.experimental none := by
    rw [hs]
    exact .omitted rfl rfl
  exact (Record.shows_encode nodup_keys (fields_readsBack hexperimental)).1

/-- The encoding stands in the answer. -/
theorem InitializeResult.get?_positionEncoding {r : InitializeResult} {e : PositionEncodingKind}
    (hr : r.capabilities.experimental = none) (he : r.capabilities.positionEncoding = some e) :
    ((LspAny.ofTyped codec r).get? "capabilities").bind (·.get? "positionEncoding") =
      some (.string e.name) := by
  rw [LspAny.ofTyped, LspAny.get?_ofJson, member?_capabilities, Option.map_some, Option.bind_some,
    LspAny.get?_ofJson, ServerCapabilities.member?_positionEncoding hr, he]
  rfl

/-- The callback of a new handler for `initialize`: it answers with what it is offered. -/
def Callback.offered : Callback := .initialization fun _ _ offered => pure (.ok offered)

namespace Handler

/-- A new handler has an entry for `initialize`, which is the one that offers what it can do. -/
theorem get?_ofConfig_initialization (config : ServerConfig) :
    (ofConfig config).entries.get? Method.initialization = some Callback.offered.entry := rfl

/-- How much a handler tells of its doings makes no difference to its answer. -/
theorem initializeResult_tracing (level : Option TraceValue) (h : Handler) (p : InitializeParams) :
    (h.tracing level).outlook.initializeResult p = h.outlook.initializeResult p := by
  cases level <;> rfl

/-- A new handler answers `initialize` with what it can do as it stands. -/
theorem handle_offered {σ : Type} (hooks : Hooks σ) {h : Handler} {x : Context} {token : Bool}
    {p : InitializeParams} (hm : x.method = Method.initialization)
    (he : h.entries.get? x.method = some Callback.offered.entry) (hd : x.IsDue token)
    (hp : x.Reads InitializeParams.codec p) (w : σ) :
    ∃ h', h.handle hooks x token w =
      (.result (.success (some (.ofTyped InitializeResult.codec (h.outlook.initializeResult p)))),
        h', w) := by
  have hreturns : Callback.offered.Returns hooks (x.isCancelled token) x h w _ _ w :=
    .initialization hp fun _ => rfl
  rw [handle_of_returns he (.inr (.inl hm)) hd hreturns, initializeResult_tracing]
  exact ⟨_, rfl⟩

/-- The encoding that a server answers with is the one that both sides agree on: the first of its
own that the client has named, or else UTF-16.  It is always there, it is the only one that is
agreed on, and it depends on nothing but which encodings the client has named. -/
theorem encoding_of_offers {h : Handler} {x : Context} {p : InitializeParams} {names : List String}
    (hx : x.params.WellFormed) (hp : x.Reads InitializeParams.codec p)
    (ho : Offers (InitializeParams.offer? x.params) names) :
    ∃ e, (h.outlook.initializeResult p).capabilities.positionEncoding = some e ∧
      Agreed h.config.positionEncodings names e ∧
      (∀ e', Agreed h.config.positionEncodings names e' → e' = e) ∧
      (e ∈ h.config.positionEncodings ∧ e.name ∈ names ∨ e = .utf16) ∧
      (∀ (x' : Context) (p' : InitializeParams) (names' : List String), x'.params.WellFormed →
        x'.Reads InitializeParams.codec p' → Offers (InitializeParams.offer? x'.params) names' →
        (∀ e : PositionEncodingKind, e.name ∈ names ↔ e.name ∈ names') →
        (h.outlook.initializeResult p').capabilities.positionEncoding = some e) ∧
      ∀ (σ : Type) (hooks : Hooks σ) (token : Bool) (w : σ), x.method = Method.initialization →
        h.entries.get? x.method = some Callback.offered.entry → x.IsDue token →
        ∃ v h', h.handle hooks x token w = (.result (.success (some v)), h', w) ∧
          (v.get? "capabilities").bind (·.get? "positionEncoding") = some (.string e.name) := by
  have hagreed {x : Context} {p : InitializeParams} {names : List String}
      (hx : x.params.WellFormed) (hp : x.Reads InitializeParams.codec p)
      (ho : Offers (InitializeParams.offer? x.params) names) :
      Agreed h.config.positionEncodings names (h.config.negotiateEncoding p.capabilities) :=
    h.config.agreed_negotiateEncoding (InitializeParams.positionEncodings_of_reads hx hp ho)
  have ha := hagreed hx hp ho
  refine ⟨_, rfl, ha, fun e' => ha.unique, ha.mem_or_eq, fun x' p' names' hx' hp' ho' hn => ?_, ?_⟩
  · -- Only the names that are known count, so that both clients agree on the same.
    exact congrArg some ((ha.congr hn).unique (hagreed hx' hp' ho'))
  · intro σ hooks token w hm he hd
    obtain ⟨h', hhandle⟩ := handle_offered hooks hm he hd hp w
    exact ⟨_, h', hhandle, InitializeResult.get?_positionEncoding rfl rfl⟩

/-- A client that likes UTF-16 best, and that knows an encoding which servers do not know. -/
def exampleNames : List String := ["utf-16", "utf-7", "utf-32"]

/-- Its request to start. -/
def exampleOffer : Context where
  method := Method.initialization
  params := .object [("capabilities",
    InitializeParams.exampleCapabilities (exampleNames.map .string) [])]
  id := some (.int 1)

/-- A server that likes UTF-16 least. -/
def exampleChoosy : Handler := ofConfig { positionEncodings := [.utf8, .utf32, .utf16] }

/-- They agree on UTF-32: what the server likes counts, not what the client likes. -/
theorem encoding_of_exampleOffer :
    exampleOffer.params.WellFormed ∧
    Offers (InitializeParams.offer? exampleOffer.params) exampleNames ∧
    ∃ p v h', exampleOffer.Reads InitializeParams.codec p ∧
      (exampleChoosy.outlook.initializeResult p).capabilities.positionEncoding = some .utf32 ∧
      exampleChoosy.handle (.detached fun _ w => w) exampleOffer false () =
        (.result (.success (some v)), h', ()) ∧
      (v.get? "capabilities").bind (·.get? "positionEncoding") = some (.string "utf-32") := by
  have hnames : ∀ j ∈ exampleNames.map Json.string, j.WellFormed :=
    List.forall_mem_map.2 fun name _ => .string name
  have hw : exampleOffer.params.WellFormed :=
    .single (InitializeParams.wellFormed_exampleCapabilities hnames nofun)
  have ho : Offers (InitializeParams.offer? exampleOffer.params) exampleNames := .names exampleNames
  have hp : exampleOffer.Reads InitializeParams.codec _ := .given rfl
  have hagreed : Agreed ([.utf8] ++ .utf32 :: [.utf16]) exampleNames .utf32 :=
    .first rfl (by decide) (by decide)
  obtain ⟨e, he, -, hunique, -, -, hanswer⟩ := encoding_of_offers (h := exampleChoosy) hw hp ho
  -- The server prefers UTF-8, which the client does not name; so they agree on UTF-32.
  obtain rfl := hunique _ hagreed
  obtain ⟨v, h', hhandle, hv⟩ := hanswer Unit (.detached fun _ w => w) false () rfl
    (get?_ofConfig_initialization _) (.inr (.inr rfl))
  exact ⟨hw, ho, _, v, h', hp, he, hhandle, hv⟩

end Handler

end LanguageServer
