import LanguageServer.Proofs.Protocol.Content
import LanguageServer.Protocol.Hover
import LanguageServer.Protocol.Inlay
import LanguageServer.Protocol.Progress
import LanguageServer.Protocol.SemanticTokens
import LanguageServer.Protocol.Signature

/-!
# What a client displays is read back

Hovers, signatures, tokens, hints, inline values and progress.  Some of their unions are told apart
by a key that one alternative always writes and the others never do, the others by trying a string
first.  A partial result stands beside progress on work without a mark of its own, and is read back
as long as it does not look like such progress (`ProgressValue.WellFormed`).
-/

namespace LanguageServer

open Field.IsFaithful (required trailing)

/-! ## Hovers -/

theorem LanguageString.isFaithful : LanguageString.record.IsFaithful where
  nodup := by decide
  build_make _ := rfl
  fields := ⟨.required .string, .required .string, trivial⟩

/-- Text and code are told apart by being a string or an object. -/
theorem MarkedString.isFaithful : MarkedString.codec.IsFaithful where
  readsBack
    | .string _ => .bare rfl
    | .language l => .notBare (LanguageString.isFaithful.codec.readsBack l) (fun _ => nofun) rfl
  ne_null
    | .string _ | .language _ => nofun

/-- A text in a language has no kind; a text that says how it is to be read has one. -/
theorem HoverContents.isFaithful : HoverContents.codec.IsFaithful where
  readsBack
    | .markup m => by
      -- Any object with a kind is taken for such a text.
      have hkind :
          Members.contains "kind" (.ofList (MarkupContent.record.fields.encode m)) = true :=
        congrArg Option.isSome (MarkupContent.isFaithful.shows m).1
      refine .alternative (MarkupContent.isFaithful.codec.readsBack m) rfl ?_
      exact if_pos hkind
    | .scalar (.string s) => .alternative (MarkedString.isFaithful.readsBack (.string s)) rfl rfl
    | .scalar (.language l) => by
      have hkind :
          Members.contains "kind" (.ofList (LanguageString.record.fields.encode l)) = false :=
        congrArg Option.isSome (LanguageString.isFaithful.member?_eq_none l "kind" (by decide))
      refine .alternative (MarkedString.isFaithful.readsBack (.language l)) rfl ?_
      exact if_neg (Bool.eq_false_iff.1 hkind)
    | .array ts => .alternative (MarkedString.isFaithful.list.readsBack ts) rfl rfl
  ne_null
    | .markup _ | .scalar (.string _) | .scalar (.language _) | .array _ => nofun

theorem Hover.isFaithful : Hover.record.IsFaithful where
  nodup := by decide
  build_make _ := rfl
  fields := ⟨.required HoverContents.isFaithful, .trailing Range.isFaithful.codec, trivial⟩

/-! ## Signatures -/

/-- A label that is a text and one that is a pair of offsets are told apart. -/
theorem ParameterLabel.isFaithful : ParameterLabel.codec.IsFaithful where
  readsBack
    | .simple _ => .bare rfl
    | .offsets a b => .notBare (Codec.IsFaithful.uint32.pair.readsBack (a, b)) (fun _ => nofun) rfl
  ne_null
    | .simple _ | .offsets _ _ => nofun

theorem ParameterInformation.isFaithful : ParameterInformation.record.IsFaithful where
  nodup := by decide
  build_make _ := rfl
  fields := ⟨.required ParameterLabel.isFaithful, .trailing StringOrMarkupContent.isFaithful,
    trivial⟩

theorem SignatureInformation.isFaithful : SignatureInformation.record.IsFaithful where
  nodup := by decide
  build_make _ := rfl
  fields := ⟨.required .string, .trailing StringOrMarkupContent.isFaithful,
    .trailing ParameterInformation.isFaithful.codec.list, .trailing .uint32, trivial⟩

theorem SignatureHelp.isFaithful : SignatureHelp.record.IsFaithful where
  nodup := by decide
  build_make _ := rfl
  fields := ⟨.required SignatureInformation.isFaithful.codec.list, .trailing .uint32,
    .trailing .uint32, trivial⟩

/-! ## Semantic tokens -/

theorem SemanticTokens.isFaithful : SemanticTokens.record.IsFaithful where
  nodup := by decide
  build_make _ := rfl
  fields := ⟨.trailing .string, .required (.list .uint32), trivial⟩

theorem SemanticTokensEdit.isFaithful : SemanticTokensEdit.record.IsFaithful where
  nodup := by decide
  build_make _ := rfl
  fields := ⟨.required .uint32, .required .uint32, .trailing (.list .uint32), trivial⟩

theorem SemanticTokensDelta.isFaithful : SemanticTokensDelta.record.IsFaithful where
  nodup := by decide
  build_make _ := rfl
  fields := ⟨.trailing .string, .required SemanticTokensEdit.isFaithful.codec.list, trivial⟩

/-- Changes have edits, be they none, and tokens have no such member. -/
theorem SemanticTokensFullDeltaResult.isFaithful :
    SemanticTokensFullDeltaResult.codec.IsFaithful where
  readsBack
    | .tokens t => by
      -- Only a delta has the member `edits`.
      refine .alternative (SemanticTokens.isFaithful.codec.readsBack t) rfl ?_
      rw [SemanticTokens.isFaithful.member?_eq_none t "edits" (by decide)]
      rfl
    | .delta d => by
      have hedits : (SemanticTokensDelta.record.codec.encode d).member? "edits" = some _ :=
        (SemanticTokensDelta.isFaithful.shows d).2.1
      refine .alternative (SemanticTokensDelta.isFaithful.codec.readsBack d) rfl ?_
      rw [hedits]
      rfl
  ne_null
    | .tokens _ | .delta _ => nofun

/-! ## Inlay hints -/

/-- The command of a part can be written and read. -/
def InlayHintLabelPart.WellFormed (p : InlayHintLabelPart) : Prop :=
  ∀ c ∈ p.command, c.WellFormed

/-- A part of a label is recovered with its command. -/
theorem InlayHintLabelPart.recovers {p : InlayHintLabelPart} (h : p.WellFormed) :
    codec.Recovers p := by
  obtain ⟨command, hcommand, heq⟩ := Command.member_recovers h
  refine ⟨{ p with command }, Record.readsBack (by decide) rfl ?_, ?_⟩
  · exact ⟨required .string _, trailing StringOrMarkupContent.isFaithful _,
      trailing Location.isFaithful.codec _, hcommand, trivial⟩
  · show instBEqInlayHintLabelPart.beq _ _ = true
    simp only [instBEqInlayHintLabelPart.beq, beq_self_eq_true, heq, Bool.and_self]

/-- The commands of a label can be written and read. -/
def InlayHintLabel.WellFormed : InlayHintLabel → Prop
  | .string _ => True
  | .parts ps => ∀ p ∈ ps, p.WellFormed

/-- A label is recovered, be it a text or in parts. -/
theorem InlayHintLabel.recovers {l : InlayHintLabel} (h : l.WellFormed) : codec.Recovers l := by
  cases l with
  | string s => exact ⟨.string s, .bare rfl, beq_self_eq_true s⟩
  | parts ps =>
    obtain ⟨ps', hread, heq⟩ := Codec.Recovers.list fun p hp => InlayHintLabelPart.recovers (h p hp)
    exact ⟨.parts ps', .notBare hread (fun _ => nofun) rfl, heq⟩

theorem InlayHintKind.isFaithful : InlayHintKind.codec.IsFaithful :=
  Numbering.isFaithful fun k => by cases k <;> exact ⟨by decide, rfl⟩

/-- The commands and the data of a hint can be written and read. -/
structure InlayHint.WellFormed (i : InlayHint) : Prop where
  label : i.label.WellFormed
  data : ∀ v ∈ i.data, v.IsData

/-- A hint is recovered with its label and its data. -/
theorem InlayHint.recovers {i : InlayHint} (h : i.WellFormed) : codec.Recovers i := by
  obtain ⟨label, hlabel, heql⟩ := Field.Recovers.required (InlayHintLabel.recovers h.label)
  obtain ⟨data, hdata, heqd⟩ := Field.Recovers.trailing (LspAny.data_recovers h.data)
  refine ⟨{ i with label, data }, Record.readsBack (by decide) rfl ?_, ?_⟩
  · exact ⟨required Position.isFaithful.codec _, hlabel, trailing InlayHintKind.isFaithful _,
      trailing TextEdit.isFaithful.codec.list _, trailing StringOrMarkupContent.isFaithful _,
      trailing .bool _, trailing .bool _, hdata, trivial⟩
  · show instBEqInlayHint.beq _ _ = true
    simp only [instBEqInlayHint.beq, beq_self_eq_true, heql, heqd, Bool.and_self]

/-! ## Inline values -/

theorem InlineValueText.isFaithful : InlineValueText.record.IsFaithful where
  nodup := by decide
  build_make _ := rfl
  fields := ⟨.required Range.isFaithful.codec, .required .string, trivial⟩

theorem InlineValueVariableLookup.isFaithful : InlineValueVariableLookup.record.IsFaithful where
  nodup := by decide
  build_make _ := rfl
  fields := ⟨.required Range.isFaithful.codec, .trailing .string, .required .bool, trivial⟩

theorem InlineValueEvaluatableExpression.isFaithful :
    InlineValueEvaluatableExpression.record.IsFaithful where
  nodup := by decide
  build_make _ := rfl
  fields := ⟨.required Range.isFaithful.codec, .trailing .string, trivial⟩

/-- All three have a range. Only a text has a text, and only a variable says whether case counts. -/
theorem InlineValue.isFaithful : InlineValue.codec.IsFaithful where
  readsBack
    | .text v => by
      have htext : (InlineValueText.record.codec.encode v).member? "text" = some (.string v.text) :=
        (InlineValueText.isFaithful.shows v).2.1
      -- The member `text` is asked for first, so it alone decides.
      refine .alternative (InlineValueText.isFaithful.codec.readsBack v) rfl ?_
      rw [htext]
      rfl
    | .variableLookup v => by
      have h := InlineValueVariableLookup.isFaithful
      have hcase : (InlineValueVariableLookup.record.codec.encode v).member?
          "caseSensitiveLookup" = some (.bool v.caseSensitiveLookup) :=
        (h.shows v).2.2.1
      -- Without `text`, the case of a lookup decides.
      refine .alternative (h.codec.readsBack v) rfl ?_
      rw [h.member?_eq_none v "text" (by decide), hcase]
      rfl
    | .expression v => by
      have h := InlineValueEvaluatableExpression.isFaithful
      -- An expression is what has neither member.
      refine .alternative (h.codec.readsBack v) rfl ?_
      rw [h.member?_eq_none v "text" (by decide),
        h.member?_eq_none v "caseSensitiveLookup" (by decide)]
      rfl
  ne_null
    | .text _ | .variableLookup _ | .expression _ => nofun

/-! ## Progress -/

theorem WorkDoneProgressBegin.isFaithful : WorkDoneProgressBegin.record.IsFaithful where
  nodup := by decide
  build_make _ := rfl
  fields := ⟨.required .string, .trailing .bool, .trailing .string, .trailing .uint32, trivial⟩

theorem WorkDoneProgressReport.isFaithful : WorkDoneProgressReport.record.IsFaithful where
  nodup := by decide
  build_make _ := rfl
  fields := ⟨.trailing .bool, .trailing .string, .trailing .uint32, trivial⟩

theorem WorkDoneProgressEnd.isFaithful : WorkDoneProgressEnd.record.IsFaithful where
  nodup := by decide
  build_make _ := rfl
  fields := ⟨.trailing .string, trivial⟩

/-- Work that begins, goes on and ends is told apart by its kind. -/
theorem WorkDoneProgress.isFaithful : WorkDoneProgress.codec.IsFaithful where
  readsBack
    | .begin v =>
      Codec.readsBack_tagged begin v WorkDoneProgressBegin.isFaithful (by decide) rfl rfl
    | .report v =>
      Codec.readsBack_tagged report v WorkDoneProgressReport.isFaithful (by decide) rfl rfl
    | .finish v =>
      Codec.readsBack_tagged finish v WorkDoneProgressEnd.isFaithful (by decide) rfl rfl
  ne_null
    | .begin _ | .report _ | .finish _ => nofun

/-- What a report on work says it is. -/
def WorkDoneProgress.kind : WorkDoneProgress → String
  | .begin _ => "begin"
  | .report _ => "report"
  | .finish _ => "end"

/-- A report on work says its kind, whatever else it holds. -/
theorem WorkDoneProgress.member?_kind (p : WorkDoneProgress) :
    (codec.encode p).member? "kind" = some (.string p.kind) := by
  cases p with
  | begin v => exact Codec.member?_tagged WorkDoneProgressBegin.isFaithful (x := v) (by decide) rfl
  | report v =>
    exact Codec.member?_tagged WorkDoneProgressReport.isFaithful (x := v) (by decide) rfl
  | finish v => exact Codec.member?_tagged WorkDoneProgressEnd.isFaithful (x := v) (by decide) rfl

/-- The members of a value are the members of its document. -/
theorem LspAny.member?_toJson (key : String) (v : LspAny) :
    v.toJson.member? key = (v.get? key).map toJson := by
  cases v with
  | object members =>
    show Members.get? key (membersToJson members) = (Members.get? key members).map toJson
    induction members with
    | nil => rfl
    | cons m rest ih =>
      obtain ⟨k, v⟩ := m
      simp only [membersToJson, Members.get?, ih]
      split <;> rfl
  | decimal f =>
    simp only [toJson, Json.ofFloat]
    cases Json.Number.ofFloat? f <;> rfl
  | null | bool _ | integer _ | uinteger _ | string _ | array _ => rfl

/-- Only a text is written as a text. -/
theorem LspAny.eq_string_of_toJson {v : LspAny} {s : String} (h : v.toJson = .string s) :
    v = .string s := by
  cases v with
  | string t =>
    cases h
    rfl
  | decimal f =>
    simp only [toJson, Json.ofFloat] at h
    cases hf : Json.Number.ofFloat? f <;> simp [hf] at h
  | null | bool _ | integer _ | uinteger _ | array _ | object _ => simp [toJson, Json.int] at h

namespace ProgressValue

/-- A partial result can be written and read, and it is no object of a kind of progress on work. -/
def WellFormed : ProgressValue → Prop
  | .workDone _ => True
  | .other v => v.WellFormed ∧ ∀ kind, v.get? "kind" = some (.string kind) →
      kind ∉ ["begin", "report", "end"]

/-- Progress of work is known by its kind. -/
theorem isWorkDone_workDone (p : WorkDoneProgress) :
    isWorkDone (WorkDoneProgress.codec.encode p) = true := by
  rw [isWorkDone, p.member?_kind]
  cases p <;> rfl

/-- Any other progress does not pass as progress of work. -/
theorem isWorkDone_other {v : LspAny} (h : (other v).WellFormed) : isWorkDone v.toJson = false := by
  -- The reader looks at the document, the hypothesis is about the value.
  rw [isWorkDone, LspAny.member?_toJson]
  cases hkind : v.get? "kind" with
  | none => rfl
  | some k =>
    cases hk : k.toJson with
    | string kind =>
      have hother := h.2 kind (by rw [hkind, LspAny.eq_string_of_toJson hk])
      simpa [hk] using hother
    | null | bool _ | number _ | array _ | object _ => simp only [Option.map_some, hk]

/-- Progress of either sort is recovered. -/
theorem recovers {p : ProgressValue} (h : p.WellFormed) : codec.Recovers p := by
  cases p with
  | workDone p =>
    refine .alternative (WorkDoneProgress.isFaithful.recovers p) rfl ?_ fun _ => rfl
    rw [isWorkDone_workDone]
    rfl
  | other v =>
    refine ⟨.other (.ofJson v.toJson), .byValue (LspAny.wellFormed_toJson h.1) ?_,
      LspAny.beq_ofJson_toJson h.1⟩
    show (if isWorkDone v.toJson then _ else _) = _
    rw [isWorkDone_other h]
    rfl

end ProgressValue

/-- What is notified of progress is recovered. -/
theorem ProgressParams.recovers {p : ProgressParams} (h : p.value.WellFormed) :
    codec.Recovers p := by
  obtain ⟨value, hvalue, heq⟩ := Field.Recovers.required (ProgressValue.recovers h)
  refine ⟨{ p with value }, Record.readsBack (by decide) rfl ?_, ?_⟩
  · exact ⟨required IntOrString.isFaithful _, hvalue, trivial⟩
  · show instBEqProgressParams.beq _ _ = true
    simp only [instBEqProgressParams.beq, beq_self_eq_true, heq, Bool.and_self]

/-! ## What is displayed comes back -/

/-- Hovers, signatures, tokens and inline values come back as they were; hints and progress, which
carry values of any kind, as equal ones. -/
theorem Hover.displays_recovered :
    (∀ h : Hover, codec.ofJson (codec.encode h) = .ok h) ∧
    (∀ s : SignatureHelp, SignatureHelp.codec.ofJson (SignatureHelp.codec.encode s) = .ok s) ∧
    (∀ t : SemanticTokensFullDeltaResult,
      SemanticTokensFullDeltaResult.codec.ofJson (SemanticTokensFullDeltaResult.codec.encode t) =
        .ok t) ∧
    (∀ i : InlayHint, i.WellFormed →
      ∃ i', InlayHint.codec.ofJson (InlayHint.codec.encode i) = .ok i' ∧ (i' == i) = true) ∧
    (∀ v : InlineValue, InlineValue.codec.ofJson (InlineValue.codec.encode v) = .ok v) ∧
    ∀ p : ProgressParams, p.value.WellFormed →
      ∃ p', ProgressParams.codec.ofJson (ProgressParams.codec.encode p) = .ok p' ∧
        (p' == p) = true :=
  ⟨fun h => (isFaithful.codec.readsBack h).ofJson_eq,
    fun s => (SignatureHelp.isFaithful.codec.readsBack s).ofJson_eq,
    fun t => (SemanticTokensFullDeltaResult.isFaithful.readsBack t).ofJson_eq,
    fun _ h => (InlayHint.recovers h).exists_ofJson,
    fun v => (InlineValue.isFaithful.readsBack v).ofJson_eq,
    fun _ h => (ProgressParams.recovers h).exists_ofJson⟩

/-- A hint in two parts, one of which runs a command. -/
def InlayHint.exampleHint : InlayHint where
  position := ⟨3, 14⟩
  label := .parts [{ value := ": " },
    { value := "u32", tooltip := some (.string "a word"),
      command := some { Command.new "Go" "go" with arguments := some [.null, .uinteger 5] } }]
  data := some (.uinteger 7)

theorem InlayHint.wellFormed_exampleHint : exampleHint.WellFormed where
  label := by
    refine List.forall_mem_cons.2 ⟨nofun, List.forall_mem_singleton.2 fun c hc => ?_⟩
    cases hc
    intro vs hvs
    cases hvs
    exact List.forall_mem_cons.2 ⟨.null, List.forall_mem_singleton.2 (.uinteger 5)⟩
  data v hv := by
    cases hv
    exact ⟨.uinteger 7, nofun⟩

/-- A partial result that says a kind, but none of progress on work. -/
def ProgressParams.exampleResult : ProgressParams :=
  ⟨.string "t", .other (.object [("kind", .string "full")])⟩

theorem ProgressParams.wellFormed_exampleResult : exampleResult.value.WellFormed := by
  refine ⟨.single (.string _), fun kind h => ?_⟩
  cases h
  decide

/-- A text in a language stands beside a bare one, and a part of a label beside one that runs a
command; a result that says a kind of its own is no progress on work. -/
theorem Hover.recovered_exampleHint :
    codec.ofJson (codec.encode ⟨.array [.string "a", .language ⟨"rust", "fn a()"⟩], none⟩) =
      .ok ⟨.array [.string "a", .language ⟨"rust", "fn a()"⟩], none⟩ ∧
    (∃ i, InlayHint.codec.ofJson (InlayHint.codec.encode .exampleHint) = .ok i ∧
      (i == .exampleHint) = true) ∧
    ∃ p, ProgressParams.codec.ofJson (ProgressParams.codec.encode .exampleResult) = .ok p ∧
      (p == .exampleResult) = true := by
  obtain ⟨hhover, -, -, hhint, -, hprogress⟩ := displays_recovered
  exact ⟨hhover _, hhint _ InlayHint.wellFormed_exampleHint,
    hprogress _ ProgressParams.wellFormed_exampleResult⟩

end LanguageServer
