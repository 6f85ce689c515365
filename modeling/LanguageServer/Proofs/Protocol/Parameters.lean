import LanguageServer.Proofs.Protocol.DiagnosticReport
import LanguageServer.Proofs.Protocol.Display
import LanguageServer.Proofs.Protocol.Document
import LanguageServer.Proofs.Protocol.Options
import LanguageServer.Proofs.Protocol.Properties
import LanguageServer.Proofs.Protocol.Symbol
import LanguageServer.Protocol.CodeAction
import LanguageServer.Protocol.Color
import LanguageServer.Protocol.Hierarchy
import LanguageServer.Protocol.Inlay
import LanguageServer.Protocol.Navigation
import LanguageServer.Protocol.Rename

/-!
# Parameters of requests are read back

What requests are about lies in one object with the tokens for progress: the members of a position,
of both tokens and of the request itself.  No two of them have the same key, so that each part finds
its own members, and members under further keys are read by none: `parameters_recovered`.

Where parameters hold values of any kind, they come back as equal ones, as long as these values can
be written: `CallHierarchyItem.WellFormed`, `CodeActionContext.WellFormed`,
`FormattingOptions.WellFormed`, `ExecuteCommandParams.WellFormed`.
-/

namespace LanguageServer

open Field.IsFaithful (required trailing)

/-! ## What the requests themselves say -/

theorem ReferenceContext.isFaithful : ReferenceContext.record.IsFaithful where
  nodup := by decide
  build_make _ := rfl
  fields := ⟨.required .bool, trivial⟩

theorem CompletionTriggerKind.isFaithful : CompletionTriggerKind.codec.IsFaithful :=
  Numbering.isFaithful fun k => by cases k <;> exact ⟨by decide, rfl⟩

theorem CompletionContext.isFaithful : CompletionContext.record.IsFaithful where
  nodup := by decide
  build_make _ := rfl
  fields := ⟨.required CompletionTriggerKind.isFaithful, .trailing .string, trivial⟩

theorem SignatureHelpTriggerKind.isFaithful : SignatureHelpTriggerKind.codec.IsFaithful :=
  Numbering.isFaithful fun k => by cases k <;> exact ⟨by decide, rfl⟩

theorem SignatureHelpContext.isFaithful : SignatureHelpContext.record.IsFaithful where
  nodup := by decide
  build_make _ := rfl
  fields := ⟨.required SignatureHelpTriggerKind.isFaithful, .trailing .string, .required .bool,
    .trailing SignatureHelp.isFaithful.codec, trivial⟩

theorem InlineValueContext.isFaithful : InlineValueContext.record.IsFaithful where
  nodup := by decide
  build_make _ := rfl
  fields := ⟨.required .int32, .required Range.isFaithful.codec, trivial⟩

theorem PreviousResultId.isFaithful : PreviousResultId.record.IsFaithful where
  nodup := by decide
  build_make _ := rfl
  fields := ⟨.required .string, .required .string, trivial⟩

theorem CodeActionTriggerKind.isFaithful : CodeActionTriggerKind.codec.IsFaithful :=
  Numbering.isFaithful fun k => by cases k <;> exact ⟨by decide, rfl⟩

/-- The data of the diagnostics can be written and read. -/
def CodeActionContext.WellFormed (c : CodeActionContext) : Prop :=
  ∀ d ∈ c.diagnostics, d.WellFormed

/-- What a code action is asked about is recovered with its diagnostics. -/
theorem CodeActionContext.recovers {c : CodeActionContext} (h : c.WellFormed) :
    codec.Recovers c := by
  obtain ⟨diagnostics, hread, heq⟩ :=
    Field.Recovers.required (.list fun d hd => Diagnostic.recovers (h d hd))
  refine ⟨{ c with diagnostics }, Record.readsBack (by decide) rfl ?_, ?_⟩
  · exact ⟨hread, trailing CodeActionKind.isFaithful.list _,
      trailing CodeActionTriggerKind.isFaithful _, trivial⟩
  · -- Only the diagnostics may come back as equals.
    show instBEqCodeActionContext.beq _ _ = true
    simp only [instBEqCodeActionContext.beq, beq_self_eq_true, heq, Bool.and_self]

/-- The data of an item can be written and read. -/
def CallHierarchyItem.WellFormed (i : CallHierarchyItem) : Prop := ∀ v ∈ i.data, v.IsData

/-- An item of a hierarchy is recovered with its data. -/
theorem CallHierarchyItem.recovers {i : CallHierarchyItem} (h : i.WellFormed) :
    codec.Recovers i := by
  obtain ⟨data, hread, heq⟩ := Field.Recovers.trailing (LspAny.data_recovers h)
  refine ⟨{ i with data }, Record.readsBack (by decide) rfl ?_, ?_⟩
  · exact ⟨required .string _, required SymbolKind.isFaithful _,
      trailing SymbolTag.isFaithful.list _, trailing .string _, required .string _,
      required Range.isFaithful.codec _, required Range.isFaithful.codec _, hread, trivial⟩
  · -- Only the data may come back as an equal.
    show instBEqCallHierarchyItem.beq _ _ = true
    simp only [instBEqCallHierarchyItem.beq, beq_self_eq_true, heq, Bool.and_self]

/-! ## Colours -/

/-- The shares of a colour can be written. -/
structure Color.IsFinite (c : Color) : Prop where
  red : c.red.isFinite = true
  green : c.green.isFinite = true
  blue : c.blue.isFinite = true
  alpha : c.alpha.isFinite = true

/-- A colour comes back if its shares are numbers. -/
theorem Color.readsBack {c : Color} (h : c.IsFinite) : codec.ReadsBack c c :=
  Record.readsBack (by decide) rfl ⟨.required (.float h.red), .required (.float h.green),
    .required (.float h.blue), .required (.float h.alpha), trivial⟩

/-! ## Positions and documents -/

theorem PositionRequestParams.isFaithful : PositionRequestParams.record.IsFaithful where
  nodup := by decide
  build_make _ := rfl
  fields := ⟨TextDocumentPositionParams.part_isFaithful, WorkDoneProgressParams.part_isFaithful,
    trivial⟩

theorem PositionPartialResultParams.isFaithful :
    PositionPartialResultParams.record.IsFaithful where
  nodup := by decide
  build_make _ := rfl
  fields := ⟨TextDocumentPositionParams.part_isFaithful, WorkDoneProgressParams.part_isFaithful,
    PartialResultParams.part_isFaithful, trivial⟩

theorem DocumentRequestParams.isFaithful : DocumentRequestParams.record.IsFaithful where
  nodup := by decide
  build_make _ := rfl
  fields := ⟨.required TextDocumentIdentifier.isFaithful.codec,
    WorkDoneProgressParams.part_isFaithful, PartialResultParams.part_isFaithful, trivial⟩

theorem ReferenceParams.isFaithful : ReferenceParams.record.IsFaithful where
  nodup := by decide
  build_make _ := rfl
  fields := ⟨TextDocumentPositionParams.part_isFaithful, WorkDoneProgressParams.part_isFaithful,
    PartialResultParams.part_isFaithful, .required ReferenceContext.isFaithful.codec, trivial⟩

theorem SelectionRangeParams.isFaithful : SelectionRangeParams.record.IsFaithful where
  nodup := by decide
  build_make _ := rfl
  fields := ⟨.required TextDocumentIdentifier.isFaithful.codec,
    .required Position.isFaithful.codec.list, WorkDoneProgressParams.part_isFaithful,
    PartialResultParams.part_isFaithful, trivial⟩

theorem CompletionParams.isFaithful : CompletionParams.record.IsFaithful where
  nodup := by decide
  build_make _ := rfl
  fields := ⟨TextDocumentPositionParams.part_isFaithful, WorkDoneProgressParams.part_isFaithful,
    PartialResultParams.part_isFaithful, .trailing CompletionContext.isFaithful.codec, trivial⟩

theorem RenameParams.isFaithful : RenameParams.record.IsFaithful where
  nodup := by decide
  build_make _ := rfl
  fields := ⟨TextDocumentPositionParams.part_isFaithful, .required .string,
    WorkDoneProgressParams.part_isFaithful, trivial⟩

theorem SignatureHelpParams.isFaithful : SignatureHelpParams.record.IsFaithful where
  nodup := by decide
  build_make _ := rfl
  fields := ⟨TextDocumentPositionParams.part_isFaithful, WorkDoneProgressParams.part_isFaithful,
    .trailing SignatureHelpContext.isFaithful.codec, trivial⟩

theorem SemanticTokensDeltaParams.isFaithful : SemanticTokensDeltaParams.record.IsFaithful where
  nodup := by decide
  build_make _ := rfl
  fields := ⟨.required TextDocumentIdentifier.isFaithful.codec, .required .string,
    WorkDoneProgressParams.part_isFaithful, PartialResultParams.part_isFaithful, trivial⟩

theorem SemanticTokensRangeParams.isFaithful : SemanticTokensRangeParams.record.IsFaithful where
  nodup := by decide
  build_make _ := rfl
  fields := ⟨.required TextDocumentIdentifier.isFaithful.codec, .required Range.isFaithful.codec,
    WorkDoneProgressParams.part_isFaithful, PartialResultParams.part_isFaithful, trivial⟩

theorem InlayHintParams.isFaithful : InlayHintParams.record.IsFaithful where
  nodup := by decide
  build_make _ := rfl
  fields := ⟨.required TextDocumentIdentifier.isFaithful.codec, .required Range.isFaithful.codec,
    WorkDoneProgressParams.part_isFaithful, trivial⟩

theorem InlineValueParams.isFaithful : InlineValueParams.record.IsFaithful where
  nodup := by decide
  build_make _ := rfl
  fields := ⟨.required TextDocumentIdentifier.isFaithful.codec, .required Range.isFaithful.codec,
    .required InlineValueContext.isFaithful.codec, WorkDoneProgressParams.part_isFaithful, trivial⟩

theorem WorkspaceSymbolParams.isFaithful : WorkspaceSymbolParams.record.IsFaithful where
  nodup := by decide
  build_make _ := rfl
  fields := ⟨.required .string, WorkDoneProgressParams.part_isFaithful,
    PartialResultParams.part_isFaithful, trivial⟩

theorem DocumentDiagnosticParams.isFaithful : DocumentDiagnosticParams.record.IsFaithful where
  nodup := by decide
  build_make _ := rfl
  fields := ⟨.required TextDocumentIdentifier.isFaithful.codec, .trailing .string,
    .trailing .string, WorkDoneProgressParams.part_isFaithful, PartialResultParams.part_isFaithful,
    trivial⟩

theorem WorkspaceDiagnosticParams.isFaithful : WorkspaceDiagnosticParams.record.IsFaithful where
  nodup := by decide
  build_make _ := rfl
  fields := ⟨.trailing .string, .required PreviousResultId.isFaithful.codec.list,
    WorkDoneProgressParams.part_isFaithful, PartialResultParams.part_isFaithful, trivial⟩

/-- A colour to present is kept with the range that shows it. -/
theorem ColorPresentationParams.keeps {p : ColorPresentationParams} (h : p.color.IsFinite) :
    record.Keeps p p := by
  refine Record.keeps (by decide) rfl ?_
  exact ⟨required TextDocumentIdentifier.isFaithful.codec _, .required (Color.readsBack h),
    required Range.isFaithful.codec _, WorkDoneProgressParams.part_isFaithful _,
    PartialResultParams.part_isFaithful _, trivial⟩

/-! ## Values of any kind -/

/-- A request for calls is recovered with its item. -/
theorem CallHierarchyIncomingCallsParams.recovers {p : CallHierarchyIncomingCallsParams}
    (h : p.item.WellFormed) : record.Recovers p := by
  obtain ⟨item, hread, heq⟩ := Field.Recovers.required (CallHierarchyItem.recovers h)
  refine ⟨{ p with item }, Record.keeps (by decide) rfl ?_, ?_⟩
  · exact ⟨hread, WorkDoneProgressParams.part_isFaithful _, PartialResultParams.part_isFaithful _,
      trivial⟩
  · show instBEqCallHierarchyIncomingCallsParams.beq _ _ = true
    simp only [instBEqCallHierarchyIncomingCallsParams.beq, beq_self_eq_true, heq, Bool.and_self]

/-- A request for types is recovered with its item. -/
theorem TypeHierarchySupertypesParams.recovers {p : TypeHierarchySupertypesParams}
    (h : p.item.WellFormed) : record.Recovers p := by
  obtain ⟨item, hread, heq⟩ := Field.Recovers.required (CallHierarchyItem.recovers h)
  refine ⟨{ p with item }, Record.keeps (by decide) rfl ?_, ?_⟩
  · exact ⟨hread, WorkDoneProgressParams.part_isFaithful _, PartialResultParams.part_isFaithful _,
      trivial⟩
  · show instBEqTypeHierarchySupertypesParams.beq _ _ = true
    simp only [instBEqTypeHierarchySupertypesParams.beq, beq_self_eq_true, heq, Bool.and_self]

/-- A request for actions is recovered with its context. -/
theorem CodeActionParams.recovers {p : CodeActionParams} (h : p.context.WellFormed) :
    record.Recovers p := by
  obtain ⟨context, hread, heq⟩ := Field.Recovers.required (CodeActionContext.recovers h)
  refine ⟨{ p with context }, Record.keeps (by decide) rfl ?_, ?_⟩
  · exact ⟨required TextDocumentIdentifier.isFaithful.codec _,
      required Range.isFaithful.codec _, hread, WorkDoneProgressParams.part_isFaithful _,
      PartialResultParams.part_isFaithful _, trivial⟩
  · show instBEqCodeActionParams.beq _ _ = true
    simp only [instBEqCodeActionParams.beq, beq_self_eq_true, heq, Bool.and_self]

/-- A request to format a document is recovered with its options. -/
theorem DocumentFormattingParams.recovers {p : DocumentFormattingParams}
    (h : p.options.WellFormed) : record.Recovers p := by
  obtain ⟨options, hread, heq⟩ := Field.Recovers.required (FormattingOptions.recovers h)
  refine ⟨{ p with options }, Record.keeps (by decide) rfl ?_, ?_⟩
  · exact ⟨required TextDocumentIdentifier.isFaithful.codec _, hread,
      WorkDoneProgressParams.part_isFaithful _, trivial⟩
  · show instBEqDocumentFormattingParams.beq _ _ = true
    simp only [instBEqDocumentFormattingParams.beq, beq_self_eq_true, heq, Bool.and_self]

/-- A request to format a range is recovered with its options. -/
theorem DocumentRangeFormattingParams.recovers {p : DocumentRangeFormattingParams}
    (h : p.options.WellFormed) : record.Recovers p := by
  obtain ⟨options, hread, heq⟩ := Field.Recovers.required (FormattingOptions.recovers h)
  refine ⟨{ p with options }, Record.keeps (by decide) rfl ?_, ?_⟩
  · exact ⟨required TextDocumentIdentifier.isFaithful.codec _,
      required Range.isFaithful.codec _, hread, WorkDoneProgressParams.part_isFaithful _, trivial⟩
  · show instBEqDocumentRangeFormattingParams.beq _ _ = true
    simp only [instBEqDocumentRangeFormattingParams.beq, beq_self_eq_true, heq, Bool.and_self]

/-- A request to format while typing is recovered with its options. -/
theorem DocumentOnTypeFormattingParams.recovers {p : DocumentOnTypeFormattingParams}
    (h : p.options.WellFormed) : record.Recovers p := by
  obtain ⟨options, hread, heq⟩ := Field.Recovers.required (FormattingOptions.recovers h)
  refine ⟨{ p with options }, Record.keeps (by decide) rfl ?_, ?_⟩
  · exact ⟨TextDocumentPositionParams.part_isFaithful _, required .string _, hread, trivial⟩
  · show instBEqDocumentOnTypeFormattingParams.beq _ _ = true
    simp only [instBEqDocumentOnTypeFormattingParams.beq, beq_self_eq_true, heq, Bool.and_self]

/-- The arguments of a command can be written and read. -/
def ExecuteCommandParams.WellFormed (p : ExecuteCommandParams) : Prop :=
  ∀ vs ∈ p.arguments, ∀ v ∈ vs, v.WellFormed

/-- A command to run is recovered with its arguments. -/
theorem ExecuteCommandParams.recovers {p : ExecuteCommandParams} (h : p.WellFormed) :
    record.Recovers p := by
  obtain ⟨arguments, hread, heq⟩ := Field.Recovers.trailing (LspAny.list_recovers h)
  refine ⟨{ p with arguments }, Record.keeps (by decide) rfl ?_, ?_⟩
  · exact ⟨required .string _, hread, WorkDoneProgressParams.part_isFaithful _, trivial⟩
  · show instBEqExecuteCommandParams.beq _ _ = true
    simp only [instBEqExecuteCommandParams.beq, beq_self_eq_true, heq, Bool.and_self]

/-! ## All parameters -/

/-- The parameters of every request whose object holds several records are read back: those without
values of any kind as they were, colours that can be written among them, and the others as equal
ones.  Members under keys of their own that are put into the object change nothing. -/
theorem parameters_recovered :
    (∀ p, PositionRequestParams.record.Keeps p p) ∧
    (∀ p, PositionPartialResultParams.record.Keeps p p) ∧
    (∀ p, DocumentRequestParams.record.Keeps p p) ∧
    (∀ p, ReferenceParams.record.Keeps p p) ∧
    (∀ p, SelectionRangeParams.record.Keeps p p) ∧
    (∀ p : CallHierarchyIncomingCallsParams, p.item.WellFormed →
      CallHierarchyIncomingCallsParams.record.Recovers p) ∧
    (∀ p : TypeHierarchySupertypesParams, p.item.WellFormed →
      TypeHierarchySupertypesParams.record.Recovers p) ∧
    (∀ p, CompletionParams.record.Keeps p p) ∧
    (∀ p : CodeActionParams, p.context.WellFormed → CodeActionParams.record.Recovers p) ∧
    (∀ p : DocumentFormattingParams, p.options.WellFormed →
      DocumentFormattingParams.record.Recovers p) ∧
    (∀ p : DocumentRangeFormattingParams, p.options.WellFormed →
      DocumentRangeFormattingParams.record.Recovers p) ∧
    (∀ p : DocumentOnTypeFormattingParams, p.options.WellFormed →
      DocumentOnTypeFormattingParams.record.Recovers p) ∧
    (∀ p, RenameParams.record.Keeps p p) ∧
    (∀ p : ColorPresentationParams, p.color.IsFinite →
      ColorPresentationParams.record.Keeps p p) ∧
    (∀ p, SignatureHelpParams.record.Keeps p p) ∧
    (∀ p, SemanticTokensDeltaParams.record.Keeps p p) ∧
    (∀ p, SemanticTokensRangeParams.record.Keeps p p) ∧
    (∀ p, InlayHintParams.record.Keeps p p) ∧
    (∀ p, InlineValueParams.record.Keeps p p) ∧
    (∀ p : ExecuteCommandParams, p.WellFormed → ExecuteCommandParams.record.Recovers p) ∧
    (∀ p, WorkspaceSymbolParams.record.Keeps p p) ∧
    (∀ p, DocumentDiagnosticParams.record.Keeps p p) ∧
    (∀ p, WorkspaceDiagnosticParams.record.Keeps p p) :=
  -- One request after the other, in the order of the statement.
  ⟨PositionRequestParams.isFaithful.keeps, PositionPartialResultParams.isFaithful.keeps,
    DocumentRequestParams.isFaithful.keeps, ReferenceParams.isFaithful.keeps,
    SelectionRangeParams.isFaithful.keeps, fun _ => CallHierarchyIncomingCallsParams.recovers,
    fun _ => TypeHierarchySupertypesParams.recovers, CompletionParams.isFaithful.keeps,
    fun _ => CodeActionParams.recovers, fun _ => DocumentFormattingParams.recovers,
    fun _ => DocumentRangeFormattingParams.recovers,
    fun _ => DocumentOnTypeFormattingParams.recovers, RenameParams.isFaithful.keeps,
    fun _ => ColorPresentationParams.keeps, SignatureHelpParams.isFaithful.keeps,
    SemanticTokensDeltaParams.isFaithful.keeps, SemanticTokensRangeParams.isFaithful.keeps,
    InlayHintParams.isFaithful.keeps, InlineValueParams.isFaithful.keeps,
    fun _ => ExecuteCommandParams.recovers, WorkspaceSymbolParams.isFaithful.keeps,
    DocumentDiagnosticParams.isFaithful.keeps, WorkspaceDiagnosticParams.isFaithful.keeps⟩

/-- An item with data. -/
def CallHierarchyItem.exampleItem : CallHierarchyItem :=
  { name := "main", kind := .function, uri := "file:///a", range := ⟨⟨0, 0⟩, ⟨2, 1⟩⟩
    selectionRange := ⟨⟨0, 3⟩, ⟨0, 7⟩⟩, data := some (.array [.uinteger 7, .null]) }

theorem CallHierarchyItem.wellFormed_exampleItem : exampleItem.WellFormed := by
  intro v hv
  obtain rfl := Option.some.inj hv
  exact ⟨.array _ (List.forall_mem_cons.2 ⟨.uinteger 7, List.forall_mem_singleton.2 .null⟩), nofun⟩

/-- A diagnostic with data. -/
def Diagnostic.exampleDiagnostic : Diagnostic :=
  { range := ⟨⟨0, 0⟩, ⟨2, 1⟩⟩, message := "unused", data := some (.integer 5) }

theorem Diagnostic.wellFormed_exampleDiagnostic : exampleDiagnostic.WellFormed := by
  intro v hv
  obtain rfl := Option.some.inj hv
  exact ⟨.integer 5, nofun⟩

/-- Options with a property. -/
def FormattingOptions.exampleOptions : FormattingOptions :=
  { tabSize := 4, insertSpaces := true
    properties := ⟨[("quotes", .string "double")], List.pairwise_singleton _ _⟩ }

theorem FormattingOptions.wellFormed_exampleOptions : exampleOptions.WellFormed where
  values := List.forall_mem_singleton.2 (.string "double")
  keys := by decide

/-- A position with a token, and a member that is none of theirs. -/
def PositionRequestParams.exampleParams : PositionRequestParams :=
  { target := ⟨⟨"file:///a"⟩, ⟨3, 4⟩⟩, workDone := ⟨some (.string "t")⟩ }

/-- Parameters of each kind come back, and a member under a further key changes nothing. -/
theorem parameters_recovered_exampleParams :
    PositionRequestParams.codec.ofJson (.object [
        ("position", .object [("character", .int 4), ("line", .int 3)]),
        ("textDocument", .object [("uri", .string "file:///a")]),
        ("token", .int 1), ("workDoneToken", .string "t")]) = .ok .exampleParams ∧
      CallHierarchyIncomingCallsParams.record.Recovers { item := .exampleItem } ∧
      TypeHierarchySupertypesParams.record.Recovers { item := .exampleItem } ∧
      CodeActionParams.record.Recovers
        ⟨⟨"file:///a"⟩, ⟨⟨0, 0⟩, ⟨2, 1⟩⟩, { diagnostics := [.exampleDiagnostic] }, {}, {}⟩ ∧
      DocumentFormattingParams.record.Recovers ⟨⟨"file:///a"⟩, .exampleOptions, {}⟩ ∧
      DocumentRangeFormattingParams.record.Recovers
        ⟨⟨"file:///a"⟩, ⟨⟨0, 0⟩, ⟨2, 1⟩⟩, .exampleOptions, {}⟩ ∧
      DocumentOnTypeFormattingParams.record.Recovers
        ⟨⟨⟨"file:///a"⟩, ⟨3, 4⟩⟩, ";", .exampleOptions⟩ ∧
      (let p : ColorPresentationParams :=
        ⟨⟨"file:///a"⟩, ⟨0.5, 1, 0, 1⟩, ⟨⟨0, 0⟩, ⟨2, 1⟩⟩, {}, ⟨some (.int 2)⟩⟩
      ColorPresentationParams.record.Keeps p p) ∧
      ExecuteCommandParams.record.Recovers ⟨"run", some [.null, .uinteger 1], {}⟩ := by
  obtain ⟨hposition, -, -, -, -, hcalls, htypes, -, haction, hdocument, hrange, htyped, -, hcolor,
    -, -, -, -, -, hcommand, -⟩ := parameters_recovered
  refine ⟨hposition .exampleParams [("token", .int 1)] (by decide),
    hcalls _ CallHierarchyItem.wellFormed_exampleItem,
    htypes _ CallHierarchyItem.wellFormed_exampleItem,
    haction _ (List.forall_mem_singleton.2 Diagnostic.wellFormed_exampleDiagnostic),
    hdocument _ FormattingOptions.wellFormed_exampleOptions,
    hrange _ FormattingOptions.wellFormed_exampleOptions,
    htyped _ FormattingOptions.wellFormed_exampleOptions, hcolor _ ⟨rfl, rfl, rfl, rfl⟩,
    hcommand _ fun vs hvs => ?_⟩
  obtain rfl := Option.some.inj hvs
  exact List.forall_mem_cons.2 ⟨.null, List.forall_mem_singleton.2 (.uinteger 1)⟩

end LanguageServer
