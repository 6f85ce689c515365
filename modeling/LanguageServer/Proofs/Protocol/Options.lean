import LanguageServer.Proofs.Protocol.Provider
import LanguageServer.Protocol.ServerCapabilities

/-!
# The options of features are read back

Every type of options that a server announces is faithful, and so are the unions among them, which
are told apart by the kind of the document or, for notebooks, by the identifier of a registration.
-/

namespace LanguageServer

open Json (Source)

/-! ## Enumerations -/

theorem PositionEncodingKind.isFaithful : PositionEncodingKind.codec.IsFaithful :=
  Enumeration.isFaithful fun k => by cases k <;> rfl

theorem TextDocumentSyncKind.isFaithful : TextDocumentSyncKind.codec.IsFaithful :=
  Numbering.isFaithful fun k => by cases k <;> exact ⟨by decide, rfl⟩

theorem FileOperationPatternKind.isFaithful : FileOperationPatternKind.codec.IsFaithful :=
  Enumeration.isFaithful fun k => by cases k <;> rfl

theorem CodeActionKind.isFaithful : CodeActionKind.codec.IsFaithful :=
  Codec.IsFaithful.string.map fun _ => rfl

theorem BoolOrString.isFaithful : BoolOrString.codec.IsFaithful where
  readsBack
    | .bool b => ⟨.bool b, fun _ => rfl⟩
    | .string s => ⟨.string s, fun _ => rfl⟩
  ne_null
    | .bool _ | .string _ => nofun

/-! ## Documents -/

theorem SaveOptions.isFaithful : SaveOptions.record.IsFaithful where
  nodup := by decide
  build_make _ := rfl
  fields := ⟨.optional .bool, trivial⟩

theorem TextDocumentSyncOptions.isFaithful : TextDocumentSyncOptions.record.IsFaithful where
  nodup := by decide
  build_make _ := rfl
  fields := ⟨.optional .bool, .optional TextDocumentSyncKind.isFaithful, .optional .bool,
    .optional .bool, .optional (BoolOrOptions.isFaithful SaveOptions.isFaithful), trivial⟩

/-- A kind alone is a number, and options are an object. -/
theorem TextDocumentSyncCapability.isFaithful : TextDocumentSyncCapability.codec.IsFaithful where
  readsBack
    | .kind k => .alternative (TextDocumentSyncKind.isFaithful.readsBack k) rfl rfl
    | .options o => .alternative (TextDocumentSyncOptions.isFaithful.codec.readsBack o) rfl rfl
  ne_null
    | .kind _ | .options _ => nofun

/-! ## Notebooks -/

theorem NotebookDocumentFilter.isFaithful : NotebookDocumentFilter.record.IsFaithful where
  nodup := by decide
  build_make _ := rfl
  fields := ⟨.optional .string, .optional .string, .optional .string, trivial⟩

theorem NotebookCellSelector.isFaithful : NotebookCellSelector.record.IsFaithful where
  nodup := by decide
  build_make _ := rfl
  fields := ⟨.required .string, trivial⟩

/-- A type of notebooks is a string, and a filter is an object. -/
theorem NotebookFilterOrString.isFaithful : NotebookFilterOrString.codec.IsFaithful where
  readsBack
    | .filter f => .alternative (NotebookDocumentFilter.isFaithful.codec.readsBack f) rfl rfl
    | .string s => .byValue (.string s) rfl
  ne_null
    | .filter _ | .string _ => nofun

theorem NotebookSelector.isFaithful : NotebookSelector.record.IsFaithful where
  nodup := by decide
  build_make _ := rfl
  fields := ⟨.optional NotebookFilterOrString.isFaithful,
    .optional NotebookCellSelector.isFaithful.codec.list, trivial⟩

theorem NotebookDocumentSyncOptions.isFaithful :
    NotebookDocumentSyncOptions.record.IsFaithful where
  nodup := by decide
  build_make _ := rfl
  fields := ⟨.required NotebookSelector.isFaithful.codec.list, .optional .bool, trivial⟩

theorem NotebookDocumentSyncRegistrationOptions.isFaithful :
    NotebookDocumentSyncRegistrationOptions.record.IsFaithful where
  nodup := by decide
  build_make _ := rfl
  fields := ⟨NotebookDocumentSyncOptions.isFaithful.part rfl, .required .string, trivial⟩

/-- Options have no identifier, and a registration always has one. -/
theorem NotebookDocumentSyncCapability.isFaithful :
    NotebookDocumentSyncCapability.codec.IsFaithful where
  readsBack
    | .options o => by
      have h := NotebookDocumentSyncOptions.isFaithful
      have hid : (NotebookDocumentSyncOptions.record.codec.encode o).member? "id" = none :=
        h.member?_eq_none o "id" (by decide)
      refine .alternative (h.codec.readsBack o) rfl ?_
      rw [hid]
      rfl
    | .registration o => by
      have h := NotebookDocumentSyncRegistrationOptions.isFaithful
      have hid : (NotebookDocumentSyncRegistrationOptions.record.codec.encode o).member? "id" =
          some (.string o.id) :=
        (h.shows o).2.1
      refine .alternative (h.codec.readsBack o) rfl ?_
      rw [hid]
      rfl
  ne_null
    | .options _ | .registration _ => nofun

/-! ## Language features -/

theorem CompletionOptionsItem.isFaithful : CompletionOptionsItem.record.IsFaithful where
  nodup := by decide
  build_make _ := rfl
  fields := ⟨.optional .bool, trivial⟩

theorem CompletionOptions.isFaithful : CompletionOptions.record.IsFaithful where
  nodup := by decide
  build_make _ := rfl
  fields := ⟨.optional .bool, .optional (.list .string), .optional (.list .string),
    .optional .bool, .optional CompletionOptionsItem.isFaithful.codec, trivial⟩

theorem SignatureHelpOptions.isFaithful : SignatureHelpOptions.record.IsFaithful where
  nodup := by decide
  build_make _ := rfl
  fields := ⟨.optional .bool, .optional (.list .string), .optional (.list .string), trivial⟩

theorem DocumentSymbolOptions.isFaithful : DocumentSymbolOptions.record.IsFaithful where
  nodup := by decide
  build_make _ := rfl
  fields := ⟨.optional .bool, .optional .string, trivial⟩

theorem CodeActionOptions.isFaithful : CodeActionOptions.record.IsFaithful where
  nodup := by decide
  build_make _ := rfl
  fields := ⟨.optional .bool, .optional CodeActionKind.isFaithful.list, .optional .bool, trivial⟩

theorem DocumentOnTypeFormattingOptions.isFaithful :
    DocumentOnTypeFormattingOptions.record.IsFaithful where
  nodup := by decide
  build_make _ := rfl
  fields := ⟨.required .string, .optional (.list .string), trivial⟩

theorem RenameOptions.isFaithful : RenameOptions.record.IsFaithful where
  nodup := by decide
  build_make _ := rfl
  fields := ⟨.optional .bool, .optional .bool, trivial⟩

theorem ExecuteCommandOptions.isFaithful : ExecuteCommandOptions.record.IsFaithful where
  nodup := by decide
  build_make _ := rfl
  fields := ⟨.optional .bool, .required (.list .string), trivial⟩

theorem DiagnosticOptions.isFaithful : DiagnosticOptions.record.IsFaithful where
  nodup := by decide
  build_make _ := rfl
  fields := ⟨.optional .bool, .optional .string, .required .bool, .required .bool, trivial⟩

/-! ## Semantic tokens -/

theorem SemanticTokensLegend.isFaithful : SemanticTokensLegend.record.IsFaithful where
  nodup := by decide
  build_make _ := rfl
  fields := ⟨.required (.list .string), .required (.list .string), trivial⟩

theorem SemanticTokensRangeOption.isFaithful : SemanticTokensRangeOption.codec.IsFaithful where
  readsBack
    | .bool b => .byValue (.bool b) rfl
    | .empty => .byValue (.object [] .nil nofun) rfl
  ne_null
    | .bool _ | .empty => nofun

theorem SemanticTokensFullOption.isFaithful : SemanticTokensFullOption.codec.IsFaithful where
  readsBack
    | .bool b => .byValue (.bool b) rfl
    | .delta none => .byValue (.object [] .nil nofun) rfl
    | .delta (some b) => .byValue (.single (.bool b)) rfl
  ne_null
    | .bool _ | .delta none | .delta (some _) => nofun

theorem SemanticTokensOptions.isFaithful : SemanticTokensOptions.record.IsFaithful where
  nodup := by decide
  build_make _ := rfl
  fields := ⟨.optional .bool, .required SemanticTokensLegend.isFaithful.codec,
    .optional SemanticTokensRangeOption.isFaithful, .optional SemanticTokensFullOption.isFaithful,
    trivial⟩

/-! ## The workspace -/

theorem WorkspaceFoldersServerCapabilities.isFaithful :
    WorkspaceFoldersServerCapabilities.record.IsFaithful where
  nodup := by decide
  build_make _ := rfl
  fields := ⟨.optional .bool, .optional BoolOrString.isFaithful, trivial⟩

theorem FileOperationPatternOptions.isFaithful :
    FileOperationPatternOptions.record.IsFaithful where
  nodup := by decide
  build_make _ := rfl
  fields := ⟨.optional .bool, trivial⟩

theorem FileOperationPattern.isFaithful : FileOperationPattern.record.IsFaithful where
  nodup := by decide
  build_make _ := rfl
  fields := ⟨.required .string, .optional FileOperationPatternKind.isFaithful,
    .optional FileOperationPatternOptions.isFaithful.codec, trivial⟩

theorem FileOperationFilter.isFaithful : FileOperationFilter.record.IsFaithful where
  nodup := by decide
  build_make _ := rfl
  fields := ⟨.optional .string, .required FileOperationPattern.isFaithful.codec, trivial⟩

theorem FileOperationRegistrationOptions.isFaithful :
    FileOperationRegistrationOptions.record.IsFaithful where
  nodup := by decide
  build_make _ := rfl
  fields := ⟨.required FileOperationFilter.isFaithful.codec.list, trivial⟩

theorem FileOperationOptions.isFaithful : FileOperationOptions.record.IsFaithful :=
  have files : (Field.optional FileOperationRegistrationOptions.codec).IsFaithful :=
    .optional FileOperationRegistrationOptions.isFaithful.codec
  { nodup := by decide
    build_make := fun _ => rfl
    fields := ⟨files, files, files, files, files, files, trivial⟩ }

theorem WorkspaceServerCapabilities.isFaithful :
    WorkspaceServerCapabilities.record.IsFaithful where
  nodup := by decide
  build_make _ := rfl
  fields := ⟨.optional WorkspaceFoldersServerCapabilities.isFaithful.codec,
    .optional FileOperationOptions.isFaithful.codec, trivial⟩

/-! ## Options in registrations -/

theorem WorkDoneProgressOptions.isRegistrable : WorkDoneProgressOptions.record.IsRegistrable where
  toIsFaithful := isFaithful
  noParts := rfl
  noSelector := by decide
  noId := by decide

theorem ResolveOptions.isRegistrable : ResolveOptions.record.IsRegistrable where
  toIsFaithful := isFaithful
  noParts := rfl
  noSelector := by decide
  noId := by decide

theorem SemanticTokensOptions.isRegistrable : SemanticTokensOptions.record.IsRegistrable where
  toIsFaithful := isFaithful
  noParts := rfl
  noSelector := by decide
  noId := by decide

theorem DiagnosticOptions.isRegistrable : DiagnosticOptions.record.IsRegistrable where
  toIsFaithful := isFaithful
  noParts := rfl
  noSelector := by decide
  noId := by decide

end LanguageServer
