import LanguageServer.Proofs.Any
import LanguageServer.Proofs.Protocol.Options

/-!
# What a server can do is read back

`ServerCapabilities.ofJson_encode` says that the capabilities of a server are read back from their
document with every union on the side it was written from.  Only the experimental value is open: it
comes back equal, though a word may come back as one of the other type.
-/

namespace LanguageServer

open Field.IsFaithful (optional)

namespace ServerCapabilities

/-- No key of the capabilities is said twice. -/
theorem nodup_keys : (record.fields.keys ++ record.fields.partKeys).Nodup := by
  simp [record, Fields.keys, Fields.partKeys]

/-- Every field but the experimental one is faithful. -/
theorem fields_readsBack {x : ServerCapabilities} {e : Option LspAny}
    (h : (Field.optional LspAny.codec).ReadsBack x.experimental e) :
    record.fields.ReadsBack x { x with experimental := e } := by
  -- Most of the fields are of one of three kinds.
  have switch : (Field.optional (BoolOrOptions.codec WorkDoneProgressOptions.codec)).IsFaithful :=
    .optional (BoolOrOptions.isFaithful WorkDoneProgressOptions.isFaithful)
  have provider :
      (Field.optional (ProviderCapability.codec WorkDoneProgressOptions.record)).IsFaithful :=
    .optional (ProviderCapability.isFaithful WorkDoneProgressOptions.isRegistrable)
  have resolve : (Field.optional ResolveOptions.codec).IsFaithful :=
    .optional ResolveOptions.isFaithful.codec
  refine ⟨?positionEncoding, ?textDocumentSync, ?notebookDocumentSync,
    ?completion, switch _, ?signatureHelp, provider _, switch _, provider _, provider _, switch _,
    switch _, ?documentSymbol, ?codeAction, resolve _, resolve _, provider _, switch _, switch _,
    ?onTypeFormatting, ?rename, provider _, ?executeCommand, provider _, provider _, provider _,
    ?semanticTokens, provider _, provider _, provider _, ?inlayHint, ?diagnostic,
    ?workspaceSymbol, ?workspace, h, trivial⟩
  case positionEncoding => exact optional PositionEncodingKind.isFaithful _
  case textDocumentSync => exact optional TextDocumentSyncCapability.isFaithful _
  case notebookDocumentSync => exact optional NotebookDocumentSyncCapability.isFaithful _
  case completion => exact optional CompletionOptions.isFaithful.codec _
  case signatureHelp => exact optional SignatureHelpOptions.isFaithful.codec _
  case documentSymbol =>
    exact optional (BoolOrOptions.isFaithful DocumentSymbolOptions.isFaithful) _
  case codeAction => exact optional (BoolOrOptions.isFaithful CodeActionOptions.isFaithful) _
  case onTypeFormatting => exact optional DocumentOnTypeFormattingOptions.isFaithful.codec _
  case rename => exact optional (BoolOrOptions.isFaithful RenameOptions.isFaithful) _
  case executeCommand => exact optional ExecuteCommandOptions.isFaithful.codec _
  case semanticTokens =>
    exact optional (OptionsOrRegistration.isFaithful SemanticTokensOptions.isRegistrable) _
  case inlayHint => exact optional (ProviderCapability.isFaithful ResolveOptions.isRegistrable) _
  case diagnostic =>
    exact optional (OptionsOrRegistration.isFaithful DiagnosticOptions.isRegistrable) _
  case workspaceSymbol => exact optional (BoolOrOptions.isFaithful ResolveOptions.isFaithful) _
  case workspace => exact optional WorkspaceServerCapabilities.isFaithful.codec _

/-- Capabilities come back, if what is experimental does. -/
theorem readsBack {x : ServerCapabilities} {e : Option LspAny}
    (h : (Field.optional LspAny.codec).ReadsBack x.experimental e) :
    codec.ReadsBack x { x with experimental := e } :=
  Record.readsBack nodup_keys rfl (fields_readsBack h)

/-- Capabilities whose experimental value is there and well-formed are read back as equal ones, and
every other field is the same as before. -/
theorem ofJson_encode (x : ServerCapabilities) (hnull : x.experimental ≠ some .null)
    (hw : ∀ v, x.experimental = some v → v.WellFormed) :
    ∃ e, codec.ofJson (codec.encode x) = .ok { x with experimental := e } ∧
      (e == x.experimental) = true := by
  cases hx : x.experimental with
  -- Nothing experimental is not written, and is not there when read.
  | none =>
    refine ⟨none, (readsBack ?_).ofJson_eq, rfl⟩
    exact .omitted (by rw [hx]; rfl) rfl
  | some v =>
    have hv := hw v hx
    refine ⟨some (.ofJson v.toJson), (readsBack ?_).ofJson_eq, LspAny.beq_ofJson_toJson hv⟩
    rw [hx]
    exact .some (LspAny.readsBack hv)
      (LspAny.encode_ne_null hv fun he => hnull (by rw [hx, he]))

/-- A registration that has neither a selector nor an identifier, an object of no options, and an
unsigned word in the experimental value. -/
def exampleRegistered : ServerCapabilities where
  hoverProvider := some (.options {})
  declarationProvider := some (.registration { options := {} })
  implementationProvider := some (.options {})
  diagnosticProvider := some (.registration { documentSelector := some [], options := {} })
  notebookDocumentSync := some (.registration ⟨{ notebookSelector := [{}] }, ""⟩)
  experimental := some (.object [("level", .uinteger 3)])

/-- Capabilities with a registration and an experimental member come back. -/
theorem ofJson_encode_exampleRegistered :
    exampleRegistered.experimental ≠ some .null ∧
    (∀ v, exampleRegistered.experimental = some v → v.WellFormed) ∧
    ∃ e, codec.ofJson (codec.encode exampleRegistered) =
        .ok { exampleRegistered with experimental := e } ∧
      (e == exampleRegistered.experimental) = true := by
  have hw : ∀ v, exampleRegistered.experimental = some v → v.WellFormed := by
    rintro _ ⟨⟩
    exact .single (.uinteger 3)
  exact ⟨nofun, hw, ofJson_encode exampleRegistered nofun hw⟩

end ServerCapabilities

end LanguageServer
