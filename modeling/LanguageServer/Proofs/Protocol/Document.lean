import LanguageServer.Proofs.Protocol.Edit
import LanguageServer.Proofs.Protocol.Message
import LanguageServer.Protocol.Progress

/-!
# Names of documents and tokens are read back

What the parameters of requests and notifications have in common: the document or the position that
they are about, and the tokens for progress.
-/

namespace LanguageServer

/-! ## Documents -/

theorem TextDocumentIdentifier.isFaithful : TextDocumentIdentifier.record.IsFaithful where
  nodup := by decide
  build_make _ := rfl
  fields := ⟨.required .string, trivial⟩

theorem TextDocumentItem.isFaithful : TextDocumentItem.record.IsFaithful where
  nodup := by decide
  build_make _ := rfl
  fields := ⟨.required .string, .required .string, .required .int32, .required .string, trivial⟩

theorem VersionedTextDocumentIdentifier.isFaithful :
    VersionedTextDocumentIdentifier.record.IsFaithful where
  nodup := by decide
  build_make _ := rfl
  fields := ⟨.required .string, .required .int32, trivial⟩

theorem TextDocumentPositionParams.isFaithful : TextDocumentPositionParams.record.IsFaithful where
  nodup := by decide
  build_make _ := rfl
  fields := ⟨.required TextDocumentIdentifier.isFaithful.codec,
    .required Position.isFaithful.codec, trivial⟩

theorem TextDocumentPositionParams.part_isFaithful :
    TextDocumentPositionParams.record.part.IsFaithful :=
  isFaithful.part rfl

/-! ## Tokens -/

theorem WorkDoneProgressParams.isFaithful : WorkDoneProgressParams.record.IsFaithful where
  nodup := by decide
  build_make _ := rfl
  fields := ⟨.optional IntOrString.isFaithful, trivial⟩

theorem WorkDoneProgressParams.part_isFaithful : WorkDoneProgressParams.record.part.IsFaithful :=
  isFaithful.part rfl

theorem PartialResultParams.isFaithful : PartialResultParams.record.IsFaithful where
  nodup := by decide
  build_make _ := rfl
  fields := ⟨.optional IntOrString.isFaithful, trivial⟩

theorem PartialResultParams.part_isFaithful : PartialResultParams.record.part.IsFaithful :=
  isFaithful.part rfl

end LanguageServer
