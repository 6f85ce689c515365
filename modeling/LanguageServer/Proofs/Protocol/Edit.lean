import LanguageServer.Proofs.Codec.Tagged
import LanguageServer.Protocol.Edit

/-!
# Edits are read back

The unions among edits are told apart by keys: an edit that refers to an annotation by
`annotationId`, a change of files by `kind`. Each rule is sound because exactly the alternative that
it picks writes the key (`TextEditOrAnnotated.member?_annotationId`, `DocumentChange.member?_kind`).
So a workspace edit is read back with all its changes in their places: `WorkspaceEdit.read_back`.
-/

namespace LanguageServer

/-! ## Edits of text -/

theorem Position.isFaithful : Position.record.IsFaithful where
  nodup := by decide
  build_make _ := rfl
  fields := ⟨.required .uint32, .required .uint32, trivial⟩

theorem Range.isFaithful : Range.record.IsFaithful where
  nodup := by decide
  build_make _ := rfl
  fields := ⟨.required Position.isFaithful.codec, .required Position.isFaithful.codec, trivial⟩

theorem TextEdit.isFaithful : TextEdit.record.IsFaithful where
  nodup := by decide
  build_make _ := rfl
  fields := ⟨.required Range.isFaithful.codec, .required .string, trivial⟩

theorem AnnotatedTextEdit.isFaithful : AnnotatedTextEdit.record.IsFaithful where
  nodup := by decide
  build_make _ := rfl
  fields := ⟨.required Range.isFaithful.codec, .required .string, .required .string, trivial⟩

theorem ChangeAnnotation.isFaithful : ChangeAnnotation.record.IsFaithful where
  nodup := by decide
  build_make _ := rfl
  fields := ⟨.required .string, .optional .bool, .optional .string, trivial⟩

/-- The annotation that an edit refers to. -/
def TextEditOrAnnotated.annotation? : TextEditOrAnnotated → Option String
  | .plain _ => none
  | .annotated e => some e.annotationId

/-- An edit that refers to no annotation does not write the key of one. -/
theorem TextEditOrAnnotated.member?_annotationId (e : TextEditOrAnnotated) :
    (TextEditOrAnnotated.codec.encode e).member? "annotationId" =
      e.annotation?.map Json.string := by
  cases e with
  | plain e => exact TextEdit.isFaithful.member?_eq_none e "annotationId" (by decide)
  | annotated e => exact (AnnotatedTextEdit.isFaithful.shows e).2.2.1

/-- An edit with an annotation and one without are told apart by the annotation. -/
theorem TextEditOrAnnotated.isFaithful : TextEditOrAnnotated.codec.IsFaithful where
  readsBack e := by
    -- The member `annotationId` decides between the two.
    have hkey := member?_annotationId e
    cases e with
    | plain e =>
      refine .alternative (TextEdit.isFaithful.codec.readsBack e) rfl ?_
      rw [show (TextEdit.record.codec.encode e).member? "annotationId" = none from hkey]
      rfl
    | annotated e =>
      refine .alternative (AnnotatedTextEdit.isFaithful.codec.readsBack e) rfl ?_
      rw [show (AnnotatedTextEdit.record.codec.encode e).member? "annotationId" =
        some (.string e.annotationId) from hkey]
      rfl
  ne_null
    | .plain _ | .annotated _ => nofun

theorem OptionalVersionedTextDocumentIdentifier.isFaithful :
    OptionalVersionedTextDocumentIdentifier.record.IsFaithful where
  nodup := by decide
  build_make _ := rfl
  fields := ⟨.required .string, .nullable .int32, trivial⟩

theorem TextDocumentEdit.isFaithful : TextDocumentEdit.record.IsFaithful where
  nodup := by decide
  build_make _ := rfl
  fields := ⟨.required OptionalVersionedTextDocumentIdentifier.isFaithful.codec,
    .required TextEditOrAnnotated.isFaithful.list, trivial⟩

/-! ## Changes of files -/

theorem CreateFileOptions.isFaithful : CreateFileOptions.record.IsFaithful where
  nodup := by decide
  build_make _ := rfl
  fields := ⟨.optional .bool, .optional .bool, trivial⟩

theorem CreateFile.isFaithful : CreateFile.record.IsFaithful where
  nodup := by decide
  build_make _ := rfl
  fields := ⟨.required .string, .optional CreateFileOptions.isFaithful.codec, .optional .string,
    trivial⟩

theorem RenameFileOptions.isFaithful : RenameFileOptions.record.IsFaithful where
  nodup := by decide
  build_make _ := rfl
  fields := ⟨.optional .bool, .optional .bool, trivial⟩

theorem RenameFile.isFaithful : RenameFile.record.IsFaithful where
  nodup := by decide
  build_make _ := rfl
  fields := ⟨.required .string, .required .string, .optional RenameFileOptions.isFaithful.codec,
    .optional .string, trivial⟩

theorem DeleteFileOptions.isFaithful : DeleteFileOptions.record.IsFaithful where
  nodup := by decide
  build_make _ := rfl
  fields := ⟨.optional .bool, .optional .bool, trivial⟩

theorem DeleteFile.isFaithful : DeleteFile.record.IsFaithful where
  nodup := by decide
  build_make _ := rfl
  fields := ⟨.required .string, .optional DeleteFileOptions.isFaithful.codec, .optional .string,
    trivial⟩

/-- The kind of a change of files. -/
def ResourceOp.kind : ResourceOp → ResourceOperationKind
  | .create _ => .create
  | .rename _ => .rename
  | .delete _ => .delete

/-- A change of files says its kind, whatever annotation it refers to. -/
theorem ResourceOp.member?_kind (o : ResourceOp) :
    (ResourceOp.codec.encode o).member? "kind" = some (.string o.kind.name) := by
  cases o with
  | create f => exact Codec.member?_tagged CreateFile.isFaithful (x := f) (by decide) rfl
  | rename f => exact Codec.member?_tagged RenameFile.isFaithful (x := f) (by decide) rfl
  | delete f => exact Codec.member?_tagged DeleteFile.isFaithful (x := f) (by decide) rfl

/-- An operation on a file comes back with its kind. -/
theorem ResourceOp.isFaithful : ResourceOp.codec.IsFaithful where
  readsBack
    | .create f => Codec.readsBack_tagged create f CreateFile.isFaithful (by decide) rfl rfl
    | .rename f => Codec.readsBack_tagged rename f RenameFile.isFaithful (by decide) rfl rfl
    | .delete f => Codec.readsBack_tagged delete f DeleteFile.isFaithful (by decide) rfl rfl
  ne_null
    | .create _ | .rename _ | .delete _ => nofun

/-! ## Workspace edits -/

/-- The kind of a change of files; the edits of a document have none. -/
def DocumentChange.kind? : DocumentChange → Option ResourceOperationKind
  | .edit _ => none
  | .operation o => some o.kind

/-- Only a change of files says a kind. -/
theorem DocumentChange.member?_kind (c : DocumentChange) :
    (DocumentChange.codec.encode c).member? "kind" = c.kind?.map fun k => .string k.name := by
  cases c with
  | edit e => exact TextDocumentEdit.isFaithful.member?_eq_none e "kind" (by decide)
  | operation o => exact o.member?_kind

/-- Edits have no kind, and operations on files have one. -/
theorem DocumentChange.isFaithful : DocumentChange.codec.IsFaithful where
  readsBack c := by
    -- The member `kind` decides between the two.
    have hkey := member?_kind c
    cases c with
    | edit e =>
      refine .alternative (TextDocumentEdit.isFaithful.codec.readsBack e) rfl ?_
      rw [show (TextDocumentEdit.record.codec.encode e).member? "kind" = none from hkey]
      rfl
    | operation o =>
      refine .alternative (ResourceOp.isFaithful.readsBack o) rfl ?_
      rw [show (ResourceOp.codec.encode o).member? "kind" = some (.string o.kind.name) from hkey]
  ne_null
    | .edit _ => nofun
    | .operation o => ResourceOp.isFaithful.ne_null o

/-- An edit of the workspace comes back with all its changes. -/
theorem WorkspaceEdit.isFaithful : WorkspaceEdit.record.IsFaithful where
  nodup := by decide
  build_make _ := rfl
  fields := ⟨.optional TextEdit.isFaithful.codec.list.dictionary,
    .optional DocumentChange.isFaithful.list,
    .optional ChangeAnnotation.isFaithful.codec.dictionary, trivial⟩

/-- A workspace edit is read back: every change keeps its kind, its place and its fields. -/
theorem WorkspaceEdit.read_back (w : WorkspaceEdit) :
    WorkspaceEdit.codec.ofJson (WorkspaceEdit.codec.encode w) = .ok w :=
  (WorkspaceEdit.isFaithful.codec.readsBack w).ofJson_eq

end LanguageServer
