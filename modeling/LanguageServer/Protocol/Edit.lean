import LanguageServer.Protocol.Provider

/-!
# Edits

An edit replaces a range of a document by a text; it may refer to an annotation that a user has to
confirm. A workspace edit changes many documents, and creates, renames and deletes files on the way.
-/

namespace LanguageServer

/-- A range of a document and the text in its place. -/
structure TextEdit where
  range : Range
  newText : String
deriving DecidableEq

def TextEdit.record : Record TextEdit :=
  ⟨"TextEdit", TextEdit.mk,
    .own "range" (·.range) (.required Range.codec) <|
    .own "newText" (·.newText) (.required Codec.string) .done⟩

def TextEdit.codec : Codec TextEdit := TextEdit.record.codec

/-- A text put in at a position. -/
def TextEdit.insert (position : Position) (text : String) : TextEdit := ⟨⟨position, position⟩, text⟩

/-- A range taken out. -/
def TextEdit.delete (range : Range) : TextEdit := ⟨range, ""⟩

/-- What a change is for, and whether the user has to confirm it. -/
structure ChangeAnnotation where
  label : String
  needsConfirmation : Option Bool := none
  description : Option String := none
deriving DecidableEq

def ChangeAnnotation.record : Record ChangeAnnotation :=
  ⟨"ChangeAnnotation", ChangeAnnotation.mk,
    .own "label" (·.label) (.required Codec.string) <|
    .own "needsConfirmation" (·.needsConfirmation) (.optional Codec.bool) <|
    .own "description" (·.description) (.optional Codec.string) .done⟩

def ChangeAnnotation.codec : Codec ChangeAnnotation := ChangeAnnotation.record.codec

/-- An edit with the name of its annotation. -/
structure AnnotatedTextEdit where
  range : Range
  newText : String
  annotationId : String
deriving DecidableEq

def AnnotatedTextEdit.record : Record AnnotatedTextEdit :=
  ⟨"AnnotatedTextEdit", AnnotatedTextEdit.mk,
    .own "range" (·.range) (.required Range.codec) <|
    .own "newText" (·.newText) (.required Codec.string) <|
    .own "annotationId" (·.annotationId) (.required Codec.string) .done⟩

def AnnotatedTextEdit.codec : Codec AnnotatedTextEdit := AnnotatedTextEdit.record.codec

/-- An edit, annotated or not. -/
inductive TextEditOrAnnotated where
  | plain (edit : TextEdit)
  | annotated (edit : AnnotatedTextEdit)
deriving DecidableEq

/-- An edit is annotated exactly when it names an annotation. -/
def TextEditOrAnnotated.codec : Codec TextEditOrAnnotated :=
  .byValue
    (fun
      | .plain e => TextEdit.codec.encode e
      | .annotated e => AnnotatedTextEdit.codec.encode e)
    (fun j =>
      match j.member? "annotationId" with
      | some _ => (AnnotatedTextEdit.codec.ofJson j).map .annotated
      | none => (TextEdit.codec.ofJson j).map .plain)

/-- Edits of one version of a document. -/
structure TextDocumentEdit where
  textDocument : OptionalVersionedTextDocumentIdentifier
  edits : List TextEditOrAnnotated
deriving DecidableEq

def TextDocumentEdit.record : Record TextDocumentEdit :=
  ⟨"TextDocumentEdit", TextDocumentEdit.mk,
    .own "textDocument" (·.textDocument)
      (.required OptionalVersionedTextDocumentIdentifier.codec) <|
    .own "edits" (·.edits) (.required TextEditOrAnnotated.codec.list) .done⟩

def TextDocumentEdit.codec : Codec TextDocumentEdit := TextDocumentEdit.record.codec

/-- What happens when a file to be created exists. -/
structure CreateFileOptions where
  overwrite : Option Bool := none
  ignoreIfExists : Option Bool := none
deriving DecidableEq

def CreateFileOptions.record : Record CreateFileOptions :=
  ⟨"CreateFileOptions", CreateFileOptions.mk,
    .own "overwrite" (·.overwrite) (.optional Codec.bool) <|
    .own "ignoreIfExists" (·.ignoreIfExists) (.optional Codec.bool) .done⟩

def CreateFileOptions.codec : Codec CreateFileOptions := CreateFileOptions.record.codec

/-- Create a file. -/
structure CreateFile where
  uri : DocumentUri
  options : Option CreateFileOptions := none
  annotationId : Option String := none
deriving DecidableEq

def CreateFile.record : Record CreateFile :=
  ⟨"CreateFile", CreateFile.mk,
    .own "uri" (·.uri) (.required Codec.string) <|
    .own "options" (·.options) (.optional CreateFileOptions.codec) <|
    .own "annotationId" (·.annotationId) (.optional Codec.string) .done⟩

def CreateFile.codec : Codec CreateFile := CreateFile.record.codec

/-- What happens when the new name of a file is taken. -/
structure RenameFileOptions where
  overwrite : Option Bool := none
  ignoreIfExists : Option Bool := none
deriving DecidableEq

def RenameFileOptions.record : Record RenameFileOptions :=
  ⟨"RenameFileOptions", RenameFileOptions.mk,
    .own "overwrite" (·.overwrite) (.optional Codec.bool) <|
    .own "ignoreIfExists" (·.ignoreIfExists) (.optional Codec.bool) .done⟩

def RenameFileOptions.codec : Codec RenameFileOptions := RenameFileOptions.record.codec

/-- Rename a file. -/
structure RenameFile where
  oldUri : DocumentUri
  newUri : DocumentUri
  options : Option RenameFileOptions := none
  annotationId : Option String := none
deriving DecidableEq

def RenameFile.record : Record RenameFile :=
  ⟨"RenameFile", RenameFile.mk,
    .own "oldUri" (·.oldUri) (.required Codec.string) <|
    .own "newUri" (·.newUri) (.required Codec.string) <|
    .own "options" (·.options) (.optional RenameFileOptions.codec) <|
    .own "annotationId" (·.annotationId) (.optional Codec.string) .done⟩

def RenameFile.codec : Codec RenameFile := RenameFile.record.codec

/-- How far a deletion goes. -/
structure DeleteFileOptions where
  recursive : Option Bool := none
  ignoreIfNotExists : Option Bool := none
deriving DecidableEq

def DeleteFileOptions.record : Record DeleteFileOptions :=
  ⟨"DeleteFileOptions", DeleteFileOptions.mk,
    .own "recursive" (·.recursive) (.optional Codec.bool) <|
    .own "ignoreIfNotExists" (·.ignoreIfNotExists) (.optional Codec.bool) .done⟩

def DeleteFileOptions.codec : Codec DeleteFileOptions := DeleteFileOptions.record.codec

/-- Delete a file. -/
structure DeleteFile where
  uri : DocumentUri
  options : Option DeleteFileOptions := none
  annotationId : Option String := none
deriving DecidableEq

def DeleteFile.record : Record DeleteFile :=
  ⟨"DeleteFile", DeleteFile.mk,
    .own "uri" (·.uri) (.required Codec.string) <|
    .own "options" (·.options) (.optional DeleteFileOptions.codec) <|
    .own "annotationId" (·.annotationId) (.optional Codec.string) .done⟩

def DeleteFile.codec : Codec DeleteFile := DeleteFile.record.codec

/-- A change of files rather than of their text. -/
inductive ResourceOp where
  | create (file : CreateFile)
  | rename (file : RenameFile)
  | delete (file : DeleteFile)
deriving DecidableEq

def ResourceOp.codec : Codec ResourceOp :=
  .tagged "ResourceOp" "kind"
    (fun
      | .create f => ("create", CreateFile.record.fields.encode f)
      | .rename f => ("rename", RenameFile.record.fields.encode f)
      | .delete f => ("delete", DeleteFile.record.fields.encode f))
    [("create", fun s => (CreateFile.codec.decode s).map .create),
      ("rename", fun s => (RenameFile.codec.decode s).map .rename),
      ("delete", fun s => (DeleteFile.codec.decode s).map .delete)]

/-- Edits of a document, or a change of files. -/
inductive DocumentChange where
  | edit (edit : TextDocumentEdit)
  | operation (operation : ResourceOp)
deriving DecidableEq

/-- A change of files says its kind; edits do not. -/
def DocumentChange.codec : Codec DocumentChange :=
  .byValue
    (fun
      | .edit e => TextDocumentEdit.codec.encode e
      | .operation o => ResourceOp.codec.encode o)
    (fun j =>
      match j.member? "kind" with
      | some _ => (ResourceOp.codec.ofJson j).map .operation
      | none => (TextDocumentEdit.codec.ofJson j).map .edit)

/-- Changes of many documents. -/
structure WorkspaceEdit where
  changes : Option (Dictionary (List TextEdit)) := none
  documentChanges : Option (List DocumentChange) := none
  changeAnnotations : Option (Dictionary ChangeAnnotation) := none
deriving DecidableEq

def WorkspaceEdit.record : Record WorkspaceEdit :=
  ⟨"WorkspaceEdit", WorkspaceEdit.mk,
    .own "changes" (·.changes) (.optional TextEdit.codec.list.dictionary) <|
    .own "documentChanges" (·.documentChanges) (.optional DocumentChange.codec.list) <|
    .own "changeAnnotations" (·.changeAnnotations)
      (.optional ChangeAnnotation.codec.dictionary) .done⟩

def WorkspaceEdit.codec : Codec WorkspaceEdit := WorkspaceEdit.record.codec

/-- The server asks for a workspace edit to be made. -/
structure ApplyWorkspaceEditParams where
  label : Option String := none
  edit : WorkspaceEdit

def ApplyWorkspaceEditParams.record : Record ApplyWorkspaceEditParams :=
  ⟨"ApplyWorkspaceEditParams", ApplyWorkspaceEditParams.mk,
    .own "label" (·.label) (.trailing Codec.string) <|
    .own "edit" (·.edit) (.required WorkspaceEdit.codec) .done⟩

def ApplyWorkspaceEditParams.codec : Codec ApplyWorkspaceEditParams :=
  ApplyWorkspaceEditParams.record.codec

/-- Whether a workspace edit was made. -/
structure ApplyWorkspaceEditResult where
  applied : Bool
  failureReason : Option String := none
  failedChange : Option UInt32 := none

def ApplyWorkspaceEditResult.record : Record ApplyWorkspaceEditResult :=
  ⟨"ApplyWorkspaceEditResult", ApplyWorkspaceEditResult.mk,
    .own "applied" (·.applied) (.required Codec.bool) <|
    .own "failureReason" (·.failureReason) (.trailing Codec.string) <|
    .own "failedChange" (·.failedChange) (.trailing Codec.uint32) .done⟩

def ApplyWorkspaceEditResult.codec : Codec ApplyWorkspaceEditResult :=
  ApplyWorkspaceEditResult.record.codec

/-- The changes of files that a client can make. -/
inductive ResourceOperationKind where
  | create
  | rename
  | delete
deriving DecidableEq, Repr

/-- The name of a `ResourceOperationKind` in documents. -/
def ResourceOperationKind.name : ResourceOperationKind → String
  | .create => "create"
  | .rename => "rename"
  | .delete => "delete"

def ResourceOperationKind.enumeration : Enumeration ResourceOperationKind :=
  ⟨[.create, .rename, .delete], ResourceOperationKind.name⟩

def ResourceOperationKind.codec : Codec ResourceOperationKind :=
  ResourceOperationKind.enumeration.codec

/-- What a client does when a workspace edit fails half way. -/
inductive FailureHandlingKind where
  | abort
  | transactional
  | textOnlyTransactional
  | undo
deriving DecidableEq, Repr

/-- The name of a `FailureHandlingKind` in documents. -/
def FailureHandlingKind.name : FailureHandlingKind → String
  | .abort => "abort"
  | .transactional => "transactional"
  | .textOnlyTransactional => "textOnlyTransactional"
  | .undo => "undo"

def FailureHandlingKind.enumeration : Enumeration FailureHandlingKind :=
  ⟨[.abort, .transactional, .textOnlyTransactional, .undo], FailureHandlingKind.name⟩

def FailureHandlingKind.codec : Codec FailureHandlingKind := FailureHandlingKind.enumeration.codec

/-- How a client shows annotations. -/
structure ChangeAnnotationsSupportOptions where
  groupsOnLabel : Option Bool := none

def ChangeAnnotationsSupportOptions.record : Record ChangeAnnotationsSupportOptions :=
  ⟨"ChangeAnnotationsSupportOptions", ChangeAnnotationsSupportOptions.mk,
    .own "groupsOnLabel" (·.groupsOnLabel) (.trailing Codec.bool) .done⟩

def ChangeAnnotationsSupportOptions.codec : Codec ChangeAnnotationsSupportOptions :=
  ChangeAnnotationsSupportOptions.record.codec

/-- Which workspace edits a client can make. -/
structure WorkspaceEditClientCapabilities where
  documentChanges : Option Bool := none
  resourceOperations : Option (List ResourceOperationKind) := none
  failureHandling : Option FailureHandlingKind := none
  normalizesLineEndings : Option Bool := none
  changeAnnotationSupport : Option ChangeAnnotationsSupportOptions := none

def WorkspaceEditClientCapabilities.record : Record WorkspaceEditClientCapabilities :=
  ⟨"WorkspaceEditClientCapabilities", WorkspaceEditClientCapabilities.mk,
    .own "documentChanges" (·.documentChanges) (.trailing Codec.bool) <|
    .own "resourceOperations" (·.resourceOperations) (.known ResourceOperationKind.codec) <|
    .own "failureHandling" (·.failureHandling) (.trailing FailureHandlingKind.codec) <|
    .own "normalizesLineEndings" (·.normalizesLineEndings) (.trailing Codec.bool) <|
    .own "changeAnnotationSupport" (·.changeAnnotationSupport)
      (.trailing ChangeAnnotationsSupportOptions.codec) .done⟩

def WorkspaceEditClientCapabilities.codec : Codec WorkspaceEditClientCapabilities :=
  WorkspaceEditClientCapabilities.record.codec

end LanguageServer
