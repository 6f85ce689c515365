import LanguageServer.Protocol.Document

/-!
# Progress

Long work is reported under a token: it begins, it reports, it ends. Requests carry the tokens under
which the client wants progress and partial results.
-/

namespace LanguageServer

/-- The token for progress on the work of a request. -/
structure WorkDoneProgressParams where
  workDoneToken : Option IntOrString := none
deriving DecidableEq

def WorkDoneProgressParams.record : Record WorkDoneProgressParams :=
  ⟨"WorkDoneProgressParams", WorkDoneProgressParams.mk,
    .own "workDoneToken" (·.workDoneToken) (.optional IntOrString.codec) .done⟩

def WorkDoneProgressParams.codec : Codec WorkDoneProgressParams :=
  WorkDoneProgressParams.record.codec

/-- The token for partial results of a request. -/
structure PartialResultParams where
  partialResultToken : Option IntOrString := none
deriving DecidableEq

def PartialResultParams.record : Record PartialResultParams :=
  ⟨"PartialResultParams", PartialResultParams.mk,
    .own "partialResultToken" (·.partialResultToken) (.optional IntOrString.codec) .done⟩

def PartialResultParams.codec : Codec PartialResultParams := PartialResultParams.record.codec

/-- Whether a feature reports progress. -/
structure WorkDoneProgressOptions where
  workDoneProgress : Option Bool := none

def WorkDoneProgressOptions.record : Record WorkDoneProgressOptions :=
  ⟨"WorkDoneProgressOptions", WorkDoneProgressOptions.mk,
    .own "workDoneProgress" (·.workDoneProgress) (.optional Codec.bool) .done⟩

def WorkDoneProgressOptions.codec : Codec WorkDoneProgressOptions :=
  WorkDoneProgressOptions.record.codec

/-- Whether a feature reports progress and fills in its results later. -/
structure ResolveOptions where
  workDoneProgress : Option Bool := none
  resolveProvider : Option Bool := none

def ResolveOptions.record : Record ResolveOptions :=
  ⟨"ResolveOptions", ResolveOptions.mk,
    .own "workDoneProgress" (·.workDoneProgress) (.optional Codec.bool) <|
    .own "resolveProvider" (·.resolveProvider) (.optional Codec.bool) .done⟩

def ResolveOptions.codec : Codec ResolveOptions := ResolveOptions.record.codec

/-- A request about a position. -/
structure PositionRequestParams where
  target : TextDocumentPositionParams
  workDone : WorkDoneProgressParams := {}

def PositionRequestParams.record : Record PositionRequestParams :=
  ⟨"PositionRequestParams", PositionRequestParams.mk,
    .part (·.target) TextDocumentPositionParams.record.part <|
    .part (·.workDone) WorkDoneProgressParams.record.part .done⟩

def PositionRequestParams.codec : Codec PositionRequestParams :=
  PositionRequestParams.record.codec

/-- A request about a position, which may be answered in parts. -/
structure PositionPartialResultParams where
  target : TextDocumentPositionParams
  workDone : WorkDoneProgressParams := {}
  partialResult : PartialResultParams := {}

def PositionPartialResultParams.record : Record PositionPartialResultParams :=
  ⟨"PositionPartialResultParams", PositionPartialResultParams.mk,
    .part (·.target) TextDocumentPositionParams.record.part <|
    .part (·.workDone) WorkDoneProgressParams.record.part <|
    .part (·.partialResult) PartialResultParams.record.part .done⟩

def PositionPartialResultParams.codec : Codec PositionPartialResultParams :=
  PositionPartialResultParams.record.codec

/-- A request about a document, which may be answered in parts. -/
structure DocumentRequestParams where
  textDocument : TextDocumentIdentifier
  workDone : WorkDoneProgressParams := {}
  partialResult : PartialResultParams := {}

def DocumentRequestParams.record : Record DocumentRequestParams :=
  ⟨"DocumentRequestParams", DocumentRequestParams.mk,
    .own "textDocument" (·.textDocument) (.required TextDocumentIdentifier.codec) <|
    .part (·.workDone) WorkDoneProgressParams.record.part <|
    .part (·.partialResult) PartialResultParams.record.part .done⟩

def DocumentRequestParams.codec : Codec DocumentRequestParams :=
  DocumentRequestParams.record.codec

/-- A request about a position of the named document. -/
def PositionRequestParams.new (uri : DocumentUri) (position : Position) : PositionRequestParams :=
  { target := .new uri position }

/-- A request about a position of the named document, which may be answered in parts. -/
def PositionPartialResultParams.new (uri : DocumentUri) (position : Position) :
    PositionPartialResultParams :=
  { target := .new uri position }

/-- A request about the named document. -/
def DocumentRequestParams.new (uri : DocumentUri) : DocumentRequestParams :=
  { textDocument := ⟨uri⟩ }

/-- Work begins, under a title. -/
structure WorkDoneProgressBegin where
  title : String
  cancellable : Option Bool := none
  message : Option String := none
  percentage : Option UInt32 := none
deriving DecidableEq

def WorkDoneProgressBegin.record : Record WorkDoneProgressBegin :=
  ⟨"WorkDoneProgressBegin", WorkDoneProgressBegin.mk,
    .own "title" (·.title) (.required Codec.string) <|
    .own "cancellable" (·.cancellable) (.trailing Codec.bool) <|
    .own "message" (·.message) (.trailing Codec.string) <|
    .own "percentage" (·.percentage) (.trailing Codec.uint32) .done⟩

def WorkDoneProgressBegin.codec : Codec WorkDoneProgressBegin :=
  WorkDoneProgressBegin.record.codec

/-- Work goes on. -/
structure WorkDoneProgressReport where
  cancellable : Option Bool := none
  message : Option String := none
  percentage : Option UInt32 := none
deriving DecidableEq

def WorkDoneProgressReport.record : Record WorkDoneProgressReport :=
  ⟨"WorkDoneProgressReport", WorkDoneProgressReport.mk,
    .own "cancellable" (·.cancellable) (.trailing Codec.bool) <|
    .own "message" (·.message) (.trailing Codec.string) <|
    .own "percentage" (·.percentage) (.trailing Codec.uint32) .done⟩

def WorkDoneProgressReport.codec : Codec WorkDoneProgressReport :=
  WorkDoneProgressReport.record.codec

/-- Work is done. -/
structure WorkDoneProgressEnd where
  message : Option String := none
deriving DecidableEq

def WorkDoneProgressEnd.record : Record WorkDoneProgressEnd :=
  ⟨"WorkDoneProgressEnd", WorkDoneProgressEnd.mk,
    .own "message" (·.message) (.trailing Codec.string) .done⟩

def WorkDoneProgressEnd.codec : Codec WorkDoneProgressEnd := WorkDoneProgressEnd.record.codec

/-- A report on long work. -/
inductive WorkDoneProgress where
  | begin (value : WorkDoneProgressBegin)
  | report (value : WorkDoneProgressReport)
  | finish (value : WorkDoneProgressEnd)
deriving DecidableEq

def WorkDoneProgress.codec : Codec WorkDoneProgress :=
  .tagged "WorkDoneProgress" "kind"
    (fun
      | .begin v => ("begin", WorkDoneProgressBegin.record.fields.encode v)
      | .report v => ("report", WorkDoneProgressReport.record.fields.encode v)
      | .finish v => ("end", WorkDoneProgressEnd.record.fields.encode v))
    [("begin", fun s => (WorkDoneProgressBegin.codec.decode s).map .begin),
      ("report", fun s => (WorkDoneProgressReport.codec.decode s).map .report),
      ("end", fun s => (WorkDoneProgressEnd.codec.decode s).map .finish)]

/-- What is reported under a token: progress on work, or a partial result. -/
inductive ProgressValue where
  | workDone (progress : WorkDoneProgress)
  | other (value : LspAny)
deriving BEq

/-- Whether a document says that work begins, goes on or ends. -/
def ProgressValue.isWorkDone (j : Json) : Bool :=
  match j.member? "kind" with
  | some (.string kind) => ["begin", "report", "end"].contains kind
  | _ => false

def ProgressValue.codec : Codec ProgressValue :=
  .byValue
    (fun
      | .workDone p => WorkDoneProgress.codec.encode p
      | .other v => v.toJson)
    (fun j =>
      if isWorkDone j then (WorkDoneProgress.codec.ofJson j).map .workDone
      else .ok (.other (.ofJson j)))

/-- A report under a token. -/
structure ProgressParams where
  token : IntOrString
  value : ProgressValue
deriving BEq

def ProgressParams.record : Record ProgressParams :=
  ⟨"ProgressParams", ProgressParams.mk,
    .own "token" (·.token) (.required IntOrString.codec) <|
    .own "value" (·.value) (.required ProgressValue.codec) .done⟩

def ProgressParams.codec : Codec ProgressParams := ProgressParams.record.codec

/-- The server asks for progress to be shown under a token. -/
structure WorkDoneProgressCreateParams where
  token : IntOrString

def WorkDoneProgressCreateParams.record : Record WorkDoneProgressCreateParams :=
  ⟨"WorkDoneProgressCreateParams", WorkDoneProgressCreateParams.mk,
    .own "token" (·.token) (.required IntOrString.codec) .done⟩

def WorkDoneProgressCreateParams.codec : Codec WorkDoneProgressCreateParams :=
  WorkDoneProgressCreateParams.record.codec

/-- The user gives up the work under a token. -/
structure WorkDoneProgressCancelParams where
  token : IntOrString

def WorkDoneProgressCancelParams.record : Record WorkDoneProgressCancelParams :=
  ⟨"WorkDoneProgressCancelParams", WorkDoneProgressCancelParams.mk,
    .own "token" (·.token) (.required IntOrString.codec) .done⟩

def WorkDoneProgressCancelParams.codec : Codec WorkDoneProgressCancelParams :=
  WorkDoneProgressCancelParams.record.codec

end LanguageServer
