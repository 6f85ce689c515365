import LanguageServer.Error
import LanguageServer.Protocol.Diagnostic

/-!
# Diagnostic reports

The client may ask for the diagnostics of a document or of the whole workspace. It gets them in
full, or it is told that they have not changed since a certain result.

Which of the two a report is stands under `kind`; its other members lie beside it. Reports are read
in two ways with one rule: `ofJson` gives the error itself, the codec gives its words.
-/

namespace LanguageServer

/-- The client asks for the diagnostics of a document. -/
structure DocumentDiagnosticParams where
  textDocument : TextDocumentIdentifier
  identifier : Option String := none
  previousResultId : Option String := none
  workDone : WorkDoneProgressParams := {}
  partialResult : PartialResultParams := {}

def DocumentDiagnosticParams.record : Record DocumentDiagnosticParams :=
  ⟨"DocumentDiagnosticParams", DocumentDiagnosticParams.mk,
    .own "textDocument" (·.textDocument) (.required TextDocumentIdentifier.codec) <|
    .own "identifier" (·.identifier) (.trailing Codec.string) <|
    .own "previousResultId" (·.previousResultId) (.trailing Codec.string) <|
    .part (·.workDone) WorkDoneProgressParams.record.part <|
    .part (·.partialResult) PartialResultParams.record.part .done⟩

def DocumentDiagnosticParams.codec : Codec DocumentDiagnosticParams :=
  DocumentDiagnosticParams.record.codec

/-- Whether a request that the server gave up is to be sent again. -/
structure DiagnosticServerCancellationData where
  retriggerRequest : Bool

def DiagnosticServerCancellationData.record : Record DiagnosticServerCancellationData :=
  ⟨"DiagnosticServerCancellationData", DiagnosticServerCancellationData.mk,
    .own "retriggerRequest" (·.retriggerRequest) (.required Codec.bool) .done⟩

def DiagnosticServerCancellationData.codec : Codec DiagnosticServerCancellationData :=
  DiagnosticServerCancellationData.record.codec

/-- The last result that the client has of a document. -/
structure PreviousResultId where
  uri : DocumentUri
  value : String

def PreviousResultId.record : Record PreviousResultId :=
  ⟨"PreviousResultId", PreviousResultId.mk,
    .own "uri" (·.uri) (.required Codec.string) <|
    .own "value" (·.value) (.required Codec.string) .done⟩

def PreviousResultId.codec : Codec PreviousResultId := PreviousResultId.record.codec

/-- The client asks for the diagnostics of the workspace. -/
structure WorkspaceDiagnosticParams where
  identifier : Option String := none
  previousResultIds : List PreviousResultId
  workDone : WorkDoneProgressParams := {}
  partialResult : PartialResultParams := {}

def WorkspaceDiagnosticParams.record : Record WorkspaceDiagnosticParams :=
  ⟨"WorkspaceDiagnosticParams", WorkspaceDiagnosticParams.mk,
    .own "identifier" (·.identifier) (.trailing Codec.string) <|
    .own "previousResultIds" (·.previousResultIds) (.required PreviousResultId.codec.list) <|
    .part (·.workDone) WorkDoneProgressParams.record.part <|
    .part (·.partialResult) PartialResultParams.record.part .done⟩

def WorkspaceDiagnosticParams.codec : Codec WorkspaceDiagnosticParams :=
  WorkspaceDiagnosticParams.record.codec

/-- All the diagnostics of a document. -/
structure FullDocumentDiagnosticReport where
  resultId : Option String := none
  items : List Diagnostic := []
deriving BEq

def FullDocumentDiagnosticReport.record : Record FullDocumentDiagnosticReport :=
  ⟨"FullDocumentDiagnosticReport", FullDocumentDiagnosticReport.mk,
    .own "resultId" (·.resultId) (.trailing Codec.string) <|
    .own "items" (·.items) (.required Diagnostic.codec.list) .done⟩

def FullDocumentDiagnosticReport.codec : Codec FullDocumentDiagnosticReport :=
  FullDocumentDiagnosticReport.record.codec

/-- The diagnostics are those of an earlier result. -/
structure UnchangedDocumentDiagnosticReport where
  resultId : String
deriving DecidableEq

def UnchangedDocumentDiagnosticReport.record : Record UnchangedDocumentDiagnosticReport :=
  ⟨"UnchangedDocumentDiagnosticReport", UnchangedDocumentDiagnosticReport.mk,
    .own "resultId" (·.resultId) (.required Codec.string) .done⟩

def UnchangedDocumentDiagnosticReport.codec : Codec UnchangedDocumentDiagnosticReport :=
  UnchangedDocumentDiagnosticReport.record.codec

/-- The two kinds of reports. -/
inductive DocumentDiagnosticReportKind where
  | full
  | unchanged
deriving DecidableEq, Repr

namespace DocumentDiagnosticReportKind

/-- The name of a kind in documents. -/
def name : DocumentDiagnosticReportKind → String
  | .full => "full"
  | .unchanged => "unchanged"

/-- The kind of a name. -/
def ofName (name : String) : Outcome DocumentDiagnosticReportKind :=
  if name = "full" then .ok .full
  else if name = "unchanged" then .ok .unchanged
  else .error (.unknownReportKind name)

def codec : Codec DocumentDiagnosticReportKind where
  encode k := .string k.name
  decode s := do
    let name ← Codec.string.decode s
    (ofName name).mapError fun e => .unplaced (.ofWords e.message)

end DocumentDiagnosticReportKind

/-- The diagnostics of a document, or that they have not changed. -/
inductive DiagnosticReport where
  | full (report : FullDocumentDiagnosticReport)
  | unchanged (report : UnchangedDocumentDiagnosticReport)
deriving BEq

namespace DiagnosticReport

/-- The kind of a report. -/
def kind : DiagnosticReport → DocumentDiagnosticReportKind
  | .full _ => .full
  | .unchanged _ => .unchanged

/-- The members of a report, its kind among them. -/
def members (r : DiagnosticReport) : List (String × Json) :=
  ("kind", .string r.kind.name) ::
    match r with
    | .full f => FullDocumentDiagnosticReport.record.fields.encode f
    | .unchanged u => UnchangedDocumentDiagnosticReport.record.fields.encode u

/-- A report as a document. -/
def toJson (r : DiagnosticReport) : Json := .ofPairs r.members

/-- Read a report by its kind. -/
def ofJson (j : Json) : Outcome DiagnosticReport := do
  let kind ←
    match j.member? "kind" with
    | some (.string name) => DocumentDiagnosticReportKind.ofName name
    | some other => .error (.unknownReportKind other.render)
    | none => .error (.unknownReportKind "")
  match kind with
  | .full => ((FullDocumentDiagnosticReport.codec.ofJson j).map .full).mapError .ofDecode
  | .unchanged =>
    ((UnchangedDocumentDiagnosticReport.codec.ofJson j).map .unchanged).mapError .ofDecode

/-- Read reports under their keys, one after the other. -/
def ofMembers : List (String × Json) → Outcome (List (String × DiagnosticReport))
  | [] => .ok []
  | (k, j) :: rest => do
    let r ← ofJson j
    let others ← ofMembers rest
    .ok ((k, r) :: others)

end DiagnosticReport

/-- A codec from a reader with errors of its own; the codec gives their words. -/
def Codec.ofReports {α : Type} (encode : α → Json) (read : Json → Outcome α) : Codec α :=
  .byValue encode fun j => (read j).mapError fun e => .unplaced (.ofWords e.message)

/-- The report of a document, with those of related documents. -/
structure DocumentDiagnosticReport where
  report : DiagnosticReport
  relatedDocuments : Option (Dictionary DiagnosticReport) := none
deriving BEq

namespace DocumentDiagnosticReport

/-- A full report. -/
def full (items : List Diagnostic) (resultId : Option String) : DocumentDiagnosticReport :=
  { report := .full { resultId, items } }

/-- A report of no change. -/
def unchanged (resultId : String) : DocumentDiagnosticReport :=
  { report := .unchanged { resultId } }

/-- A report as a document. -/
def toJson (r : DocumentDiagnosticReport) : Json :=
  let related :=
    match r.relatedDocuments with
    | some d => [("relatedDocuments", .object (d.members.map fun m => (m.1, m.2.toJson)))]
    | none => []
  .ofPairs (r.report.members ++ related)

/-- Read a report; one related document that is no report fails the whole. -/
def ofJson (j : Json) : Outcome DocumentDiagnosticReport := do
  let related ←
    match j.member? "relatedDocuments" with
    | none => .ok none
    | some .null => .ok none
    | some (.object members) => do
      let reports ← DiagnosticReport.ofMembers members
      .ok (some (Dictionary.ofList reports))
    | some other =>
      .error (.other ("relatedDocuments must be an object, found " ++ other.render))
  let report ← DiagnosticReport.ofJson j
  .ok ⟨report, related⟩

def codec : Codec DocumentDiagnosticReport := .ofReports toJson ofJson

end DocumentDiagnosticReport

/-- The report of one document of a workspace. -/
structure WorkspaceDocumentDiagnosticReport where
  uri : DocumentUri
  version : Option Int32
  report : DiagnosticReport
deriving BEq

namespace WorkspaceDocumentDiagnosticReport

/-- A report as a document; the version is always written. -/
def toJson (r : WorkspaceDocumentDiagnosticReport) : Json :=
  .ofPairs (r.report.members ++
    [("uri", .string r.uri), ("version", Codec.int32.option.encode r.version)])

/-- Read a report. -/
def ofJson (j : Json) : Outcome WorkspaceDocumentDiagnosticReport := do
  let uri ←
    match j.member? "uri" with
    | some (.string uri) => .ok uri
    | _ => .error (.other "workspace report without a uri")
  let version ←
    match j.member? "version" with
    | none => .ok none
    | some .null => .ok none
    | some v => ((Codec.int32.ofJson v).map some).mapError .ofDecode
  let report ← DiagnosticReport.ofJson j
  .ok ⟨uri, version, report⟩

def codec : Codec WorkspaceDocumentDiagnosticReport := .ofReports toJson ofJson

end WorkspaceDocumentDiagnosticReport

/-- The reports of the documents of a workspace. -/
structure WorkspaceDiagnosticReport where
  items : List WorkspaceDocumentDiagnosticReport := []
deriving BEq

def WorkspaceDiagnosticReport.record : Record WorkspaceDiagnosticReport :=
  ⟨"WorkspaceDiagnosticReport", WorkspaceDiagnosticReport.mk,
    .own "items" (·.items) (.required WorkspaceDocumentDiagnosticReport.codec.list) .done⟩

def WorkspaceDiagnosticReport.codec : Codec WorkspaceDiagnosticReport :=
  WorkspaceDiagnosticReport.record.codec

/-- How a server answers requests for diagnostics. -/
structure DiagnosticOptions where
  workDoneProgress : Option Bool := none
  identifier : Option String := none
  interFileDependencies : Bool := false
  workspaceDiagnostics : Bool := false

def DiagnosticOptions.record : Record DiagnosticOptions :=
  ⟨"DiagnosticOptions", DiagnosticOptions.mk,
    .own "workDoneProgress" (·.workDoneProgress) (.optional Codec.bool) <|
    .own "identifier" (·.identifier) (.optional Codec.string) <|
    .own "interFileDependencies" (·.interFileDependencies) (.required Codec.bool) <|
    .own "workspaceDiagnostics" (·.workspaceDiagnostics) (.required Codec.bool) .done⟩

def DiagnosticOptions.codec : Codec DiagnosticOptions := DiagnosticOptions.record.codec

/-- Which diagnostic reports a client can take. -/
structure DiagnosticClientCapabilities where
  dynamicRegistration : Option Bool := none
  relatedDocumentSupport : Option Bool := none

def DiagnosticClientCapabilities.record : Record DiagnosticClientCapabilities :=
  ⟨"DiagnosticClientCapabilities", DiagnosticClientCapabilities.mk,
    .own "dynamicRegistration" (·.dynamicRegistration) (.trailing Codec.bool) <|
    .own "relatedDocumentSupport" (·.relatedDocumentSupport) (.trailing Codec.bool) .done⟩

def DiagnosticClientCapabilities.codec : Codec DiagnosticClientCapabilities :=
  DiagnosticClientCapabilities.record.codec

end LanguageServer
