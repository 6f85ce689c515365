import LanguageServer.Catalogue
import LanguageServer.Handler.Trace
import LanguageServer.Protocol.DiagnosticReport

/-!
# Constructors and helpers by name

Tools that work on documents of any type call constructors and helpers by name: `Operation.named?`
finds an operation. Its arguments are documents, decoded from left to right, and missing ones count
as null; its result is a document.
-/

namespace LanguageServer

/-- Types of arguments. -/
class Argument (α : Type) where
  codec : Codec α

instance : Argument Bool := ⟨Codec.bool⟩

instance : Argument String := ⟨Codec.string⟩

instance : Argument UInt32 := ⟨Codec.uint32⟩

instance : Argument Int32 := ⟨Codec.int32⟩

instance : Argument Json := ⟨Codec.json⟩

instance : Argument LspAny := ⟨LspAny.codec⟩

instance : Argument IntOrString := ⟨IntOrString.codec⟩

instance : Argument BoolOrString := ⟨BoolOrString.codec⟩

instance : Argument Position := ⟨Position.codec⟩

instance : Argument Range := ⟨Range.codec⟩

instance : Argument PositionEncodingKind := ⟨PositionEncodingKind.codec⟩

instance : Argument Diagnostic := ⟨Diagnostic.codec⟩

instance : Argument TextEdit := ⟨TextEdit.codec⟩

instance : Argument AnnotatedTextEdit := ⟨AnnotatedTextEdit.codec⟩

instance : Argument CompletionItem := ⟨CompletionItem.codec⟩

instance : Argument TextDocumentContentChangeEvent := ⟨TextDocumentContentChangeEvent.codec⟩

instance : Argument DidChangeTextDocumentParams := ⟨DidChangeTextDocumentParams.codec⟩

instance : Argument FileChangeType := ⟨FileChangeType.codec⟩

instance : Argument WatchKind := ⟨WatchKind.codec⟩

instance : Argument DocumentFilter := ⟨DocumentFilter.codec⟩

instance : Argument WorkDoneProgressOptions := ⟨WorkDoneProgressOptions.codec⟩

instance : Argument SemanticTokensRangeOption := ⟨SemanticTokensRangeOption.codec⟩

instance : Argument SemanticTokensLegend := ⟨SemanticTokensLegend.codec⟩

instance : Argument ClientCapabilities := ⟨ClientCapabilities.codec⟩

instance : Argument DocumentDiagnosticReportKind := ⟨DocumentDiagnosticReportKind.codec⟩

instance : Argument (OptionsOrRegistration DiagnosticOptions) :=
  ⟨OptionsOrRegistration.codec DiagnosticOptions.record⟩

instance : Argument TraceValue := ⟨TraceValue.codec⟩

instance : Argument MessageType := ⟨MessageType.codec⟩

instance : Argument SyncMode := ⟨SyncMode.codec⟩

instance : Argument ServerConfig := ⟨ServerConfig.codec⟩

instance : Argument ResponseError := ⟨ResponseError.codec⟩

instance : Argument ResponseMessage := ⟨ResponseMessage.codec⟩

instance {α : Type} [Argument α] : Argument (Option α) := ⟨Argument.codec.option⟩

instance {α : Type} [Argument α] : Argument (List α) := ⟨Argument.codec.list⟩

/-- Functions of some arguments, with their results. -/
class Applicable (τ : Type) (ρ : outParam Type) where
  apply : τ → List Json → Outcome ρ

instance (priority := low) {ρ : Type} : Applicable ρ ρ := ⟨fun r _ => .ok r⟩

instance {α τ ρ : Type} [Argument α] [Applicable τ ρ] : Applicable (α → τ) ρ where
  apply f args := do
    let a ← (Argument.codec.ofJson (args.headD .null)).mapError LspError.ofDecode
    Applicable.apply (f a) args.tail

/-- A function on documents with a name. -/
structure Operation where
  name : String
  run : List Json → Outcome Json

namespace Operation

/-- A function whose result is written by a codec. -/
def pure {τ ρ : Type} [Applicable τ ρ] (name : String) (r : Codec ρ) (f : τ) : Operation :=
  ⟨name, fun args => (Applicable.apply f args).map r.encode⟩

/-- A function with errors of its own. -/
def failing {τ ρ : Type} [Applicable τ (Outcome ρ)] (name : String) (r : Codec ρ) (f : τ) :
    Operation :=
  ⟨name, fun args => do
    let outcome ← Applicable.apply f args
    outcome.map r.encode⟩

/-- The sign of a comparison. -/
def sign : Codec Ordering where
  encode
    | .lt => .int (-1)
    | .eq => .int 0
    | .gt => .int 1
  decode s := s.refuse "nothing"

/-- The text of an open kind, as it is kept, shown and written. -/
def kindTexts (text : String) : List Json := List.replicate 3 (.string text)

/-- Positions, ranges and places. -/
def places : List Operation := [
  pure "Position.new" Position.codec Position.mk,
  pure "Position.start" Position.codec Position.start,
  pure "Position.compare" sign Position.compare,
  pure "Range.new" Range.codec Range.mk,
  pure "Range.ofCounts" Range.codec Range.ofCounts,
  pure "Range.contains" Codec.bool Range.contains,
  pure "Range.isEmpty" Codec.bool Range.isEmpty,
  pure "Range.isWellFormed" Codec.bool Range.isWellFormed,
  pure "PositionEncodingKind.name" Codec.string PositionEncodingKind.name,
  pure "PositionEncodingKind.ofName" PositionEncodingKind.codec.option
    PositionEncodingKind.ofName?,
  pure "Location.new" Location.codec Location.mk,
  pure "TextDocumentPositionParams.new" TextDocumentPositionParams.codec
    TextDocumentPositionParams.new,
  pure "PositionRequestParams.new" PositionRequestParams.codec
    PositionRequestParams.new,
  pure "PositionPartialResultParams.new" PositionPartialResultParams.codec
    PositionPartialResultParams.new,
  pure "CompletionParams.new" CompletionParams.codec CompletionParams.new]

/-- Documents and their texts. -/
def documents : List Operation := [
  pure "TextDocumentIdentifier.new" TextDocumentIdentifier.codec TextDocumentIdentifier.mk,
  pure "TextDocumentItem.new" TextDocumentItem.codec TextDocumentItem.mk,
  pure "VersionedTextDocumentIdentifier.new" VersionedTextDocumentIdentifier.codec
    VersionedTextDocumentIdentifier.mk,
  pure "OptionalVersionedTextDocumentIdentifier.new" OptionalVersionedTextDocumentIdentifier.codec
    OptionalVersionedTextDocumentIdentifier.mk,
  pure "DocumentRequestParams.new" DocumentRequestParams.codec DocumentRequestParams.new,
  pure "TextEdit.new" TextEdit.codec TextEdit.mk,
  pure "TextEdit.insert" TextEdit.codec TextEdit.insert,
  pure "TextEdit.delete" TextEdit.codec TextEdit.delete,
  pure "TextEditOrAnnotated.of" TextEditOrAnnotated.codec.list
    fun (plain : TextEdit) (annotated : AnnotatedTextEdit) =>
      [TextEditOrAnnotated.plain plain, .annotated annotated],
  pure "TextDocumentContentChangeEvent.parts" Codec.json
    fun (e : TextDocumentContentChangeEvent) =>
      Json.ofPairs [("text", .string e.text), ("range", Range.codec.option.encode e.range?)],
  pure "TextDocumentSyncKind.of" TextDocumentSyncKind.codec SyncMode.kind,
  pure "NotebookCellTextChange.of" NotebookCellTextChange.codec NotebookCellTextChange.ofDocument,
  pure "FileEvent.new" FileEvent.codec FileEvent.mk,
  pure "WatchKind.wellKnown" WatchKind.codec.list [WatchKind.create, .change, .delete],
  pure "WatchKind.all" WatchKind.codec WatchKind.all,
  pure "WatchKind.contains" Codec.bool WatchKind.contains,
  pure "WatchKind.union" WatchKind.codec WatchKind.union]

/-- What is shown to the user. -/
def shown : List Operation := [
  pure "Command.new" Command.codec Command.new,
  pure "MarkupContent.ofMarkdown" MarkupContent.codec MarkupContent.ofMarkdown,
  pure "MarkupContent.ofPlainText" MarkupContent.codec MarkupContent.ofPlainText,
  pure "Hover.ofMarkdown" Hover.codec Hover.ofMarkdown,
  pure "InlayHintLabel.of" InlayHintLabel.codec InlayHintLabel.string,
  pure "MessageActionItem.new" MessageActionItem.codec MessageActionItem.plain,
  pure "CompletionItem.plain" CompletionItem.codec CompletionItem.plain,
  pure "CompletionResponse.of" CompletionResponse.codec CompletionResponse.items,
  pure "CodeActionKind.new" Codec.json fun (text : String) =>
    Json.array (kindTexts text ++
      [.bool (CodeActionKind.mk (CodeActionKind.mk text).value == ⟨text⟩)]),
  pure "CodeActionKind.wellKnown" CodeActionKind.codec.list CodeActionKind.wellKnown,
  pure "FoldingRangeKind.new" Codec.json fun (text : String) => Json.array (kindTexts text),
  pure "FoldingRangeKind.wellKnown" FoldingRangeKind.codec.list FoldingRangeKind.wellKnown]

/-- A report with its kind. -/
def kindAndValue (report : DiagnosticReport) (value : Json) : Json :=
  .ofPairs [("kind", .string report.kind.name), ("value", value)]

/-- Diagnostics and their reports. -/
def diagnostics : List Operation := [
  pure "Diagnostic.plain" Diagnostic.codec Diagnostic.plain,
  pure "PublishDiagnosticsParams.new" PublishDiagnosticsParams.codec
    fun (uri : String) (diagnostics : List Diagnostic) (version : Option Int32) =>
      PublishDiagnosticsParams.mk uri version diagnostics,
  failing "DocumentDiagnosticReportKind.ofName" DocumentDiagnosticReportKind.codec
    DocumentDiagnosticReportKind.ofName,
  pure "DocumentDiagnosticReportKind.name" Codec.string DocumentDiagnosticReportKind.name,
  pure "DocumentDiagnosticReport.full" DocumentDiagnosticReport.codec DocumentDiagnosticReport.full,
  pure "DocumentDiagnosticReport.unchanged" DocumentDiagnosticReport.codec
    DocumentDiagnosticReport.unchanged,
  failing "DocumentDiagnosticReport.ofJson" Codec.json fun (j : Json) =>
    (DocumentDiagnosticReport.ofJson j).map fun r => kindAndValue r.report r.toJson,
  failing "WorkspaceDocumentDiagnosticReport.ofJson" Codec.json fun (j : Json) =>
    (WorkspaceDocumentDiagnosticReport.ofJson j).map fun r => kindAndValue r.report r.toJson]

/-- What both sides can do. -/
def features : List Operation := [
  pure "BoolOrOptions.of" (BoolOrOptions.codec WorkDoneProgressOptions.codec) BoolOrOptions.bool,
  pure "ProviderCapability.of" (ProviderCapability.codec WorkDoneProgressOptions.record)
    ProviderCapability.bool,
  pure "RegistrationOptions.new" (RegistrationOptions.codec WorkDoneProgressOptions.record)
    (@RegistrationOptions.mk WorkDoneProgressOptions),
  pure "OptionsOrRegistration.get" DiagnosticOptions.codec
    fun (o : OptionsOrRegistration DiagnosticOptions) => o.get,
  pure "OptionsOrRegistration.withIdentifier" (OptionsOrRegistration.codec DiagnosticOptions.record)
    fun (o : OptionsOrRegistration DiagnosticOptions) (identifier : Option String) =>
      o.modify fun options => { options with identifier },
  pure "SemanticTokensRangeOption.isSupported" Codec.bool SemanticTokensRangeOption.isSupported,
  pure "Registration.new" Registration.codec
    fun (id method : String) => ({ id, method } : Registration),
  pure "Registration.withOptions" Registration.codec
    fun (id method : String) (options : LspAny) => Registration.mk id method (some options),
  pure "ConfigurationItem.ofSection" ConfigurationItem.codec ConfigurationItem.ofSection,
  pure "ClientCapabilities.support" Codec.json fun (c : ClientCapabilities) => Json.ofPairs [
    ("encodings", PositionEncodingKind.codec.list.encode c.positionEncodings),
    ("configuration", .bool c.supportsConfiguration),
    ("workDoneProgress", .bool c.supportsWorkDoneProgress)],
  pure "ServerConfig.default" ServerConfig.codec ServerConfig.default,
  pure "ServerConfig.new" ServerConfig.codec ServerConfig.named,
  pure "ServerConfig.serverInfo" ServerInfo.codec ServerConfig.serverInfo,
  pure "ServerConfig.build" ServerConfig.codec
    fun (name version : String) (positionEncodings : List PositionEncodingKind)
        (textDocumentSync : SyncMode) (saveIncludeText : Bool)
        (semanticTokensLegend : SemanticTokensLegend) (commands : List String) =>
      ({ ServerConfig.named name with
        version := some version
        positionEncodings, textDocumentSync, saveIncludeText
        semanticTokensLegend, commands } : ServerConfig)]

/-- The result or the error of a response. -/
def responseParts (m : ResponseMessage) : Json :=
  .ofPairs (("isError", .bool m.isError) ::
    match m.toResult with
    | .ok result => [("result", result)]
    | .error e => [("err", ResponseError.codec.encode e), ("display", .string e.text)])

/-- Messages and errors. -/
def messages : List Operation := [
  pure "RequestMessage.new" RequestMessage.codec
    fun (id : Id) (method : String) => RequestMessage.mk protocolVersion id method none,
  pure "RequestMessage.withParams" RequestMessage.codec
    fun (id : Id) (method : String) (params : Json) =>
      RequestMessage.mk protocolVersion id method (some params),
  pure "NotificationMessage.new" NotificationMessage.codec
    fun (method : String) => NotificationMessage.mk protocolVersion method none,
  pure "NotificationMessage.withParams" NotificationMessage.codec
    fun (method : String) (params : Json) =>
      NotificationMessage.mk protocolVersion method (some params),
  pure "ResponseMessage.success" ResponseMessage.codec ResponseMessage.success,
  pure "ResponseMessage.failure" ResponseMessage.codec ResponseMessage.failure,
  pure "ResponseMessage.isError" Codec.bool ResponseMessage.isError,
  pure "ResponseMessage.toResult" Codec.json responseParts,
  pure "ResponseError.new" ResponseError.codec
    fun (code : Int32) (message : String) => ResponseError.mk code message none,
  pure "ResponseError.withData" ResponseError.codec
    fun (code : Int32) (message : String) (data : Json) =>
      ResponseError.mk code message (some data),
  pure "Method.isUngated" Codec.bool Method.isUngated,
  pure "Method.isOptional" Codec.bool Method.isOptional]

/-- Values of any kind, identifiers and levels. -/
def values : List Operation := [
  pure "TraceValue.compare" sign TraceValue.compare,
  pure "TraceValue.admits" Codec.bool TraceValue.admits,
  pure "IntOrString.compare" sign IntOrString.compare,
  pure "IntOrString.eq" Codec.bool fun (a b : IntOrString) => a == b,
  pure "IntOrString.text" Codec.string IntOrString.text,
  pure "IntOrString.ofInt" IntOrString.codec IntOrString.int,
  pure "IntOrString.ofString" IntOrString.codec IntOrString.string,
  pure "BoolOrString.ofBool" BoolOrString.codec BoolOrString.bool,
  pure "BoolOrString.ofString" BoolOrString.codec BoolOrString.string]

/-- All operations. -/
def all : List Operation :=
  places ++ documents ++ shown ++ diagnostics ++ features ++ messages ++ values

/-- The order of two values of a type by how they are written: numbers by size, strings by their
characters. -/
def ofType (t : TypeEntry) (name : String) (f : Ordering → Json) : Operation where
  name
  run args := do
    let a ← (t.codec.ofJson (args.headD .null)).mapError LspError.ofDecode
    let b ← (t.codec.ofJson (args.tail.headD .null)).mapError LspError.ofDecode
    match t.codec.encode a, t.codec.encode b with
    | .number (.int m), .number (.int n) => .ok (f (compare m n))
    | .string m, .string n => .ok (f (compare m n))
    | m, n => .ok (f (if m == n then .eq else .lt))

/-- The operation of a name; values of every type can be compared. -/
def named? (name : String) : Option Operation :=
  match all.find? (·.name == name) with
  | some operation => some operation
  | none =>
    match name.splitOn "." with
    | [type, "compare"] => (Catalogue.type? type).map fun t => ofType t name sign.encode
    | [type, "eq"] => (Catalogue.type? type).map fun t => ofType t name fun o => .bool (o == .eq)
    | _ => none

end Operation

end LanguageServer
