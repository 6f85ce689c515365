import LanguageServer.Handler.Activity
import LanguageServer.Protocol.DiagnosticReport
import LanguageServer.Protocol.Registration
import LanguageServer.Protocol.Window
import LanguageServer.Protocol.Workspace

/-!
# Speaking to the client

Typed notifications and requests from the server to the client.  Parameters are written as values of
any kind; the answer to a request is read as the type that the request wants.
-/

namespace LanguageServer

namespace Client

/-- Send a notification. -/
def notify {π : Type} (method : String) (c : Codec π) (params : π) : Act (Outcome Unit) :=
  Act.notify method (.ofTyped c params)

/-- Send a request and read its answer. -/
def request {π ρ : Type} (method : String) (c : Codec π) (params : π) (r : Codec ρ) :
    Act (Outcome ρ) := do
  match ← Act.call method (.ofTyped c params) with
  | .ok answer => pure ((answer.decodeAs r).mapError .ofDecode)
  | .error e => pure (.error e)

/-- Report progress of any kind. -/
def progress (token : ProgressToken) (value : ProgressValue) : Act (Outcome Unit) :=
  notify Method.progress ProgressParams.codec ⟨token, value⟩

/-- Report progress of work. -/
def workDoneProgress (token : ProgressToken) (progress : WorkDoneProgress) : Act (Outcome Unit) :=
  Client.progress token (.workDone progress)

/-- Have a message logged. -/
def logMessage (type : MessageType) (message : String) : Act (Outcome Unit) :=
  notify Method.logMessage LogMessageParams.codec ⟨type, message⟩

/-- Have a message shown. -/
def showMessage (type : MessageType) (message : String) : Act (Outcome Unit) :=
  notify Method.showMessage ShowMessageParams.codec ⟨type, message⟩

/-- Have the user pick an action, or none. -/
def showMessageRequest (params : ShowMessageRequestParams) :
    Act (Outcome (Option MessageActionItem)) :=
  request Method.showMessageRequest ShowMessageRequestParams.codec params
    MessageActionItem.codec.option

/-- Have a document shown. -/
def showDocument (params : ShowDocumentParams) : Act (Outcome ShowDocumentResult) :=
  request Method.showDocument ShowDocumentParams.codec params ShowDocumentResult.codec

/-- Ask for progress of work under a token. -/
def workDoneProgressCreate (token : ProgressToken) : Act (Outcome Unit) :=
  request Method.workDoneProgressCreate WorkDoneProgressCreateParams.codec ⟨token⟩ Codec.unit

/-- Have an event recorded. -/
def telemetryEvent (data : LspAny) : Act (Outcome Unit) :=
  notify Method.telemetryEvent LspAny.codec data

/-- Tell about the server's own doings. -/
def logTrace (params : LogTraceParams) : Act (Outcome Unit) :=
  notify Method.logTrace LogTraceParams.codec params

/-- Publish the diagnostics of a document. -/
def publishDiagnostics (params : PublishDiagnosticsParams) : Act (Outcome Unit) :=
  notify Method.publishDiagnostics PublishDiagnosticsParams.codec params

/-- Have an edit applied. -/
def applyEdit (params : ApplyWorkspaceEditParams) : Act (Outcome ApplyWorkspaceEditResult) :=
  request Method.applyEdit ApplyWorkspaceEditParams.codec params ApplyWorkspaceEditResult.codec

/-- Announce features. -/
def registerCapability (params : RegistrationParams) : Act (Outcome Unit) :=
  request Method.registerCapability RegistrationParams.codec params Codec.unit

/-- Withdraw features. -/
def unregisterCapability (params : UnregistrationParams) : Act (Outcome Unit) :=
  request Method.unregisterCapability UnregistrationParams.codec params Codec.unit

/-- Ask for the workspace folders; there are none when only a file is open. -/
def workspaceFolders : Act (Outcome (Option (List WorkspaceFolder))) :=
  request Method.workspaceFolders LspAny.codec .null WorkspaceFolder.codec.list.option

/-- Ask for settings, one answer for each item. -/
def configuration (params : ConfigurationParams) : Act (Outcome (List LspAny)) :=
  request Method.configuration ConfigurationParams.codec params LspAny.codec.list

/-- Have the client ask again; the answer does not matter. -/
def refresh (method : String) : Act (Outcome Unit) :=
  (request method LspAny.codec .null LspAny.codec).andThen fun _ => pure (.ok ())

/-- Have the client ask for code lenses again. -/
def codeLensRefresh : Act (Outcome Unit) := refresh Method.codeLensRefresh

/-- Have the client ask for semantic tokens again. -/
def semanticTokensRefresh : Act (Outcome Unit) := refresh Method.semanticTokensRefresh

/-- Have the client ask for inlay hints again. -/
def inlayHintRefresh : Act (Outcome Unit) := refresh Method.inlayHintRefresh

/-- Have the client ask for inline values again. -/
def inlineValueRefresh : Act (Outcome Unit) := refresh Method.inlineValueRefresh

/-- Have the client ask for diagnostics again. -/
def diagnosticRefresh : Act (Outcome Unit) := refresh Method.diagnosticRefresh

end Client

end LanguageServer
