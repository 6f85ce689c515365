import LanguageServer.Handler.Registry
import LanguageServer.Protocol.CodeAction
import LanguageServer.Protocol.Color
import LanguageServer.Protocol.Command
import LanguageServer.Protocol.Completion
import LanguageServer.Protocol.DiagnosticReport
import LanguageServer.Protocol.Document
import LanguageServer.Protocol.DocumentSync
import LanguageServer.Protocol.Edit
import LanguageServer.Protocol.FileOperation
import LanguageServer.Protocol.Folding
import LanguageServer.Protocol.Formatting
import LanguageServer.Protocol.Hierarchy
import LanguageServer.Protocol.Hover
import LanguageServer.Protocol.Initialize
import LanguageServer.Protocol.Inlay
import LanguageServer.Protocol.Link
import LanguageServer.Protocol.Message
import LanguageServer.Protocol.Navigation
import LanguageServer.Protocol.Notebook
import LanguageServer.Protocol.Progress
import LanguageServer.Protocol.Rename
import LanguageServer.Protocol.SemanticTokens
import LanguageServer.Protocol.Signature
import LanguageServer.Protocol.Symbol
import LanguageServer.Protocol.Workspace

/-!
# The messages that a server can handle

`RequestType` and `NotificationType` tie a method to the types of its parameters and its result, so
that `Handler.onRequest .hover f` takes callbacks of the right type only. `Endpoint.ofMethod?` finds
the types of a method by its name.
-/

namespace LanguageServer

/-- A method with the types of its parameters and its result. -/
structure RequestType (π ρ : Type) where
  method : String
  params : Codec π
  result : Codec ρ

/-- A method with the type of its parameters. -/
structure NotificationType (π : Type) where
  method : String
  params : Codec π

namespace NotificationType

def initialized : NotificationType InitializedParams :=
  ⟨Method.initialized, InitializedParams.codec⟩

def setTrace : NotificationType SetTraceParams := ⟨Method.setTrace, SetTraceParams.codec⟩

def cancelRequest : NotificationType CancelParams := ⟨Method.cancelRequest, CancelParams.codec⟩

def progress : NotificationType ProgressParams := ⟨Method.progress, ProgressParams.codec⟩

def workDoneProgressCancel : NotificationType WorkDoneProgressCancelParams :=
  ⟨Method.workDoneProgressCancel, WorkDoneProgressCancelParams.codec⟩

def didChangeConfiguration : NotificationType DidChangeConfigurationParams :=
  ⟨Method.didChangeConfiguration, DidChangeConfigurationParams.codec⟩

def didChangeWatchedFiles : NotificationType DidChangeWatchedFilesParams :=
  ⟨Method.didChangeWatchedFiles, DidChangeWatchedFilesParams.codec⟩

def didChangeWorkspaceFolders : NotificationType DidChangeWorkspaceFoldersParams :=
  ⟨Method.didChangeWorkspaceFolders, DidChangeWorkspaceFoldersParams.codec⟩

def didCreateFiles : NotificationType CreateFilesParams :=
  ⟨Method.didCreateFiles, CreateFilesParams.codec⟩

def didRenameFiles : NotificationType RenameFilesParams :=
  ⟨Method.didRenameFiles, RenameFilesParams.codec⟩

def didDeleteFiles : NotificationType DeleteFilesParams :=
  ⟨Method.didDeleteFiles, DeleteFilesParams.codec⟩

def didOpen : NotificationType DidOpenTextDocumentParams :=
  ⟨Method.didOpen, DidOpenTextDocumentParams.codec⟩

def didChange : NotificationType DidChangeTextDocumentParams :=
  ⟨Method.didChange, DidChangeTextDocumentParams.codec⟩

def willSave : NotificationType WillSaveTextDocumentParams :=
  ⟨Method.willSave, WillSaveTextDocumentParams.codec⟩

def didSave : NotificationType DidSaveTextDocumentParams :=
  ⟨Method.didSave, DidSaveTextDocumentParams.codec⟩

def didClose : NotificationType DidCloseTextDocumentParams :=
  ⟨Method.didClose, DidCloseTextDocumentParams.codec⟩

def notebookDocumentDidOpen : NotificationType DidOpenNotebookDocumentParams :=
  ⟨Method.notebookDocumentDidOpen, DidOpenNotebookDocumentParams.codec⟩

def notebookDocumentDidChange : NotificationType DidChangeNotebookDocumentParams :=
  ⟨Method.notebookDocumentDidChange, DidChangeNotebookDocumentParams.codec⟩

def notebookDocumentDidSave : NotificationType DidSaveNotebookDocumentParams :=
  ⟨Method.notebookDocumentDidSave, DidSaveNotebookDocumentParams.codec⟩

def notebookDocumentDidClose : NotificationType DidCloseNotebookDocumentParams :=
  ⟨Method.notebookDocumentDidClose, DidCloseNotebookDocumentParams.codec⟩

end NotificationType

namespace RequestType

def willSaveWaitUntil : RequestType WillSaveTextDocumentParams (Option (List TextEdit)) :=
  ⟨Method.willSaveWaitUntil, WillSaveTextDocumentParams.codec, TextEdit.codec.list.option⟩

def workspaceSymbol : RequestType WorkspaceSymbolParams (Option WorkspaceSymbolResponse) :=
  ⟨Method.workspaceSymbol, WorkspaceSymbolParams.codec, WorkspaceSymbolResponse.codec.option⟩

def workspaceSymbolResolve : RequestType WorkspaceSymbol WorkspaceSymbol :=
  ⟨Method.workspaceSymbolResolve, WorkspaceSymbol.codec, WorkspaceSymbol.codec⟩

def executeCommand : RequestType ExecuteCommandParams (Option LspAny) :=
  ⟨Method.executeCommand, ExecuteCommandParams.codec, LspAny.codec.option⟩

def willCreateFiles : RequestType CreateFilesParams (Option WorkspaceEdit) :=
  ⟨Method.willCreateFiles, CreateFilesParams.codec, WorkspaceEdit.codec.option⟩

def willRenameFiles : RequestType RenameFilesParams (Option WorkspaceEdit) :=
  ⟨Method.willRenameFiles, RenameFilesParams.codec, WorkspaceEdit.codec.option⟩

def willDeleteFiles : RequestType DeleteFilesParams (Option WorkspaceEdit) :=
  ⟨Method.willDeleteFiles, DeleteFilesParams.codec, WorkspaceEdit.codec.option⟩

def workspaceDiagnostic : RequestType WorkspaceDiagnosticParams WorkspaceDiagnosticReport :=
  ⟨Method.workspaceDiagnostic, WorkspaceDiagnosticParams.codec, WorkspaceDiagnosticReport.codec⟩

def declaration : RequestType PositionPartialResultParams (Option GotoDefinitionResponse) :=
  ⟨Method.declaration, PositionPartialResultParams.codec, GotoDefinitionResponse.codec.option⟩

def definition : RequestType PositionPartialResultParams (Option GotoDefinitionResponse) :=
  ⟨Method.definition, PositionPartialResultParams.codec, GotoDefinitionResponse.codec.option⟩

def typeDefinition : RequestType PositionPartialResultParams (Option GotoDefinitionResponse) :=
  ⟨Method.typeDefinition, PositionPartialResultParams.codec, GotoDefinitionResponse.codec.option⟩

def implementation : RequestType PositionPartialResultParams (Option GotoDefinitionResponse) :=
  ⟨Method.implementation, PositionPartialResultParams.codec, GotoDefinitionResponse.codec.option⟩

def references : RequestType ReferenceParams (Option (List Location)) :=
  ⟨Method.references, ReferenceParams.codec, Location.codec.list.option⟩

def hover : RequestType PositionRequestParams (Option Hover) :=
  ⟨Method.hover, PositionRequestParams.codec, Hover.codec.option⟩

def signatureHelp : RequestType SignatureHelpParams (Option SignatureHelp) :=
  ⟨Method.signatureHelp, SignatureHelpParams.codec, SignatureHelp.codec.option⟩

def documentHighlight : RequestType PositionPartialResultParams (Option (List DocumentHighlight)) :=
  ⟨Method.documentHighlight, PositionPartialResultParams.codec, DocumentHighlight.codec.list.option⟩

def documentSymbol : RequestType DocumentRequestParams (Option DocumentSymbolResponse) :=
  ⟨Method.documentSymbol, DocumentRequestParams.codec, DocumentSymbolResponse.codec.option⟩

def documentLink : RequestType DocumentRequestParams (Option (List DocumentLink)) :=
  ⟨Method.documentLink, DocumentRequestParams.codec, DocumentLink.codec.list.option⟩

def documentLinkResolve : RequestType DocumentLink DocumentLink :=
  ⟨Method.documentLinkResolve, DocumentLink.codec, DocumentLink.codec⟩

def codeAction : RequestType CodeActionParams (Option (List CodeActionOrCommand)) :=
  ⟨Method.codeAction, CodeActionParams.codec, CodeActionOrCommand.codec.list.option⟩

def codeActionResolve : RequestType CodeAction CodeAction :=
  ⟨Method.codeActionResolve, CodeAction.codec, CodeAction.codec⟩

def codeLens : RequestType DocumentRequestParams (Option (List CodeLens)) :=
  ⟨Method.codeLens, DocumentRequestParams.codec, CodeLens.codec.list.option⟩

def codeLensResolve : RequestType CodeLens CodeLens :=
  ⟨Method.codeLensResolve, CodeLens.codec, CodeLens.codec⟩

def documentColor : RequestType DocumentRequestParams (List ColorInformation) :=
  ⟨Method.documentColor, DocumentRequestParams.codec, ColorInformation.codec.list⟩

def colorPresentation : RequestType ColorPresentationParams (List ColorPresentation) :=
  ⟨Method.colorPresentation, ColorPresentationParams.codec, ColorPresentation.codec.list⟩

def formatting : RequestType DocumentFormattingParams (Option (List TextEdit)) :=
  ⟨Method.formatting, DocumentFormattingParams.codec, TextEdit.codec.list.option⟩

def rangeFormatting : RequestType DocumentRangeFormattingParams (Option (List TextEdit)) :=
  ⟨Method.rangeFormatting, DocumentRangeFormattingParams.codec, TextEdit.codec.list.option⟩

def onTypeFormatting : RequestType DocumentOnTypeFormattingParams (Option (List TextEdit)) :=
  ⟨Method.onTypeFormatting, DocumentOnTypeFormattingParams.codec, TextEdit.codec.list.option⟩

def rename : RequestType RenameParams (Option WorkspaceEdit) :=
  ⟨Method.rename, RenameParams.codec, WorkspaceEdit.codec.option⟩

def prepareRename : RequestType PositionRequestParams (Option PrepareRenameResponse) :=
  ⟨Method.prepareRename, PositionRequestParams.codec, PrepareRenameResponse.codec.option⟩

def linkedEditingRange : RequestType PositionRequestParams (Option LinkedEditingRanges) :=
  ⟨Method.linkedEditingRange, PositionRequestParams.codec, LinkedEditingRanges.codec.option⟩

def foldingRange : RequestType DocumentRequestParams (Option (List FoldingRange)) :=
  ⟨Method.foldingRange, DocumentRequestParams.codec, FoldingRange.codec.list.option⟩

def selectionRange : RequestType SelectionRangeParams (Option (List SelectionRange)) :=
  ⟨Method.selectionRange, SelectionRangeParams.codec, SelectionRange.codec.list.option⟩

def semanticTokensFull : RequestType DocumentRequestParams (Option SemanticTokens) :=
  ⟨Method.semanticTokensFull, DocumentRequestParams.codec, SemanticTokens.codec.option⟩

def semanticTokensFullDelta :
    RequestType SemanticTokensDeltaParams (Option SemanticTokensFullDeltaResult) :=
  ⟨Method.semanticTokensFullDelta, SemanticTokensDeltaParams.codec,
    SemanticTokensFullDeltaResult.codec.option⟩

def semanticTokensRange : RequestType SemanticTokensRangeParams (Option SemanticTokens) :=
  ⟨Method.semanticTokensRange, SemanticTokensRangeParams.codec, SemanticTokens.codec.option⟩

def moniker : RequestType PositionPartialResultParams (Option (List Moniker)) :=
  ⟨Method.moniker, PositionPartialResultParams.codec, Moniker.codec.list.option⟩

def prepareCallHierarchy : RequestType PositionRequestParams (Option (List CallHierarchyItem)) :=
  ⟨Method.prepareCallHierarchy, PositionRequestParams.codec, CallHierarchyItem.codec.list.option⟩

def callHierarchyIncomingCalls :
    RequestType CallHierarchyIncomingCallsParams (Option (List CallHierarchyIncomingCall)) :=
  ⟨Method.callHierarchyIncomingCalls, CallHierarchyIncomingCallsParams.codec,
    CallHierarchyIncomingCall.codec.list.option⟩

def callHierarchyOutgoingCalls :
    RequestType CallHierarchyIncomingCallsParams (Option (List CallHierarchyOutgoingCall)) :=
  ⟨Method.callHierarchyOutgoingCalls, CallHierarchyIncomingCallsParams.codec,
    CallHierarchyOutgoingCall.codec.list.option⟩

def prepareTypeHierarchy : RequestType PositionRequestParams (Option (List CallHierarchyItem)) :=
  ⟨Method.prepareTypeHierarchy, PositionRequestParams.codec, CallHierarchyItem.codec.list.option⟩

def typeHierarchySupertypes :
    RequestType TypeHierarchySupertypesParams (Option (List CallHierarchyItem)) :=
  ⟨Method.typeHierarchySupertypes, TypeHierarchySupertypesParams.codec,
    CallHierarchyItem.codec.list.option⟩

def typeHierarchySubtypes :
    RequestType TypeHierarchySupertypesParams (Option (List CallHierarchyItem)) :=
  ⟨Method.typeHierarchySubtypes, TypeHierarchySupertypesParams.codec,
    CallHierarchyItem.codec.list.option⟩

def inlayHint : RequestType InlayHintParams (Option (List InlayHint)) :=
  ⟨Method.inlayHint, InlayHintParams.codec, InlayHint.codec.list.option⟩

def inlayHintResolve : RequestType InlayHint InlayHint :=
  ⟨Method.inlayHintResolve, InlayHint.codec, InlayHint.codec⟩

def inlineValue : RequestType InlineValueParams (Option (List InlineValue)) :=
  ⟨Method.inlineValue, InlineValueParams.codec, InlineValue.codec.list.option⟩

def diagnostic : RequestType DocumentDiagnosticParams DocumentDiagnosticReport :=
  ⟨Method.diagnostic, DocumentDiagnosticParams.codec, DocumentDiagnosticReport.codec⟩

def completion : RequestType CompletionParams (Option CompletionResponse) :=
  ⟨Method.completion, CompletionParams.codec, CompletionResponse.codec.option⟩

def completionItemResolve : RequestType CompletionItem CompletionItem :=
  ⟨Method.completionItemResolve, CompletionItem.codec, CompletionItem.codec⟩

end RequestType

/-- A request or a notification of any type. -/
inductive Endpoint : Type 1 where
  | request {π ρ : Type} (type : RequestType π ρ)
  | notification {π : Type} (type : NotificationType π)

namespace Endpoint

/-- The name of the method. -/
def method : Endpoint → String
  | .request type => type.method
  | .notification type => type.method

/-- The notifications that a client sends. -/
def notifications : List Endpoint := [
  .notification .initialized, .notification .setTrace, .notification .cancelRequest,
  .notification .progress, .notification .workDoneProgressCancel,
  .notification .didChangeConfiguration, .notification .didChangeWatchedFiles,
  .notification .didChangeWorkspaceFolders, .notification .didCreateFiles,
  .notification .didRenameFiles, .notification .didDeleteFiles, .notification .didOpen,
  .notification .didChange, .notification .willSave, .notification .didSave,
  .notification .didClose, .notification .notebookDocumentDidOpen,
  .notification .notebookDocumentDidChange, .notification .notebookDocumentDidSave,
  .notification .notebookDocumentDidClose]

/-- The requests that a client sends. -/
def requests : List Endpoint := [
  .request .willSaveWaitUntil, .request .workspaceSymbol, .request .workspaceSymbolResolve,
  .request .executeCommand, .request .willCreateFiles, .request .willRenameFiles,
  .request .willDeleteFiles, .request .workspaceDiagnostic, .request .declaration,
  .request .definition, .request .typeDefinition, .request .implementation, .request .references,
  .request .hover, .request .signatureHelp, .request .documentHighlight, .request .documentSymbol,
  .request .documentLink, .request .documentLinkResolve, .request .codeAction,
  .request .codeActionResolve, .request .codeLens, .request .codeLensResolve,
  .request .documentColor, .request .colorPresentation, .request .formatting,
  .request .rangeFormatting, .request .onTypeFormatting, .request .rename, .request .prepareRename,
  .request .linkedEditingRange, .request .foldingRange, .request .selectionRange,
  .request .semanticTokensFull, .request .semanticTokensFullDelta, .request .semanticTokensRange,
  .request .moniker, .request .prepareCallHierarchy, .request .callHierarchyIncomingCalls,
  .request .callHierarchyOutgoingCalls, .request .prepareTypeHierarchy,
  .request .typeHierarchySupertypes, .request .typeHierarchySubtypes, .request .inlayHint,
  .request .inlayHintResolve, .request .inlineValue, .request .diagnostic, .request .completion,
  .request .completionItemResolve]

/-- The types of a method. -/
def ofMethod? (method : String) : Option Endpoint :=
  (notifications ++ requests).find? fun e => e.method == method

end Endpoint

namespace Handler

/-- Answer requests of a type. -/
def onRequest {π ρ : Type} (t : RequestType π ρ) (f : Context → π → Act (Outcome ρ))
    (h : Handler) : Handler :=
  h.register t.method (.request t.params t.result f)

/-- Take notifications of a type. -/
def onNotification {π : Type} (t : NotificationType π) (f : Context → π → Act (Outcome Unit))
    (h : Handler) : Handler :=
  h.register t.method (.notification t.params f)

end Handler

end LanguageServer
