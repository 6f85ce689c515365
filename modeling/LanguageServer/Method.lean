/-!
# Methods

The methods that the server knows by name, in one place, so that registration, announcement and
dispatch agree on the spelling.
-/

namespace LanguageServer

namespace Method

def initialization : String := "initialize"

def initialized : String := "initialized"

def shutdown : String := "shutdown"

def exit : String := "exit"

def setTrace : String := "$/setTrace"

def logTrace : String := "$/logTrace"

def cancelRequest : String := "$/cancelRequest"

def progress : String := "$/progress"

def registerCapability : String := "client/registerCapability"

def unregisterCapability : String := "client/unregisterCapability"

def showMessage : String := "window/showMessage"

def showMessageRequest : String := "window/showMessageRequest"

def showDocument : String := "window/showDocument"

def logMessage : String := "window/logMessage"

def workDoneProgressCreate : String := "window/workDoneProgress/create"

def workDoneProgressCancel : String := "window/workDoneProgress/cancel"

def telemetryEvent : String := "telemetry/event"

def didChangeConfiguration : String := "workspace/didChangeConfiguration"

def didChangeWatchedFiles : String := "workspace/didChangeWatchedFiles"

def didChangeWorkspaceFolders : String := "workspace/didChangeWorkspaceFolders"

def workspaceFolders : String := "workspace/workspaceFolders"

def configuration : String := "workspace/configuration"

def applyEdit : String := "workspace/applyEdit"

def workspaceSymbol : String := "workspace/symbol"

def workspaceSymbolResolve : String := "workspaceSymbol/resolve"

def executeCommand : String := "workspace/executeCommand"

def willCreateFiles : String := "workspace/willCreateFiles"

def didCreateFiles : String := "workspace/didCreateFiles"

def willRenameFiles : String := "workspace/willRenameFiles"

def didRenameFiles : String := "workspace/didRenameFiles"

def willDeleteFiles : String := "workspace/willDeleteFiles"

def didDeleteFiles : String := "workspace/didDeleteFiles"

def workspaceDiagnostic : String := "workspace/diagnostic"

def diagnosticRefresh : String := "workspace/diagnostic/refresh"

def codeLensRefresh : String := "workspace/codeLens/refresh"

def semanticTokensRefresh : String := "workspace/semanticTokens/refresh"

def inlayHintRefresh : String := "workspace/inlayHint/refresh"

def inlineValueRefresh : String := "workspace/inlineValue/refresh"

def didOpen : String := "textDocument/didOpen"

def didChange : String := "textDocument/didChange"

def willSave : String := "textDocument/willSave"

def willSaveWaitUntil : String := "textDocument/willSaveWaitUntil"

def didSave : String := "textDocument/didSave"

def didClose : String := "textDocument/didClose"

def notebookDocumentDidOpen : String := "notebookDocument/didOpen"

def notebookDocumentDidChange : String := "notebookDocument/didChange"

def notebookDocumentDidSave : String := "notebookDocument/didSave"

def notebookDocumentDidClose : String := "notebookDocument/didClose"

def declaration : String := "textDocument/declaration"

def definition : String := "textDocument/definition"

def typeDefinition : String := "textDocument/typeDefinition"

def implementation : String := "textDocument/implementation"

def references : String := "textDocument/references"

def hover : String := "textDocument/hover"

def signatureHelp : String := "textDocument/signatureHelp"

def documentHighlight : String := "textDocument/documentHighlight"

def documentLink : String := "textDocument/documentLink"

def documentLinkResolve : String := "documentLink/resolve"

def documentSymbol : String := "textDocument/documentSymbol"

def codeAction : String := "textDocument/codeAction"

def codeActionResolve : String := "codeAction/resolve"

def codeLens : String := "textDocument/codeLens"

def codeLensResolve : String := "codeLens/resolve"

def documentColor : String := "textDocument/documentColor"

def colorPresentation : String := "textDocument/colorPresentation"

def formatting : String := "textDocument/formatting"

def rangeFormatting : String := "textDocument/rangeFormatting"

def onTypeFormatting : String := "textDocument/onTypeFormatting"

def rename : String := "textDocument/rename"

def prepareRename : String := "textDocument/prepareRename"

def linkedEditingRange : String := "textDocument/linkedEditingRange"

def foldingRange : String := "textDocument/foldingRange"

def selectionRange : String := "textDocument/selectionRange"

def semanticTokensFull : String := "textDocument/semanticTokens/full"

def semanticTokensFullDelta : String := "textDocument/semanticTokens/full/delta"

def semanticTokensRange : String := "textDocument/semanticTokens/range"

def moniker : String := "textDocument/moniker"

def prepareCallHierarchy : String := "textDocument/prepareCallHierarchy"

def callHierarchyIncomingCalls : String := "callHierarchy/incomingCalls"

def callHierarchyOutgoingCalls : String := "callHierarchy/outgoingCalls"

def prepareTypeHierarchy : String := "textDocument/prepareTypeHierarchy"

def typeHierarchySupertypes : String := "typeHierarchy/supertypes"

def typeHierarchySubtypes : String := "typeHierarchy/subtypes"

def inlayHint : String := "textDocument/inlayHint"

def inlayHintResolve : String := "inlayHint/resolve"

def inlineValue : String := "textDocument/inlineValue"

def diagnostic : String := "textDocument/diagnostic"

def publishDiagnostics : String := "textDocument/publishDiagnostics"

def completion : String := "textDocument/completion"

def completionItemResolve : String := "completionItem/resolve"

/-- The methods that pass in every state of the lifecycle. -/
def ungated : List String := [initialization, exit]

/-- Whether a method passes in every state of the lifecycle. -/
def isUngated (method : String) : Bool := ungated.contains method

/-- Whether a method is of the kind that a server may ignore when it is a notification. -/
def isOptional (method : String) : Bool := ['$', '/'].isPrefixOf method.toList

end Method

end LanguageServer
