import LanguageServer.Config
import LanguageServer.Protocol.Color
import LanguageServer.Protocol.Folding
import LanguageServer.Protocol.Formatting
import LanguageServer.Protocol.Hierarchy
import LanguageServer.Protocol.Inlay
import LanguageServer.Protocol.Link
import LanguageServer.Protocol.Message
import LanguageServer.Protocol.Registration

/-!
# The types of the protocol by name

Tools that work on documents of any type look the type up here: `Catalogue.record?` finds a record,
`Catalogue.type?` any type, `Catalogue.numbering?` an enumeration written as numbers.  A union or an
enumeration comes with the names of its alternatives.
-/

namespace LanguageServer

/-- A type with its codec and the names of its alternatives. -/
structure TypeEntry : Type 1 where
  name : String
  {carrier : Type}
  codec : Codec carrier
  alternative : carrier → Option String

namespace TypeEntry

/-- A type without alternatives. -/
def plain (name : String) {α : Type} (codec : Codec α) : TypeEntry := ⟨name, codec, fun _ => none⟩

/-- A type with alternatives. -/
def union (name : String) {α : Type} (codec : Codec α) (alternative : α → String) : TypeEntry :=
  ⟨name, codec, fun a => some (alternative a)⟩

/-- Lists of a type. -/
def list (t : TypeEntry) : TypeEntry := plain t.name t.codec.list

/-- Null or a value of a type. -/
def option (t : TypeEntry) : TypeEntry := plain t.name t.codec.option

/-- Values of a type under keys. -/
def dictionary (t : TypeEntry) : TypeEntry := plain t.name t.codec.dictionary

/-- A boolean or options of a type. -/
def boolOrOptions (t : TypeEntry) : TypeEntry :=
  union t.name (BoolOrOptions.codec t.codec) (fun
    | .bool _ => "Bool"
    | .options _ => "Options")

end TypeEntry

/-- A record type. -/
structure RecordEntry : Type 1 where
  {carrier : Type}
  record : Record carrier

namespace RecordEntry

/-- The name of a record type. -/
def name (r : RecordEntry) : String := r.record.name

/-- The record type as a type. -/
def type (r : RecordEntry) : TypeEntry := .plain r.name r.record.codec

/-- A boolean, options of a record type, or a registration of them. -/
def provider (r : RecordEntry) : TypeEntry :=
  .union r.name (ProviderCapability.codec r.record) (fun
    | .bool _ => "Bool"
    | .options _ => "Options"
    | .registration _ => "Registration")

/-- Options of a record type, or a registration of them. -/
def optionsOrRegistration (r : RecordEntry) : TypeEntry :=
  .union r.name (OptionsOrRegistration.codec r.record) (fun
    | .options _ => "Options"
    | .registration _ => "Registration")

/-- A registration of options of a record type. -/
def registration (r : RecordEntry) : TypeEntry :=
  .plain r.name (RegistrationOptions.codec r.record)

end RecordEntry

/-- An enumeration written as numbers, with the names of its values. -/
structure NumberingEntry : Type 1 where
  {carrier : Type}
  numbering : Numbering carrier
  names : List String

namespace NumberingEntry

/-- The name of a number. -/
def nameOf? (e : NumberingEntry) (n : Nat) : Option String :=
  match (e.numbering.values.map e.numbering.number).idxOf? n with
  | some i => e.names[i]?
  | none => none

end NumberingEntry

namespace Catalogue

/-- The record types. -/
def records : List RecordEntry := [
  ⟨AnnotatedTextEdit.record⟩, ⟨ApplyWorkspaceEditParams.record⟩, ⟨ApplyWorkspaceEditResult.record⟩,
  ⟨CallHierarchyIncomingCall.record⟩, ⟨CallHierarchyIncomingCallsParams.record⟩,
  ⟨CallHierarchyItem.record⟩, ⟨CallHierarchyOutgoingCall.record⟩, ⟨CancelParams.record⟩,
  ⟨ ChangeAnnotation.record⟩, ⟨ChangeAnnotationsSupportOptions.record⟩,
  ⟨ClientCapabilities.record⟩, ⟨ClientInfo.record⟩, ⟨CodeAction.record⟩,
  ⟨CodeActionClientCapabilities.record⟩, ⟨CodeActionContext.record⟩, ⟨CodeActionDisabled.record⟩,
  ⟨CodeActionKindValueSet.record⟩, ⟨CodeActionLiteralSupport.record⟩, ⟨CodeActionOptions.record⟩,
  ⟨CodeActionParams.record⟩, ⟨CodeDescription.record⟩, ⟨CodeLens.record⟩, ⟨Color.record⟩,
  ⟨ColorInformation.record⟩, ⟨ColorPresentation.record⟩, ⟨ColorPresentationParams.record⟩,
  ⟨Command.record⟩, ⟨CompletionClientCapabilities.record⟩, ⟨CompletionContext.record⟩,
  ⟨CompletionItem.record⟩, ⟨CompletionItemClientCapabilities.record⟩,
  ⟨CompletionItemKindCapabilities.record⟩, ⟨CompletionItemLabelDetails.record⟩,
  ⟨CompletionList.record⟩, ⟨CompletionListItemDefaults.record⟩, ⟨CompletionOptions.record⟩,
  ⟨CompletionOptionsItem.record⟩, ⟨CompletionParams.record⟩, ⟨ConfigurationItem.record⟩,
  ⟨ConfigurationParams.record⟩, ⟨CreateFile.record⟩, ⟨CreateFileOptions.record⟩,
  ⟨CreateFilesParams.record⟩, ⟨DefaultBehavior.record⟩, ⟨DeleteFile.record⟩,
  ⟨DeleteFileOptions.record⟩, ⟨DeleteFilesParams.record⟩, ⟨Diagnostic.record⟩,
  ⟨DiagnosticClientCapabilities.record⟩, ⟨DiagnosticOptions.record⟩,
  ⟨DiagnosticRelatedInformation.record⟩, ⟨DiagnosticServerCancellationData.record⟩,
  ⟨DiagnosticTagSupport.record⟩, ⟨DidChangeConfigurationParams.record⟩,
  ⟨DidChangeNotebookDocumentParams.record⟩, ⟨DidChangeTextDocumentParams.record⟩,
  ⟨DidChangeWatchedFilesClientCapabilities.record⟩, ⟨DidChangeWatchedFilesParams.record⟩,
  ⟨DidChangeWatchedFilesRegistrationOptions.record⟩, ⟨DidChangeWorkspaceFoldersParams.record⟩,
  ⟨DidCloseNotebookDocumentParams.record⟩, ⟨DidCloseTextDocumentParams.record⟩,
  ⟨DidOpenNotebookDocumentParams.record⟩, ⟨DidOpenTextDocumentParams.record⟩,
  ⟨DidSaveNotebookDocumentParams.record⟩, ⟨DidSaveTextDocumentParams.record⟩,
  ⟨DocumentDiagnosticParams.record⟩, ⟨DocumentFilter.record⟩, ⟨DocumentFormattingParams.record⟩,
  ⟨DocumentHighlight.record⟩, ⟨DocumentLink.record⟩, ⟨DocumentOnTypeFormattingOptions.record⟩,
  ⟨DocumentOnTypeFormattingParams.record⟩, ⟨DocumentRangeFormattingParams.record⟩,
  ⟨DocumentRequestParams.record⟩, ⟨DocumentSymbolClientCapabilities.record⟩,
  ⟨DocumentSymbolOptions.record⟩, ⟨DynamicRegistrationClientCapabilities.record⟩,
  ⟨ExecuteCommandOptions.record⟩, ⟨ExecuteCommandParams.record⟩, ⟨ExecutionSummary.record⟩,
  ⟨FileCreate.record⟩, ⟨FileDelete.record⟩, ⟨FileEvent.record⟩,
  ⟨FileOperationClientCapabilities.record⟩, ⟨FileOperationFilter.record⟩,
  ⟨FileOperationOptions.record⟩, ⟨FileOperationPattern.record⟩,
  ⟨FileOperationPatternOptions.record⟩, ⟨FileOperationRegistrationOptions.record⟩,
  ⟨FileRename.record⟩, ⟨FileSystemWatcher.record⟩, ⟨FoldingRange.record⟩,
  ⟨FoldingRangeClientCapabilities.record⟩, ⟨FoldingRangeKindCapabilities.record⟩,
  ⟨FormattingOptions.record⟩, ⟨FullDocumentDiagnosticReport.record⟩,
  ⟨GeneralClientCapabilities.record⟩, ⟨GotoClientCapabilities.record⟩, ⟨Hover.record⟩,
  ⟨HoverClientCapabilities.record⟩, ⟨InitializeParams.record⟩, ⟨InitializeResult.record⟩,
  ⟨InitializedParams.record⟩, ⟨InlayHint.record⟩, ⟨InlayHintClientCapabilities.record⟩,
  ⟨InlayHintLabelPart.record⟩, ⟨InlayHintParams.record⟩, ⟨InlayHintResolveSupport.record⟩,
  ⟨InlineValueContext.record⟩, ⟨InlineValueEvaluatableExpression.record⟩,
  ⟨InlineValueParams.record⟩, ⟨InlineValueText.record⟩, ⟨InlineValueVariableLookup.record⟩,
  ⟨InsertReplaceEdit.record⟩, ⟨LanguageString.record⟩, ⟨LinkedEditingRanges.record⟩,
  ⟨Location.record⟩, ⟨LocationLink.record⟩, ⟨LogMessageParams.record⟩, ⟨LogTraceParams.record⟩,
  ⟨MarkdownClientCapabilities.record⟩, ⟨MarkupContent.record⟩, ⟨MessageActionItem.record⟩,
  ⟨MessageActionItemClientCapabilities.record⟩, ⟨Moniker.record⟩, ⟨NotebookCell.record⟩,
  ⟨NotebookCellArrayChange.record⟩, ⟨NotebookCellSelector.record⟩, ⟨NotebookCellTextChange.record⟩,
  ⟨NotebookCellsChange.record⟩, ⟨NotebookCellsStructureChange.record⟩, ⟨NotebookDocument.record⟩,
  ⟨NotebookDocumentChangeEvent.record⟩, ⟨NotebookDocumentClientCapabilities.record⟩,
  ⟨NotebookDocumentFilter.record⟩, ⟨NotebookDocumentIdentifier.record⟩,
  ⟨NotebookDocumentSyncClientCapabilities.record⟩, ⟨NotebookDocumentSyncOptions.record⟩,
  ⟨NotebookDocumentSyncRegistrationOptions.record⟩, ⟨NotebookSelector.record⟩,
  ⟨NotificationMessage.record⟩, ⟨OptionalVersionedTextDocumentIdentifier.record⟩,
  ⟨ParameterInformation.record⟩, ⟨PartialResultParams.record⟩, ⟨Position.record⟩,
  ⟨PositionPartialResultParams.record⟩, ⟨PositionRequestParams.record⟩, ⟨PreviousResultId.record⟩,
  ⟨ProgressParams.record⟩, ⟨PublishDiagnosticsClientCapabilities.record⟩,
  ⟨PublishDiagnosticsParams.record⟩, ⟨Range.record⟩, ⟨RangeWithPlaceholder.record⟩,
  ⟨RawContentChange.record⟩, ⟨RawResponse.record⟩, ⟨ReferenceContext.record⟩,
  ⟨ReferenceParams.record⟩, ⟨RefreshClientCapabilities.record⟩, ⟨Registration.record⟩,
  ⟨RegistrationParams.record⟩, ⟨RegularExpressionsClientCapabilities.record⟩,
  ⟨RenameClientCapabilities.record⟩, ⟨RenameFile.record⟩, ⟨RenameFileOptions.record⟩,
  ⟨RenameFilesParams.record⟩, ⟨RenameOptions.record⟩, ⟨RenameParams.record⟩,
  ⟨RequestMessage.record⟩, ⟨ResolveOptions.record⟩, ⟨ResponseError.record⟩, ⟨SaveOptions.record⟩,
  ⟨SelectionRangeParams.record⟩, ⟨SemanticTokens.record⟩,
  ⟨SemanticTokensClientCapabilities.record⟩, ⟨SemanticTokensDelta.record⟩,
  ⟨SemanticTokensDeltaParams.record⟩, ⟨SemanticTokensEdit.record⟩, ⟨SemanticTokensLegend.record⟩,
  ⟨SemanticTokensOptions.record⟩, ⟨SemanticTokensRangeParams.record⟩, ⟨ServerCapabilities.record⟩,
  ⟨ServerConfig.record⟩, ⟨ServerInfo.record⟩, ⟨SetTraceParams.record⟩,
  ⟨ShowDocumentClientCapabilities.record⟩, ⟨ShowDocumentParams.record⟩,
  ⟨ShowDocumentResult.record⟩, ⟨ShowMessageParams.record⟩,
  ⟨ShowMessageRequestClientCapabilities.record⟩, ⟨ShowMessageRequestParams.record⟩,
  ⟨SignatureHelp.record⟩, ⟨SignatureHelpContext.record⟩, ⟨SignatureHelpOptions.record⟩,
  ⟨SignatureHelpParams.record⟩, ⟨SignatureInformation.record⟩, ⟨SymbolInformation.record⟩,
  ⟨SymbolKindCapabilities.record⟩, ⟨TextDocumentClientCapabilities.record⟩,
  ⟨TextDocumentEdit.record⟩, ⟨TextDocumentIdentifier.record⟩, ⟨TextDocumentItem.record⟩,
  ⟨TextDocumentPositionParams.record⟩, ⟨TextDocumentSyncClientCapabilities.record⟩,
  ⟨TextDocumentSyncOptions.record⟩, ⟨TextEdit.record⟩, ⟨TypeHierarchySupertypesParams.record⟩,
  ⟨UnchangedDocumentDiagnosticReport.record⟩, ⟨Unregistration.record⟩,
  ⟨UnregistrationParams.record⟩, ⟨UriLocation.record⟩,
  ⟨VersionedNotebookDocumentIdentifier.record⟩, ⟨VersionedTextDocumentIdentifier.record⟩,
  ⟨WillSaveTextDocumentParams.record⟩, ⟨WindowClientCapabilities.record⟩,
  ⟨WorkDoneProgressBegin.record⟩, ⟨WorkDoneProgressCancelParams.record⟩,
  ⟨WorkDoneProgressCreateParams.record⟩, ⟨WorkDoneProgressEnd.record⟩,
  ⟨WorkDoneProgressOptions.record⟩, ⟨WorkDoneProgressParams.record⟩,
  ⟨WorkDoneProgressReport.record⟩, ⟨WorkspaceClientCapabilities.record⟩,
  ⟨WorkspaceDiagnosticParams.record⟩, ⟨WorkspaceDiagnosticReport.record⟩, ⟨WorkspaceEdit.record⟩,
  ⟨WorkspaceEditClientCapabilities.record⟩, ⟨WorkspaceFolder.record⟩,
  ⟨WorkspaceFoldersChangeEvent.record⟩, ⟨WorkspaceFoldersServerCapabilities.record⟩,
  ⟨WorkspaceServerCapabilities.record⟩, ⟨WorkspaceSymbol.record⟩,
  ⟨WorkspaceSymbolClientCapabilities.record⟩, ⟨WorkspaceSymbolParams.record⟩
]

/-- The enumerations written as numbers. -/
def numberings : List NumberingEntry := [
  ⟨CodeActionTriggerKind.numbering, ["Invoked", "Automatic"]⟩,
  ⟨CompletionItemKind.numbering, ["Text", "Method", "Function", "Constructor", "Field",
    "Variable", "Class", "Interface", "Module", "Property", "Unit", "Value", "Enum", "Keyword",
    "Snippet", "Color", "File", "Reference", "Folder", "EnumMember", "Constant", "Struct",
    "Event", "Operator", "TypeParameter"]⟩,
  ⟨CompletionItemTag.numbering, ["Deprecated"]⟩,
  ⟨CompletionTriggerKind.numbering, ["Invoked", "TriggerCharacter",
    "TriggerForIncompleteCompletions"]⟩,
  ⟨DiagnosticSeverity.numbering, ["Error", "Warning", "Information", "Hint"]⟩,
  ⟨DiagnosticTag.numbering, ["Unnecessary", "Deprecated"]⟩,
  ⟨DocumentHighlightKind.numbering, ["Text", "Read", "Write"]⟩,
  ⟨FileChangeType.numbering, ["Created", "Changed", "Deleted"]⟩,
  ⟨InlayHintKind.numbering, ["Type", "Parameter"]⟩,
  ⟨InsertTextFormat.numbering, ["PlainText", "Snippet"]⟩,
  ⟨InsertTextMode.numbering, ["AsIs", "AdjustIndentation"]⟩,
  ⟨MessageType.numbering, ["Error", "Warning", "Info", "Log", "Debug"]⟩,
  ⟨NotebookCellKind.numbering, ["Markup", "Code"]⟩,
  ⟨SignatureHelpTriggerKind.numbering, ["Invoked", "TriggerCharacter", "ContentChange"]⟩,
  ⟨SymbolKind.numbering, ["File", "Module", "Namespace", "Package", "Class", "Method",
    "Property", "Field", "Constructor", "Enum", "Interface", "Function", "Variable", "Constant",
    "String", "Number", "Boolean", "Array", "Object", "Key", "Null", "EnumMember", "Struct",
    "Event", "Operator", "TypeParameter"]⟩,
  ⟨SymbolTag.numbering, ["Deprecated"]⟩,
  ⟨TextDocumentSaveReason.numbering, ["Manual", "AfterDelay", "FocusOut"]⟩,
  ⟨TextDocumentSyncKind.numbering, ["None", "Full", "Incremental"]⟩
]

/-- The types that are neither. -/
def others : List TypeEntry := [
  .plain "CodeActionKind" CodeActionKind.codec,
  .plain "FoldingRangeKind" FoldingRangeKind.codec,
  .plain "WatchKind" WatchKind.codec,
  .plain "DocumentDiagnosticReport" DocumentDiagnosticReport.codec,
  .plain "WorkspaceDocumentDiagnosticReport" WorkspaceDocumentDiagnosticReport.codec,
  .plain "ResponseMessage" ResponseMessage.codec,
  .plain "DocumentSymbol" DocumentSymbol.codec,
  .plain "SelectionRange" SelectionRange.codec,
  .union "BoolOrString" BoolOrString.codec (fun
    | .bool _ => "Bool"
    | .string _ => "String"),
  .union "CodeActionOrCommand" CodeActionOrCommand.codec (fun
    | .command _ => "Command"
    | .action _ => "CodeAction"),
  .union "CompletionResponse" CompletionResponse.codec (fun
    | .items _ => "Array"
    | .list _ => "List"),
  .union "CompletionTextEdit" CompletionTextEdit.codec (fun
    | .edit _ => "Edit"
    | .insertAndReplace _ => "InsertAndReplace"),
  .union "DocumentChange" DocumentChange.codec (fun
    | .edit _ => "Edit"
    | .operation _ => "Operation"),
  .union "DocumentDiagnosticReportKind" DocumentDiagnosticReportKind.codec (fun
    | .full => "Full"
    | .unchanged => "Unchanged"),
  .union "DocumentSymbolResponse" DocumentSymbolResponse.codec (fun
    | .flat _ => "Flat"
    | .nested _ => "Nested"),
  .union "FailureHandlingKind" FailureHandlingKind.codec (fun
    | .abort => "Abort"
    | .transactional => "Transactional"
    | .textOnlyTransactional => "TextOnlyTransactional"
    | .undo => "Undo"),
  .union "FileOperationPatternKind" FileOperationPatternKind.codec (fun
    | .file => "File"
    | .folder => "Folder"),
  .union "GotoDefinitionResponse" GotoDefinitionResponse.codec (fun
    | .scalar _ => "Scalar"
    | .array _ => "Array"
    | .link _ => "Link"),
  .union "HoverContents" HoverContents.codec (fun
    | .markup _ => "Markup"
    | .scalar _ => "Scalar"
    | .array _ => "Array"),
  .union "InlayHintLabel" InlayHintLabel.codec (fun
    | .string _ => "String"
    | .parts _ => "LabelParts"),
  .union "InlineValue" InlineValue.codec (fun
    | .text _ => "Text"
    | .variableLookup _ => "VariableLookup"
    | .expression _ => "EvaluatableExpression"),
  .union "IntOrString" IntOrString.codec (fun
    | .int _ => "Int"
    | .string _ => "String"),
  .union "LspAny" LspAny.codec (fun
    | .null => "Null"
    | .bool _ => "Bool"
    | .integer _ => "Integer"
    | .uinteger _ => "UInteger"
    | .decimal _ => "Decimal"
    | .string _ => "String"
    | .array _ => "Array"
    | .object _ => "Object"),
  .union "MarkedString" MarkedString.codec (fun
    | .string _ => "String"
    | .language _ => "LanguageString"),
  .union "MarkupKind" MarkupKind.codec (fun
    | .plainText => "PlainText"
    | .markdown => "Markdown"),
  .union "MonikerKind" MonikerKind.codec (fun
    | .imported => "Import"
    | .exported => "Export"
    | .internal => "Local"),
  .union "NotebookDocumentSyncCapability" NotebookDocumentSyncCapability.codec (fun
    | .options _ => "Options"
    | .registration _ => "Registration"),
  .union "NotebookFilterOrString" NotebookFilterOrString.codec (fun
    | .filter _ => "Filter"
    | .string _ => "String"),
  .union "ParameterLabel" ParameterLabel.codec (fun
    | .simple _ => "Simple"
    | .offsets _ _ => "LabelOffsets"),
  .union "PositionEncodingKind" PositionEncodingKind.codec (fun
    | .utf8 => "Utf8"
    | .utf16 => "Utf16"
    | .utf32 => "Utf32"),
  .union "PrepareRenameResponse" PrepareRenameResponse.codec (fun
    | .range _ => "Range"
    | .placeholder _ => "RangeWithPlaceholder"
    | .defaultBehavior _ => "DefaultBehavior"),
  .union "ProgressValue" ProgressValue.codec (fun
    | .workDone _ => "WorkDone"
    | .other _ => "Other"),
  .union "ResourceOp" ResourceOp.codec (fun
    | .create _ => "Create"
    | .rename _ => "Rename"
    | .delete _ => "Delete"),
  .union "ResourceOperationKind" ResourceOperationKind.codec (fun
    | .create => "Create"
    | .rename => "Rename"
    | .delete => "Delete"),
  .union "RpcMessage" RpcMessage.codec (fun
    | .request _ => "Request"
    | .notification _ => "Notification"
    | .response _ => "Response"),
  .union "SemanticTokensFullDeltaResult" SemanticTokensFullDeltaResult.codec (fun
    | .tokens _ => "Tokens"
    | .delta _ => "Delta"),
  .union "SemanticTokensFullOption" SemanticTokensFullOption.codec (fun
    | .bool _ => "Bool"
    | .delta _ => "Delta"),
  .union "SemanticTokensRangeOption" SemanticTokensRangeOption.codec (fun
    | .bool _ => "Bool"
    | .empty => "Empty"),
  .union "StringOrMarkupContent" StringOrMarkupContent.codec (fun
    | .string _ => "String"
    | .markup _ => "MarkupContent"),
  .union "SyncMode" SyncMode.codec (fun
    | .full => "Full"
    | .incremental => "Incremental"),
  .union "TextDocumentContentChangeEvent" TextDocumentContentChangeEvent.codec (fun
    | .incremental _ _ _ => "Incremental"
    | .full _ => "Full"),
  .union "TextDocumentSyncCapability" TextDocumentSyncCapability.codec (fun
    | .kind _ => "Kind"
    | .options _ => "Options"),
  .union "TextEditOrAnnotated" TextEditOrAnnotated.codec (fun
    | .plain _ => "TextEdit"
    | .annotated _ => "Annotated"),
  .union "TraceValue" TraceValue.codec (fun
    | .off => "Off"
    | .messages => "Messages"
    | .verbose => "Verbose"),
  .union "UniquenessLevel" UniquenessLevel.codec (fun
    | .document => "Document"
    | .project => "Project"
    | .group => "Group"
    | .scheme => "Scheme"
    | .global => "Global"),
  .union "WorkDoneProgress" WorkDoneProgress.codec (fun
    | .begin _ => "Begin"
    | .report _ => "Report"
    | .finish _ => "End"),
  .union "WorkspaceLocation" WorkspaceLocation.codec (fun
    | .location _ => "Location"
    | .uri _ => "Uri"),
  .union "WorkspaceSymbolResponse" WorkspaceSymbolResponse.codec (fun
    | .flat _ => "Flat"
    | .nested _ => "Nested")
]

/-- Names that stand for another type. -/
def synonyms : List (String × String) := [
  ("CallHierarchyOptions", "WorkDoneProgressOptions"),
  ("CallHierarchyOutgoingCallsParams", "CallHierarchyIncomingCallsParams"),
  ("CallHierarchyPrepareParams", "PositionRequestParams"), ("CodeLensOptions", "ResolveOptions"),
  ("CodeLensParams", "DocumentRequestParams"), ("DeclarationOptions", "WorkDoneProgressOptions"),
  ("DeclarationParams", "PositionPartialResultParams"),
  ("DeclarationResponse", "GotoDefinitionResponse"),
  ("DefinitionOptions", "WorkDoneProgressOptions"),
  ("DefinitionParams", "PositionPartialResultParams"), ("DiagnosticCode", "IntOrString"),
  ("DocumentColorOptions", "WorkDoneProgressOptions"),
  ("DocumentColorParams", "DocumentRequestParams"),
  ("DocumentFormattingOptions", "WorkDoneProgressOptions"),
  ("DocumentHighlightOptions", "WorkDoneProgressOptions"),
  ("DocumentHighlightParams", "PositionPartialResultParams"),
  ("DocumentLinkOptions", "ResolveOptions"), ("DocumentLinkParams", "DocumentRequestParams"),
  ("DocumentRangeFormattingOptions", "WorkDoneProgressOptions"),
  ("DocumentSymbolParams", "DocumentRequestParams"), ("Documentation", "StringOrMarkupContent"),
  ("FoldingRangeOptions", "WorkDoneProgressOptions"),
  ("FoldingRangeParams", "DocumentRequestParams"), ("HoverOptions", "WorkDoneProgressOptions"),
  ("HoverParams", "PositionRequestParams"), ("Id", "IntOrString"),
  ("ImplementationOptions", "WorkDoneProgressOptions"),
  ("ImplementationParams", "PositionPartialResultParams"),
  ("ImplementationResponse", "GotoDefinitionResponse"), ("InlayHintOptions", "ResolveOptions"),
  ("InlineValueOptions", "WorkDoneProgressOptions"),
  ("LinkedEditingRangeOptions", "WorkDoneProgressOptions"),
  ("LinkedEditingRangeParams", "PositionRequestParams"),
  ("MonikerOptions", "WorkDoneProgressOptions"), ("MonikerParams", "PositionPartialResultParams"),
  ("PrepareRenameParams", "PositionRequestParams"), ("ProgressToken", "IntOrString"),
  ("ReferenceOptions", "WorkDoneProgressOptions"),
  ("SelectionRangeOptions", "WorkDoneProgressOptions"),
  ("SemanticTokensParams", "DocumentRequestParams"),
  ("TypeDefinitionOptions", "WorkDoneProgressOptions"),
  ("TypeDefinitionParams", "PositionPartialResultParams"),
  ("TypeDefinitionResponse", "GotoDefinitionResponse"), ("TypeHierarchyItem", "CallHierarchyItem"),
  ("TypeHierarchyOptions", "WorkDoneProgressOptions"),
  ("TypeHierarchyPrepareParams", "PositionRequestParams"),
  ("TypeHierarchySubtypesParams", "TypeHierarchySupertypesParams"),
  ("WorkspaceSymbolOptions", "ResolveOptions")
]

/-- The type that a name stands for. -/
def resolve (name : String) : String := ((synonyms.find? fun s => s.1 = name).map (·.2)).getD name

/-- A record type by name. -/
def record? (name : String) : Option RecordEntry :=
  let name := resolve name
  records.find? fun r => r.name = name

/-- An enumeration written as numbers, by name. -/
def numbering? (name : String) : Option NumberingEntry :=
  numberings.find? fun e => e.numbering.title = name

/-- A type by name. -/
def type? (name : String) : Option TypeEntry :=
  let name := resolve name
  match others.find? fun t => t.name = name with
  | some t => some t
  | none =>
    match numbering? name with
    | some e => some (.plain name e.numbering.codec)
    | none => (record? name).map RecordEntry.type

end Catalogue

end LanguageServer
