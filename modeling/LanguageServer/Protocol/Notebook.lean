import LanguageServer.Protocol.DocumentSync

/-!
# Notebooks

A notebook is a list of cells, each with a document of its own.
-/

namespace LanguageServer

/-- The notebooks of a type, a scheme and a pattern; what is missing holds of all. -/
structure NotebookDocumentFilter where
  notebookType : Option String := none
  scheme : Option String := none
  pattern : Option String := none

def NotebookDocumentFilter.record : Record NotebookDocumentFilter :=
  ⟨"NotebookDocumentFilter", NotebookDocumentFilter.mk,
    .own "notebookType" (·.notebookType) (.optional Codec.string) <|
    .own "scheme" (·.scheme) (.optional Codec.string) <|
    .own "pattern" (·.pattern) (.optional Codec.string) .done⟩

def NotebookDocumentFilter.codec : Codec NotebookDocumentFilter :=
  NotebookDocumentFilter.record.codec

/-- The cells of a language. -/
structure NotebookCellSelector where
  language : String

def NotebookCellSelector.record : Record NotebookCellSelector :=
  ⟨"NotebookCellSelector", NotebookCellSelector.mk,
    .own "language" (·.language) (.required Codec.string) .done⟩

def NotebookCellSelector.codec : Codec NotebookCellSelector := NotebookCellSelector.record.codec

/-- The notebooks of a filter or of a type. -/
inductive NotebookFilterOrString where
  | filter (filter : NotebookDocumentFilter)
  | string (notebookType : String)

def NotebookFilterOrString.codec : Codec NotebookFilterOrString :=
  .byValue
    (fun
      | .filter f => NotebookDocumentFilter.codec.encode f
      | .string s => .string s)
    (fun
      | .object ms => (NotebookDocumentFilter.codec.ofJson (.object ms)).map .filter
      | .string s => .ok (.string s)
      | j => Codec.unfit "a notebook filter or a string" j)

/-- The notebooks and the cells in them that are synchronised. -/
structure NotebookSelector where
  notebook : Option NotebookFilterOrString := none
  cells : Option (List NotebookCellSelector) := none

def NotebookSelector.record : Record NotebookSelector :=
  ⟨"NotebookSelector", NotebookSelector.mk,
    .own "notebook" (·.notebook) (.optional NotebookFilterOrString.codec) <|
    .own "cells" (·.cells) (.optional NotebookCellSelector.codec.list) .done⟩

def NotebookSelector.codec : Codec NotebookSelector := NotebookSelector.record.codec

/-- What the server wants to hear about open notebooks. -/
structure NotebookDocumentSyncOptions where
  notebookSelector : List NotebookSelector := []
  save : Option Bool := none

def NotebookDocumentSyncOptions.record : Record NotebookDocumentSyncOptions :=
  ⟨"NotebookDocumentSyncOptions", NotebookDocumentSyncOptions.mk,
    .own "notebookSelector" (·.notebookSelector) (.required NotebookSelector.codec.list) <|
    .own "save" (·.save) (.optional Codec.bool) .done⟩

def NotebookDocumentSyncOptions.codec : Codec NotebookDocumentSyncOptions :=
  NotebookDocumentSyncOptions.record.codec

/-- The same with the identifier of a registration. -/
structure NotebookDocumentSyncRegistrationOptions where
  options : NotebookDocumentSyncOptions
  id : String

def NotebookDocumentSyncRegistrationOptions.record :
    Record NotebookDocumentSyncRegistrationOptions :=
  ⟨"NotebookDocumentSyncRegistrationOptions", NotebookDocumentSyncRegistrationOptions.mk,
    .part (·.options) NotebookDocumentSyncOptions.record.part <|
    .own "id" (·.id) (.required Codec.string) .done⟩

def NotebookDocumentSyncRegistrationOptions.codec : Codec NotebookDocumentSyncRegistrationOptions :=
  NotebookDocumentSyncRegistrationOptions.record.codec

/-- What the server wants to hear about notebooks, in a registration or not. -/
inductive NotebookDocumentSyncCapability where
  | options (options : NotebookDocumentSyncOptions)
  | registration (options : NotebookDocumentSyncRegistrationOptions)

/-- A registration has an identifier. -/
def NotebookDocumentSyncCapability.codec : Codec NotebookDocumentSyncCapability :=
  .byValue
    (fun
      | .options o => NotebookDocumentSyncOptions.codec.encode o
      | .registration o => NotebookDocumentSyncRegistrationOptions.codec.encode o)
    (fun j =>
      match j.member? "id" with
      | some _ => (NotebookDocumentSyncRegistrationOptions.codec.ofJson j).map .registration
      | none => (NotebookDocumentSyncOptions.codec.ofJson j).map .options)

/-- What a client can say about open notebooks. -/
structure NotebookDocumentSyncClientCapabilities where
  dynamicRegistration : Option Bool := none
  executionSummarySupport : Option Bool := none

def NotebookDocumentSyncClientCapabilities.record : Record NotebookDocumentSyncClientCapabilities :=
  ⟨"NotebookDocumentSyncClientCapabilities", NotebookDocumentSyncClientCapabilities.mk,
    .own "dynamicRegistration" (·.dynamicRegistration) (.trailing Codec.bool) <|
    .own "executionSummarySupport" (·.executionSummarySupport) (.trailing Codec.bool) .done⟩

def NotebookDocumentSyncClientCapabilities.codec : Codec NotebookDocumentSyncClientCapabilities :=
  NotebookDocumentSyncClientCapabilities.record.codec

/-- What a client can do with notebooks. -/
structure NotebookDocumentClientCapabilities where
  synchronization : NotebookDocumentSyncClientCapabilities

def NotebookDocumentClientCapabilities.record : Record NotebookDocumentClientCapabilities :=
  ⟨"NotebookDocumentClientCapabilities", NotebookDocumentClientCapabilities.mk,
    .own "synchronization" (·.synchronization)
      (.required NotebookDocumentSyncClientCapabilities.codec) .done⟩

def NotebookDocumentClientCapabilities.codec : Codec NotebookDocumentClientCapabilities :=
  NotebookDocumentClientCapabilities.record.codec

/-- What a cell holds. -/
inductive NotebookCellKind where
  | markup
  | code
deriving DecidableEq, Repr

/-- The number of a `NotebookCellKind` in documents. -/
def NotebookCellKind.toNat : NotebookCellKind → Nat
  | .markup => 1
  | .code => 2

def NotebookCellKind.numbering : Numbering NotebookCellKind :=
  ⟨"NotebookCellKind", [.markup, .code], NotebookCellKind.toNat⟩

def NotebookCellKind.codec : Codec NotebookCellKind := NotebookCellKind.numbering.codec

/-- How the last execution of a cell went. -/
structure ExecutionSummary where
  executionOrder : UInt32
  success : Option Bool := none
deriving DecidableEq

def ExecutionSummary.record : Record ExecutionSummary :=
  ⟨"ExecutionSummary", ExecutionSummary.mk,
    .own "executionOrder" (·.executionOrder) (.required Codec.uint32) <|
    .own "success" (·.success) (.trailing Codec.bool) .done⟩

def ExecutionSummary.codec : Codec ExecutionSummary := ExecutionSummary.record.codec

/-- A cell of a notebook. -/
structure NotebookCell where
  kind : NotebookCellKind
  document : Uri
  metadata : Option LspAny := none
  executionSummary : Option ExecutionSummary := none
deriving BEq

def NotebookCell.record : Record NotebookCell :=
  ⟨"NotebookCell", NotebookCell.mk,
    .own "kind" (·.kind) (.required NotebookCellKind.codec) <|
    .own "document" (·.document) (.required Codec.string) <|
    .own "metadata" (·.metadata) (.trailing LspAny.codec) <|
    .own "executionSummary" (·.executionSummary) (.trailing ExecutionSummary.codec) .done⟩

def NotebookCell.codec : Codec NotebookCell := NotebookCell.record.codec

/-- A notebook as it is opened. -/
structure NotebookDocument where
  uri : Uri
  notebookType : String
  version : Int32
  metadata : Option LspAny := none
  cells : List NotebookCell

def NotebookDocument.record : Record NotebookDocument :=
  ⟨"NotebookDocument", NotebookDocument.mk,
    .own "uri" (·.uri) (.required Codec.string) <|
    .own "notebookType" (·.notebookType) (.required Codec.string) <|
    .own "version" (·.version) (.required Codec.int32) <|
    .own "metadata" (·.metadata) (.trailing LspAny.codec) <|
    .own "cells" (·.cells) (.required NotebookCell.codec.list) .done⟩

def NotebookDocument.codec : Codec NotebookDocument := NotebookDocument.record.codec

/-- A notebook by its name. -/
structure NotebookDocumentIdentifier where
  uri : Uri

def NotebookDocumentIdentifier.record : Record NotebookDocumentIdentifier :=
  ⟨"NotebookDocumentIdentifier", NotebookDocumentIdentifier.mk,
    .own "uri" (·.uri) (.required Codec.string) .done⟩

def NotebookDocumentIdentifier.codec : Codec NotebookDocumentIdentifier :=
  NotebookDocumentIdentifier.record.codec

/-- A certain version of a notebook. -/
structure VersionedNotebookDocumentIdentifier where
  version : Int32
  uri : Uri
deriving DecidableEq

def VersionedNotebookDocumentIdentifier.record : Record VersionedNotebookDocumentIdentifier :=
  ⟨"VersionedNotebookDocumentIdentifier", VersionedNotebookDocumentIdentifier.mk,
    .own "version" (·.version) (.required Codec.int32) <|
    .own "uri" (·.uri) (.required Codec.string) .done⟩

def VersionedNotebookDocumentIdentifier.codec : Codec VersionedNotebookDocumentIdentifier :=
  VersionedNotebookDocumentIdentifier.record.codec

/-- A notebook was opened. -/
structure DidOpenNotebookDocumentParams where
  notebookDocument : NotebookDocument
  cellTextDocuments : List TextDocumentItem

def DidOpenNotebookDocumentParams.record : Record DidOpenNotebookDocumentParams :=
  ⟨"DidOpenNotebookDocumentParams", DidOpenNotebookDocumentParams.mk,
    .own "notebookDocument" (·.notebookDocument) (.required NotebookDocument.codec) <|
    .own "cellTextDocuments" (·.cellTextDocuments) (.required TextDocumentItem.codec.list) .done⟩

def DidOpenNotebookDocumentParams.codec : Codec DidOpenNotebookDocumentParams :=
  DidOpenNotebookDocumentParams.record.codec

/-- Cells taken out and put in. -/
structure NotebookCellArrayChange where
  start : UInt32
  deleteCount : UInt32
  cells : Option (List NotebookCell) := none
deriving BEq

def NotebookCellArrayChange.record : Record NotebookCellArrayChange :=
  ⟨"NotebookCellArrayChange", NotebookCellArrayChange.mk,
    .own "start" (·.start) (.required Codec.uint32) <|
    .own "deleteCount" (·.deleteCount) (.required Codec.uint32) <|
    .own "cells" (·.cells) (.trailing NotebookCell.codec.list) .done⟩

def NotebookCellArrayChange.codec : Codec NotebookCellArrayChange :=
  NotebookCellArrayChange.record.codec

/-- Cells taken out and put in, with the documents opened and closed on the way. -/
structure NotebookCellsStructureChange where
  array : NotebookCellArrayChange
  didOpen : Option (List TextDocumentItem) := none
  didClose : Option (List TextDocumentIdentifier) := none
deriving BEq

def NotebookCellsStructureChange.record : Record NotebookCellsStructureChange :=
  ⟨"NotebookCellsStructureChange", NotebookCellsStructureChange.mk,
    .own "array" (·.array) (.required NotebookCellArrayChange.codec) <|
    .own "didOpen" (·.didOpen) (.trailing TextDocumentItem.codec.list) <|
    .own "didClose" (·.didClose) (.trailing TextDocumentIdentifier.codec.list) .done⟩

def NotebookCellsStructureChange.codec : Codec NotebookCellsStructureChange :=
  NotebookCellsStructureChange.record.codec

/-- Changes of the text of a cell. -/
structure NotebookCellTextChange where
  document : VersionedTextDocumentIdentifier
  changes : List TextDocumentContentChangeEvent
deriving DecidableEq

def NotebookCellTextChange.record : Record NotebookCellTextChange :=
  ⟨"NotebookCellTextChange", NotebookCellTextChange.mk,
    .own "document" (·.document) (.required VersionedTextDocumentIdentifier.codec) <|
    .own "changes" (·.changes) (.required TextDocumentContentChangeEvent.codec.list) .done⟩

def NotebookCellTextChange.codec : Codec NotebookCellTextChange :=
  NotebookCellTextChange.record.codec

/-- The changes of a document as those of the text of a cell. -/
def NotebookCellTextChange.ofDocument (p : DidChangeTextDocumentParams) : NotebookCellTextChange :=
  ⟨p.textDocument, p.contentChanges⟩

/-- Changes of the cells of a notebook. -/
structure NotebookCellsChange where
  arrangement : Option NotebookCellsStructureChange := none
  data : Option (List NotebookCell) := none
  textContent : Option (List NotebookCellTextChange) := none
deriving BEq

def NotebookCellsChange.record : Record NotebookCellsChange :=
  ⟨"NotebookCellsChange", NotebookCellsChange.mk,
    .own "structure" (·.arrangement) (.trailing NotebookCellsStructureChange.codec) <|
    .own "data" (·.data) (.trailing NotebookCell.codec.list) <|
    .own "textContent" (·.textContent) (.trailing NotebookCellTextChange.codec.list) .done⟩

def NotebookCellsChange.codec : Codec NotebookCellsChange := NotebookCellsChange.record.codec

/-- A change of a notebook. -/
structure NotebookDocumentChangeEvent where
  metadata : Option LspAny := none
  cells : Option NotebookCellsChange := none
deriving BEq

def NotebookDocumentChangeEvent.record : Record NotebookDocumentChangeEvent :=
  ⟨"NotebookDocumentChangeEvent", NotebookDocumentChangeEvent.mk,
    .own "metadata" (·.metadata) (.trailing LspAny.codec) <|
    .own "cells" (·.cells) (.trailing NotebookCellsChange.codec) .done⟩

def NotebookDocumentChangeEvent.codec : Codec NotebookDocumentChangeEvent :=
  NotebookDocumentChangeEvent.record.codec

/-- A notebook was changed. -/
structure DidChangeNotebookDocumentParams where
  notebookDocument : VersionedNotebookDocumentIdentifier
  change : NotebookDocumentChangeEvent
deriving BEq

def DidChangeNotebookDocumentParams.record : Record DidChangeNotebookDocumentParams :=
  ⟨"DidChangeNotebookDocumentParams", DidChangeNotebookDocumentParams.mk,
    .own "notebookDocument" (·.notebookDocument)
      (.required VersionedNotebookDocumentIdentifier.codec) <|
    .own "change" (·.change) (.required NotebookDocumentChangeEvent.codec) .done⟩

def DidChangeNotebookDocumentParams.codec : Codec DidChangeNotebookDocumentParams :=
  DidChangeNotebookDocumentParams.record.codec

/-- A notebook was saved. -/
structure DidSaveNotebookDocumentParams where
  notebookDocument : NotebookDocumentIdentifier

def DidSaveNotebookDocumentParams.record : Record DidSaveNotebookDocumentParams :=
  ⟨"DidSaveNotebookDocumentParams", DidSaveNotebookDocumentParams.mk,
    .own "notebookDocument" (·.notebookDocument) (.required NotebookDocumentIdentifier.codec) .done⟩

def DidSaveNotebookDocumentParams.codec : Codec DidSaveNotebookDocumentParams :=
  DidSaveNotebookDocumentParams.record.codec

/-- A notebook was closed. -/
structure DidCloseNotebookDocumentParams where
  notebookDocument : NotebookDocumentIdentifier
  cellTextDocuments : List TextDocumentIdentifier

def DidCloseNotebookDocumentParams.record : Record DidCloseNotebookDocumentParams :=
  ⟨"DidCloseNotebookDocumentParams", DidCloseNotebookDocumentParams.mk,
    .own "notebookDocument" (·.notebookDocument) (.required NotebookDocumentIdentifier.codec) <|
    .own "cellTextDocuments" (·.cellTextDocuments)
      (.required TextDocumentIdentifier.codec.list) .done⟩

def DidCloseNotebookDocumentParams.codec : Codec DidCloseNotebookDocumentParams :=
  DidCloseNotebookDocumentParams.record.codec

end LanguageServer
