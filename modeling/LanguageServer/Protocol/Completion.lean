import LanguageServer.Protocol.Command
import LanguageServer.Protocol.Edit
import LanguageServer.Protocol.Markup

/-!
# Completion

The client asks what may stand at a position, and gets items to choose from.
-/

namespace LanguageServer

/-- What the server can do with items. -/
structure CompletionOptionsItem where
  labelDetailsSupport : Option Bool := none

def CompletionOptionsItem.record : Record CompletionOptionsItem :=
  ⟨"CompletionOptionsItem", CompletionOptionsItem.mk,
    .own "labelDetailsSupport" (·.labelDetailsSupport) (.optional Codec.bool) .done⟩

def CompletionOptionsItem.codec : Codec CompletionOptionsItem :=
  CompletionOptionsItem.record.codec

/-- How a server completes. -/
structure CompletionOptions where
  workDoneProgress : Option Bool := none
  triggerCharacters : Option (List String) := none
  allCommitCharacters : Option (List String) := none
  resolveProvider : Option Bool := none
  completionItem : Option CompletionOptionsItem := none

def CompletionOptions.record : Record CompletionOptions :=
  ⟨"CompletionOptions", CompletionOptions.mk,
    .own "workDoneProgress" (·.workDoneProgress) (.optional Codec.bool) <|
    .own "triggerCharacters" (·.triggerCharacters) (.optional Codec.string.list) <|
    .own "allCommitCharacters" (·.allCommitCharacters) (.optional Codec.string.list) <|
    .own "resolveProvider" (·.resolveProvider) (.optional Codec.bool) <|
    .own "completionItem" (·.completionItem) (.optional CompletionOptionsItem.codec) .done⟩

def CompletionOptions.codec : Codec CompletionOptions := CompletionOptions.record.codec

/-- What made the client ask. -/
inductive CompletionTriggerKind where
  | invoked
  | triggerCharacter
  | triggerForIncompleteCompletions
deriving DecidableEq, Repr

/-- The number of a `CompletionTriggerKind` in documents. -/
def CompletionTriggerKind.toNat : CompletionTriggerKind → Nat
  | .invoked => 1
  | .triggerCharacter => 2
  | .triggerForIncompleteCompletions => 3

def CompletionTriggerKind.numbering : Numbering CompletionTriggerKind :=
  ⟨"CompletionTriggerKind", [.invoked, .triggerCharacter,
    .triggerForIncompleteCompletions], CompletionTriggerKind.toNat⟩

def CompletionTriggerKind.codec : Codec CompletionTriggerKind :=
  CompletionTriggerKind.numbering.codec

/-- What made the client ask, and the character that did. -/
structure CompletionContext where
  triggerKind : CompletionTriggerKind
  triggerCharacter : Option String := none

def CompletionContext.record : Record CompletionContext :=
  ⟨"CompletionContext", CompletionContext.mk,
    .own "triggerKind" (·.triggerKind) (.required CompletionTriggerKind.codec) <|
    .own "triggerCharacter" (·.triggerCharacter) (.trailing Codec.string) .done⟩

def CompletionContext.codec : Codec CompletionContext := CompletionContext.record.codec

/-- The client asks what may stand at a position. -/
structure CompletionParams where
  target : TextDocumentPositionParams
  workDone : WorkDoneProgressParams := {}
  partialResult : PartialResultParams := {}
  context : Option CompletionContext := none

def CompletionParams.record : Record CompletionParams :=
  ⟨"CompletionParams", CompletionParams.mk,
    .part (·.target) TextDocumentPositionParams.record.part <|
    .part (·.workDone) WorkDoneProgressParams.record.part <|
    .part (·.partialResult) PartialResultParams.record.part <|
    .own "context" (·.context) (.trailing CompletionContext.codec) .done⟩

def CompletionParams.codec : Codec CompletionParams := CompletionParams.record.codec

/-- A request for what may stand at a position of the named document. -/
def CompletionParams.new (uri : DocumentUri) (position : Position) : CompletionParams :=
  { target := .new uri position }

/-- What an item stands for. -/
inductive CompletionItemKind where
  | text
  | method
  | function
  | constructor
  | field
  | variable
  | classKind
  | interface
  | module
  | property
  | unit
  | value
  | enum
  | keyword
  | snippet
  | color
  | file
  | reference
  | folder
  | enumMember
  | constant
  | struct
  | event
  | operator
  | typeParameter
deriving DecidableEq, Repr

/-- The number of a `CompletionItemKind` in documents. -/
def CompletionItemKind.toNat : CompletionItemKind → Nat
  | .text => 1
  | .method => 2
  | .function => 3
  | .constructor => 4
  | .field => 5
  | .variable => 6
  | .classKind => 7
  | .interface => 8
  | .module => 9
  | .property => 10
  | .unit => 11
  | .value => 12
  | .enum => 13
  | .keyword => 14
  | .snippet => 15
  | .color => 16
  | .file => 17
  | .reference => 18
  | .folder => 19
  | .enumMember => 20
  | .constant => 21
  | .struct => 22
  | .event => 23
  | .operator => 24
  | .typeParameter => 25

def CompletionItemKind.numbering : Numbering CompletionItemKind :=
  ⟨"CompletionItemKind", [.text, .method, .function, .constructor, .field, .variable, .classKind,
    .interface, .module, .property, .unit, .value, .enum, .keyword, .snippet, .color, .file,
    .reference, .folder, .enumMember, .constant, .struct, .event, .operator,
    .typeParameter], CompletionItemKind.toNat⟩

def CompletionItemKind.codec : Codec CompletionItemKind := CompletionItemKind.numbering.codec

/-- What else is to be known about an item. -/
inductive CompletionItemTag where
  | deprecated
deriving DecidableEq, Repr

/-- The number of a `CompletionItemTag` in documents. -/
def CompletionItemTag.toNat : CompletionItemTag → Nat
  | .deprecated => 1

def CompletionItemTag.numbering : Numbering CompletionItemTag :=
  ⟨"CompletionItemTag", [.deprecated], CompletionItemTag.toNat⟩

def CompletionItemTag.codec : Codec CompletionItemTag := CompletionItemTag.numbering.codec

/-- How the text of an item is to be read. -/
inductive InsertTextFormat where
  | plainText
  | snippet
deriving DecidableEq, Repr

/-- The number of a `InsertTextFormat` in documents. -/
def InsertTextFormat.toNat : InsertTextFormat → Nat
  | .plainText => 1
  | .snippet => 2

def InsertTextFormat.numbering : Numbering InsertTextFormat :=
  ⟨"InsertTextFormat", [.plainText, .snippet], InsertTextFormat.toNat⟩

def InsertTextFormat.codec : Codec InsertTextFormat := InsertTextFormat.numbering.codec

/-- What happens to the indentation of the text of an item. -/
inductive InsertTextMode where
  | asIs
  | adjustIndentation
deriving DecidableEq, Repr

/-- The number of a `InsertTextMode` in documents. -/
def InsertTextMode.toNat : InsertTextMode → Nat
  | .asIs => 1
  | .adjustIndentation => 2

def InsertTextMode.numbering : Numbering InsertTextMode :=
  ⟨"InsertTextMode", [.asIs, .adjustIndentation], InsertTextMode.toNat⟩

def InsertTextMode.codec : Codec InsertTextMode := InsertTextMode.numbering.codec

/-- More about an item, shown beside its label. -/
structure CompletionItemLabelDetails where
  detail : Option String := none
  description : Option String := none
deriving DecidableEq

def CompletionItemLabelDetails.record : Record CompletionItemLabelDetails :=
  ⟨"CompletionItemLabelDetails", CompletionItemLabelDetails.mk,
    .own "detail" (·.detail) (.trailing Codec.string) <|
    .own "description" (·.description) (.trailing Codec.string) .done⟩

def CompletionItemLabelDetails.codec : Codec CompletionItemLabelDetails :=
  CompletionItemLabelDetails.record.codec

/-- A text with two ranges: one if it is put in, one if it replaces. -/
structure InsertReplaceEdit where
  newText : String
  insert : Range
  replace : Range
deriving DecidableEq

def InsertReplaceEdit.record : Record InsertReplaceEdit :=
  ⟨"InsertReplaceEdit", InsertReplaceEdit.mk,
    .own "newText" (·.newText) (.required Codec.string) <|
    .own "insert" (·.insert) (.required Range.codec) <|
    .own "replace" (·.replace) (.required Range.codec) .done⟩

def InsertReplaceEdit.codec : Codec InsertReplaceEdit := InsertReplaceEdit.record.codec

/-- The edit that an item stands for. -/
inductive CompletionTextEdit where
  | edit (edit : TextEdit)
  | insertAndReplace (edit : InsertReplaceEdit)
deriving DecidableEq

/-- An edit that says where to put in is one of two ranges. -/
def CompletionTextEdit.codec : Codec CompletionTextEdit :=
  .byValue
    (fun
      | .edit e => TextEdit.codec.encode e
      | .insertAndReplace e => InsertReplaceEdit.codec.encode e)
    (fun j =>
      match j.member? "insert" with
      | some _ => (InsertReplaceEdit.codec.ofJson j).map .insertAndReplace
      | none => (TextEdit.codec.ofJson j).map .edit)

/-- Something that may stand at a position. -/
structure CompletionItem where
  label : String := ""
  labelDetails : Option CompletionItemLabelDetails := none
  kind : Option CompletionItemKind := none
  tags : Option (List CompletionItemTag) := none
  detail : Option String := none
  documentation : Option StringOrMarkupContent := none
  deprecated : Option Bool := none
  preselect : Option Bool := none
  sortText : Option String := none
  filterText : Option String := none
  insertText : Option String := none
  insertTextFormat : Option InsertTextFormat := none
  insertTextMode : Option InsertTextMode := none
  textEdit : Option CompletionTextEdit := none
  textEditText : Option String := none
  additionalTextEdits : Option (List TextEdit) := none
  commitCharacters : Option (List String) := none
  command : Option Command := none
  data : Option LspAny := none
deriving BEq

def CompletionItem.record : Record CompletionItem :=
  ⟨"CompletionItem", CompletionItem.mk,
    .own "label" (·.label) (.required Codec.string) <|
    .own "labelDetails" (·.labelDetails) (.trailing CompletionItemLabelDetails.codec) <|
    .own "kind" (·.kind) (.trailing CompletionItemKind.codec) <|
    .own "tags" (·.tags) (.trailing CompletionItemTag.codec.list) <|
    .own "detail" (·.detail) (.trailing Codec.string) <|
    .own "documentation" (·.documentation) (.trailing StringOrMarkupContent.codec) <|
    .own "deprecated" (·.deprecated) (.trailing Codec.bool) <|
    .own "preselect" (·.preselect) (.trailing Codec.bool) <|
    .own "sortText" (·.sortText) (.trailing Codec.string) <|
    .own "filterText" (·.filterText) (.trailing Codec.string) <|
    .own "insertText" (·.insertText) (.trailing Codec.string) <|
    .own "insertTextFormat" (·.insertTextFormat) (.trailing InsertTextFormat.codec) <|
    .own "insertTextMode" (·.insertTextMode) (.trailing InsertTextMode.codec) <|
    .own "textEdit" (·.textEdit) (.trailing CompletionTextEdit.codec) <|
    .own "textEditText" (·.textEditText) (.trailing Codec.string) <|
    .own "additionalTextEdits" (·.additionalTextEdits) (.trailing TextEdit.codec.list) <|
    .own "commitCharacters" (·.commitCharacters) (.trailing Codec.string.list) <|
    .own "command" (·.command) (.trailing Command.codec) <|
    .own "data" (·.data) (.trailing LspAny.codec) .done⟩

def CompletionItem.codec : Codec CompletionItem := CompletionItem.record.codec

/-- An item with a label and some detail. -/
def CompletionItem.plain (label detail : String) : CompletionItem :=
  { label, detail := some detail }

/-- What holds of all items of a list that do not say otherwise. -/
structure CompletionListItemDefaults where
  commitCharacters : Option (List String) := none
  insertTextFormat : Option InsertTextFormat := none
  insertTextMode : Option InsertTextMode := none
  data : Option LspAny := none
deriving BEq

def CompletionListItemDefaults.record : Record CompletionListItemDefaults :=
  ⟨"CompletionListItemDefaults", CompletionListItemDefaults.mk,
    .own "commitCharacters" (·.commitCharacters) (.trailing Codec.string.list) <|
    .own "insertTextFormat" (·.insertTextFormat) (.trailing InsertTextFormat.codec) <|
    .own "insertTextMode" (·.insertTextMode) (.trailing InsertTextMode.codec) <|
    .own "data" (·.data) (.trailing LspAny.codec) .done⟩

def CompletionListItemDefaults.codec : Codec CompletionListItemDefaults :=
  CompletionListItemDefaults.record.codec

/-- Items to choose from, maybe not all of them. -/
structure CompletionList where
  isIncomplete : Bool := false
  itemDefaults : Option CompletionListItemDefaults := none
  items : List CompletionItem := []
deriving BEq

def CompletionList.record : Record CompletionList :=
  ⟨"CompletionList", CompletionList.mk,
    .own "isIncomplete" (·.isIncomplete) (.required Codec.bool) <|
    .own "itemDefaults" (·.itemDefaults) (.trailing CompletionListItemDefaults.codec) <|
    .own "items" (·.items) (.required CompletionItem.codec.list) .done⟩

def CompletionList.codec : Codec CompletionList := CompletionList.record.codec

/-- Items to choose from. -/
inductive CompletionResponse where
  | items (items : List CompletionItem)
  | list (list : CompletionList)
deriving BEq

def CompletionResponse.codec : Codec CompletionResponse :=
  .byValue
    (fun
      | .items is => CompletionItem.codec.list.encode is
      | .list l => CompletionList.codec.encode l)
    (fun
      | .array is => (CompletionItem.codec.list.ofJson (.array is)).map .items
      | .object ms => (CompletionList.codec.ofJson (.object ms)).map .list
      | j => Codec.unfit "completion items or a completion list" j)

/-- What a client can do with items. -/
structure CompletionItemClientCapabilities where
  snippetSupport : Option Bool := none
  commitCharactersSupport : Option Bool := none
  documentationFormat : Option (List MarkupKind) := none
  deprecatedSupport : Option Bool := none
  labelDetailsSupport : Option Bool := none

def CompletionItemClientCapabilities.record : Record CompletionItemClientCapabilities :=
  ⟨"CompletionItemClientCapabilities", CompletionItemClientCapabilities.mk,
    .own "snippetSupport" (·.snippetSupport) (.trailing Codec.bool) <|
    .own "commitCharactersSupport" (·.commitCharactersSupport) (.trailing Codec.bool) <|
    .own "documentationFormat" (·.documentationFormat) (.known MarkupKind.codec) <|
    .own "deprecatedSupport" (·.deprecatedSupport) (.trailing Codec.bool) <|
    .own "labelDetailsSupport" (·.labelDetailsSupport) (.trailing Codec.bool) .done⟩

def CompletionItemClientCapabilities.codec : Codec CompletionItemClientCapabilities :=
  CompletionItemClientCapabilities.record.codec

/-- The kinds of items that a client knows. -/
structure CompletionItemKindCapabilities where
  valueSet : Option (List CompletionItemKind) := none

def CompletionItemKindCapabilities.record : Record CompletionItemKindCapabilities :=
  ⟨"CompletionItemKindCapabilities", CompletionItemKindCapabilities.mk,
    .own "valueSet" (·.valueSet) (.known CompletionItemKind.codec) .done⟩

def CompletionItemKindCapabilities.codec : Codec CompletionItemKindCapabilities :=
  CompletionItemKindCapabilities.record.codec

/-- What a client can do with completion. -/
structure CompletionClientCapabilities where
  dynamicRegistration : Option Bool := none
  completionItem : Option CompletionItemClientCapabilities := none
  completionItemKind : Option CompletionItemKindCapabilities := none
  contextSupport : Option Bool := none

def CompletionClientCapabilities.record : Record CompletionClientCapabilities :=
  ⟨"CompletionClientCapabilities", CompletionClientCapabilities.mk,
    .own "dynamicRegistration" (·.dynamicRegistration) (.trailing Codec.bool) <|
    .own "completionItem" (·.completionItem) (.trailing CompletionItemClientCapabilities.codec) <|
    .own "completionItemKind" (·.completionItemKind)
      (.trailing CompletionItemKindCapabilities.codec) <|
    .own "contextSupport" (·.contextSupport) (.trailing Codec.bool) .done⟩

def CompletionClientCapabilities.codec : Codec CompletionClientCapabilities :=
  CompletionClientCapabilities.record.codec

end LanguageServer
