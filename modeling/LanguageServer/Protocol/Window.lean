import LanguageServer.Protocol.Progress

/-!
# The window

Messages and documents shown to the user.
-/

namespace LanguageServer

/-- How much a message matters. -/
inductive MessageType where
  | error
  | warning
  | info
  | log
  | debug
deriving DecidableEq, Repr

/-- The number of a `MessageType` in documents. -/
def MessageType.toNat : MessageType → Nat
  | .error => 1
  | .warning => 2
  | .info => 3
  | .log => 4
  | .debug => 5

def MessageType.numbering : Numbering MessageType :=
  ⟨"MessageType", [.error, .warning, .info, .log, .debug], MessageType.toNat⟩

def MessageType.codec : Codec MessageType := MessageType.numbering.codec

/-- A message to be shown. -/
structure ShowMessageParams where
  level : MessageType
  message : String

def ShowMessageParams.record : Record ShowMessageParams :=
  ⟨"ShowMessageParams", ShowMessageParams.mk,
    .own "type" (·.level) (.required MessageType.codec) <|
    .own "message" (·.message) (.required Codec.string) .done⟩

def ShowMessageParams.codec : Codec ShowMessageParams := ShowMessageParams.record.codec

/-- A message to be logged. -/
structure LogMessageParams where
  level : MessageType
  message : String

def LogMessageParams.record : Record LogMessageParams :=
  ⟨"LogMessageParams", LogMessageParams.mk,
    .own "type" (·.level) (.required MessageType.codec) <|
    .own "message" (·.message) (.required Codec.string) .done⟩

def LogMessageParams.codec : Codec LogMessageParams := LogMessageParams.record.codec

/-- A button under a message; whatever else it carries comes back with it. -/
structure MessageActionItem where
  title : String
  properties : Dictionary LspAny := Dictionary.empty
deriving BEq

def MessageActionItem.record : Record MessageActionItem :=
  ⟨"MessageActionItem", MessageActionItem.mk,
    .own "title" (·.title) (.required Codec.string) <|
    .part (·.properties) (Part.rest LspAny.codec) .done⟩

def MessageActionItem.codec : Codec MessageActionItem := MessageActionItem.record.codec

/-- A button that carries nothing but its title. -/
def MessageActionItem.plain (title : String) : MessageActionItem := { title }

/-- A message to be shown with buttons. -/
structure ShowMessageRequestParams where
  level : MessageType
  message : String
  actions : Option (List MessageActionItem) := none

def ShowMessageRequestParams.record : Record ShowMessageRequestParams :=
  ⟨"ShowMessageRequestParams", ShowMessageRequestParams.mk,
    .own "type" (·.level) (.required MessageType.codec) <|
    .own "message" (·.message) (.required Codec.string) <|
    .own "actions" (·.actions) (.trailing MessageActionItem.codec.list) .done⟩

def ShowMessageRequestParams.codec : Codec ShowMessageRequestParams :=
  ShowMessageRequestParams.record.codec

/-- A document to be shown. -/
structure ShowDocumentParams where
  uri : Uri
  external : Option Bool := none
  takeFocus : Option Bool := none
  selection : Option Range := none

def ShowDocumentParams.record : Record ShowDocumentParams :=
  ⟨"ShowDocumentParams", ShowDocumentParams.mk,
    .own "uri" (·.uri) (.required Codec.string) <|
    .own "external" (·.external) (.trailing Codec.bool) <|
    .own "takeFocus" (·.takeFocus) (.trailing Codec.bool) <|
    .own "selection" (·.selection) (.trailing Range.codec) .done⟩

def ShowDocumentParams.codec : Codec ShowDocumentParams := ShowDocumentParams.record.codec

/-- Whether a document was shown. -/
structure ShowDocumentResult where
  success : Bool

def ShowDocumentResult.record : Record ShowDocumentResult :=
  ⟨"ShowDocumentResult", ShowDocumentResult.mk,
    .own "success" (·.success) (.required Codec.bool) .done⟩

def ShowDocumentResult.codec : Codec ShowDocumentResult := ShowDocumentResult.record.codec

/-- Whether a client keeps what a button carries. -/
structure MessageActionItemClientCapabilities where
  additionalPropertiesSupport : Option Bool := none

def MessageActionItemClientCapabilities.record : Record MessageActionItemClientCapabilities :=
  ⟨"MessageActionItemClientCapabilities", MessageActionItemClientCapabilities.mk,
    .own "additionalPropertiesSupport" (·.additionalPropertiesSupport) (.trailing Codec.bool) .done⟩

def MessageActionItemClientCapabilities.codec : Codec MessageActionItemClientCapabilities :=
  MessageActionItemClientCapabilities.record.codec

/-- What a client can do with buttons. -/
structure ShowMessageRequestClientCapabilities where
  messageActionItem : Option MessageActionItemClientCapabilities := none

def ShowMessageRequestClientCapabilities.record : Record ShowMessageRequestClientCapabilities :=
  ⟨"ShowMessageRequestClientCapabilities", ShowMessageRequestClientCapabilities.mk,
    .own "messageActionItem" (·.messageActionItem)
      (.trailing MessageActionItemClientCapabilities.codec) .done⟩

def ShowMessageRequestClientCapabilities.codec : Codec ShowMessageRequestClientCapabilities :=
  ShowMessageRequestClientCapabilities.record.codec

/-- Whether a client shows documents. -/
structure ShowDocumentClientCapabilities where
  support : Bool := false

def ShowDocumentClientCapabilities.record : Record ShowDocumentClientCapabilities :=
  ⟨"ShowDocumentClientCapabilities", ShowDocumentClientCapabilities.mk,
    .own "support" (·.support) (.required Codec.bool) .done⟩

def ShowDocumentClientCapabilities.codec : Codec ShowDocumentClientCapabilities :=
  ShowDocumentClientCapabilities.record.codec

/-- What a client can show. -/
structure WindowClientCapabilities where
  workDoneProgress : Option Bool := none
  showMessage : Option ShowMessageRequestClientCapabilities := none
  showDocument : Option ShowDocumentClientCapabilities := none

def WindowClientCapabilities.record : Record WindowClientCapabilities :=
  ⟨"WindowClientCapabilities", WindowClientCapabilities.mk,
    .own "workDoneProgress" (·.workDoneProgress) (.trailing Codec.bool) <|
    .own "showMessage" (·.showMessage) (.trailing ShowMessageRequestClientCapabilities.codec) <|
    .own "showDocument" (·.showDocument) (.trailing ShowDocumentClientCapabilities.codec) .done⟩

def WindowClientCapabilities.codec : Codec WindowClientCapabilities :=
  WindowClientCapabilities.record.codec

end LanguageServer
