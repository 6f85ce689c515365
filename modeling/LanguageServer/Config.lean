import LanguageServer.Error
import LanguageServer.Protocol.Initialize

/-!
# Configuration

What a server says of itself and cannot be read off its handlers. Every setting has a default, so
that a configuration may be given in part.
-/

namespace LanguageServer

/-- How changes of documents are to be sent. -/
inductive SyncMode where
  | full
  | incremental
deriving DecidableEq, Repr

/-- The name of a `SyncMode` in documents. -/
def SyncMode.name : SyncMode → String
  | .full => "full"
  | .incremental => "incremental"

def SyncMode.enumeration : Enumeration SyncMode :=
  ⟨[.full, .incremental], SyncMode.name⟩

def SyncMode.codec : Codec SyncMode := SyncMode.enumeration.codec

/-- The kind of synchronisation that is announced. -/
def SyncMode.kind : SyncMode → TextDocumentSyncKind
  | .full => .full
  | .incremental => .incremental

/-- The settings of a server. -/
structure ServerConfig where
  name : String := "tokio-lsp-server"
  version : Option String := some "0.1.0"
  positionEncodings : List PositionEncodingKind := [.utf16]
  textDocumentSync : SyncMode := .incremental
  saveIncludeText : Bool := false
  semanticTokensLegend : SemanticTokensLegend := {}
  completionTriggerCharacters : List String := []
  signatureHelpTriggerCharacters : List String := []
  onTypeFormattingTriggerCharacters : List String := []
  commands : List String := []

namespace ServerConfig

/-- The settings when none are given. -/
def default : ServerConfig := {}

instance : Inhabited ServerConfig := ⟨default⟩

def record : Record ServerConfig :=
  ⟨"ServerConfig", ServerConfig.mk,
    .own "name" (·.name) (.orElse Codec.string default.name) <|
    .own "version" (·.version) (.orElse Codec.string.option default.version) <|
    .own "positionEncodings" (·.positionEncodings)
      (.orElse PositionEncodingKind.codec.list default.positionEncodings) <|
    .own "textDocumentSync" (·.textDocumentSync)
      (.orElse SyncMode.codec default.textDocumentSync) <|
    .own "saveIncludeText" (·.saveIncludeText) (.orElse Codec.bool default.saveIncludeText) <|
    .own "semanticTokensLegend" (·.semanticTokensLegend)
      (.orElse SemanticTokensLegend.codec default.semanticTokensLegend) <|
    .own "completionTriggerCharacters" (·.completionTriggerCharacters)
      (.orElse Codec.string.list default.completionTriggerCharacters) <|
    .own "signatureHelpTriggerCharacters" (·.signatureHelpTriggerCharacters)
      (.orElse Codec.string.list default.signatureHelpTriggerCharacters) <|
    .own "onTypeFormattingTriggerCharacters" (·.onTypeFormattingTriggerCharacters)
      (.orElse Codec.string.list default.onTypeFormattingTriggerCharacters) <|
    .own "commands" (·.commands) (.orElse Codec.string.list default.commands) .done⟩

def codec : Codec ServerConfig := record.codec

/-- A server of this name, without a version. -/
def named (name : String) : ServerConfig := { name, version := none }

/-- Read the settings from a text; what is missing keeps its default. -/
def ofText (text : String) : Outcome ServerConfig :=
  (codec.ofText text).mapError (.ofTextDecode text)

/-- What the server says of itself. -/
def serverInfo (c : ServerConfig) : ServerInfo := { name := c.name, version := c.version }

/-- The first of the server's encodings that the client offers, or else UTF-16, which every client
has. -/
def negotiateEncoding (c : ServerConfig) (client : ClientCapabilities) : PositionEncodingKind :=
  (c.positionEncodings.find? fun e => client.positionEncodings.contains e).getD .utf16

end ServerConfig

end LanguageServer
