import LanguageServer.Protocol.ClientCapabilities
import LanguageServer.Protocol.ServerCapabilities

/-!
# The start of a session

The first request says who the client is and what it can do; the answer says the same of the server.
The client also sets how much the server tells about its own doings.
-/

namespace LanguageServer

/-- The name of the client. -/
structure ClientInfo where
  name : String
  version : Option String := none

def ClientInfo.record : Record ClientInfo :=
  ⟨"ClientInfo", ClientInfo.mk,
    .own "name" (·.name) (.required Codec.string) <|
    .own "version" (·.version) (.trailing Codec.string) .done⟩

def ClientInfo.codec : Codec ClientInfo := ClientInfo.record.codec

/-- How much the server tells about its own doings. -/
inductive TraceValue where
  | off
  | messages
  | verbose
deriving DecidableEq, Repr

/-- The name of a `TraceValue` in documents. -/
def TraceValue.name : TraceValue → String
  | .off => "off"
  | .messages => "messages"
  | .verbose => "verbose"

def TraceValue.enumeration : Enumeration TraceValue :=
  ⟨[.off, .messages, .verbose], TraceValue.name⟩

def TraceValue.codec : Codec TraceValue := TraceValue.enumeration.codec

/-- From nothing to everything. -/
def TraceValue.rank : TraceValue → Nat
  | .off => 0
  | .messages => 1
  | .verbose => 2

/-- By how much is told. -/
def TraceValue.compare (a b : TraceValue) : Ordering := Ord.compare a.rank b.rank

/-- Who the client is and what it can do. -/
structure InitializeParams where
  processId : Option Int32 := none
  clientInfo : Option ClientInfo := none
  locale : Option String := none
  rootPath : Option String := none
  rootUri : Option DocumentUri := none
  initializationOptions : Option LspAny := none
  capabilities : ClientCapabilities := {}
  trace : Option TraceValue := none
  workspaceFolders : Option (List WorkspaceFolder) := none
  workDoneToken : Option IntOrString := none

def InitializeParams.record : Record InitializeParams :=
  ⟨"InitializeParams", InitializeParams.mk,
    .own "processId" (·.processId) (.nullableTrailing Codec.int32) <|
    .own "clientInfo" (·.clientInfo) (.trailing ClientInfo.codec) <|
    .own "locale" (·.locale) (.trailing Codec.string) <|
    .own "rootPath" (·.rootPath) (.trailing Codec.string) <|
    .own "rootUri" (·.rootUri) (.nullableTrailing Codec.string) <|
    .own "initializationOptions" (·.initializationOptions) (.trailing LspAny.codec) <|
    .own "capabilities" (·.capabilities) (.orElse ClientCapabilities.codec {}) <|
    .own "trace" (·.trace) (.trailing TraceValue.codec) <|
    .own "workspaceFolders" (·.workspaceFolders) (.trailing WorkspaceFolder.codec.list) <|
    .own "workDoneToken" (·.workDoneToken) (.trailing IntOrString.codec) .done⟩

def InitializeParams.codec : Codec InitializeParams := InitializeParams.record.codec

/-- The name of the server. -/
structure ServerInfo where
  name : String
  version : Option String := none

def ServerInfo.record : Record ServerInfo :=
  ⟨"ServerInfo", ServerInfo.mk,
    .own "name" (·.name) (.required Codec.string) <|
    .own "version" (·.version) (.trailing Codec.string) .done⟩

def ServerInfo.codec : Codec ServerInfo := ServerInfo.record.codec

/-- What the server can do, and its name. -/
structure InitializeResult where
  capabilities : ServerCapabilities := {}
  serverInfo : Option ServerInfo := none

def InitializeResult.record : Record InitializeResult :=
  ⟨"InitializeResult", InitializeResult.mk,
    .own "capabilities" (·.capabilities) (.required ServerCapabilities.codec) <|
    .own "serverInfo" (·.serverInfo) (.trailing ServerInfo.codec) .done⟩

def InitializeResult.codec : Codec InitializeResult := InitializeResult.record.codec

/-- The client has taken the answer. -/
structure InitializedParams where

def InitializedParams.record : Record InitializedParams :=
  ⟨"InitializedParams", InitializedParams.mk, .done⟩

def InitializedParams.codec : Codec InitializedParams := InitializedParams.record.codec

/-- How much the server is to tell. -/
structure SetTraceParams where
  value : TraceValue

def SetTraceParams.record : Record SetTraceParams :=
  ⟨"SetTraceParams", SetTraceParams.mk,
    .own "value" (·.value) (.required TraceValue.codec) .done⟩

def SetTraceParams.codec : Codec SetTraceParams := SetTraceParams.record.codec

/-- What the server tells about its own doings. -/
structure LogTraceParams where
  message : String
  verbose : Option String := none

def LogTraceParams.record : Record LogTraceParams :=
  ⟨"LogTraceParams", LogTraceParams.mk,
    .own "message" (·.message) (.required Codec.string) <|
    .own "verbose" (·.verbose) (.trailing Codec.string) .done⟩

def LogTraceParams.codec : Codec LogTraceParams := LogTraceParams.record.codec

end LanguageServer
