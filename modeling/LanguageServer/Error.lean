import LanguageServer.Protocol.Identifier

/-!
# Errors and their answers

`LspError` lists what can go wrong between a message and its answer; `LspError.message` words it and
`LspError.toResponse` is the error object that the other side gets.
-/

namespace LanguageServer

/-- An error object: a code, a text and, maybe, data. -/
structure ResponseError where
  code : Int32
  message : String
  data : Option Json := none

def ResponseError.record : Record ResponseError :=
  ⟨"ResponseError", ResponseError.mk,
    .own "code" (·.code) (.required Codec.int32) <|
    .own "message" (·.message) (.required Codec.string) <|
    .own "data" (·.data) (.optional Codec.json) .done⟩

def ResponseError.codec : Codec ResponseError := ResponseError.record.codec

/-- The codes of error objects. -/
inductive ErrorCode where
  | parseError
  | invalidRequest
  | methodNotFound
  | invalidParams
  | internalError
  | serverNotInitialized
  | unknownErrorCode
  | requestFailed
  | serverCancelled
  | contentModified
  | requestCancelled
deriving DecidableEq, Repr

/-- The number of a code. -/
def ErrorCode.value : ErrorCode → Int32
  | .parseError => -32700
  | .invalidRequest => -32600
  | .methodNotFound => -32601
  | .invalidParams => -32602
  | .internalError => -32603
  | .serverNotInitialized => -32002
  | .unknownErrorCode => -32001
  | .requestFailed => -32803
  | .serverCancelled => -32802
  | .contentModified => -32801
  | .requestCancelled => -32800

/-- Numbers that are set aside for codes, from the first to the last. -/
structure ErrorCode.Range where
  first : Int32
  last : Int32

/-- The numbers that JSON-RPC sets aside, apart from its own codes. -/
def ErrorCode.jsonrpcReserved : ErrorCode.Range := ⟨-32099, -32000⟩

/-- The numbers that the language server protocol sets aside. -/
def ErrorCode.lspReserved : ErrorCode.Range := ⟨-32899, -32800⟩

/-- Whether a code lies in a range. -/
def ErrorCode.isIn (range : ErrorCode.Range) (code : ErrorCode) : Bool :=
  decide (range.first ≤ code.value) && decide (code.value ≤ range.last)

/-- An error object of a known code, without data. -/
def ResponseError.of (code : ErrorCode) (message : String) : ResponseError :=
  { code := code.value, message }

/-- The wording of an error object. -/
def ResponseError.text (e : ResponseError) : String :=
  "Error " ++ Json.Number.renderInt e.code.toInt ++ ": " ++ e.message

/-- What can go wrong between a message and its answer. -/
inductive LspError where
  /-- Bytes could not be read or written. -/
  | io (text : String)
  /-- A text or a value did not decode. -/
  | json (text : String)
  /-- An error object, from a handler or from the other side. -/
  | protocol (error : ResponseError)
  /-- A frame is not well formed. -/
  | transport (text : String)
  /-- The connection is gone. -/
  | connection (text : String)
  /-- A message came outside the initialized state. -/
  | notInitialized
  /-- A request was cancelled. -/
  | requestCancelled
  /-- A diagnostic report is neither full nor unchanged. -/
  | unknownReportKind (kind : String)
  /-- Anything else. -/
  | other (text : String)

namespace LspError

/-- The wording of an error. -/
def message : LspError → String
  | .io text => "IO error: " ++ text
  | .json text => "JSON error: " ++ text
  | .protocol e => "LSP protocol error: " ++ e.text
  | .transport text => "Transport error: " ++ text
  | .connection text => "Connection error: " ++ text
  | .notInitialized => "server is not initialized"
  | .requestCancelled => "request cancelled"
  | .unknownReportKind kind => "invalid diagnostic report kind: " ++ kind
  | .other text => "LSP error: " ++ text

/-- A value that did not decode. -/
def ofDecode (e : DecodeError) : LspError := .json e.words

/-- A text that did not decode. -/
def ofTextDecode (text : String) (e : DecodeError) : LspError := .json (e.message text)

/-- The error object that the other side gets. -/
def toResponse : LspError → ResponseError
  | .protocol e => e
  | .notInitialized => .of .serverNotInitialized LspError.notInitialized.message
  | .requestCancelled => .of .requestCancelled LspError.requestCancelled.message
  | .json text => .of .invalidParams text
  | .unknownReportKind kind => .of .invalidParams (LspError.unknownReportKind kind).message
  | e => .of .internalError e.message

end LspError

/-- The outcome of something that can go wrong. -/
abbrev Outcome (α : Type) := Except LspError α

end LanguageServer
