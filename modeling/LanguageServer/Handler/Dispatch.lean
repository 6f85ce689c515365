import LanguageServer.Any
import LanguageServer.Protocol.Message

/-!
# What comes of a message

`DispatchResult` lists what can come of handing a message to a server: a result, an error of the
callback, no callback at all, or parameters that do not decode.
-/

namespace LanguageServer

/-- What comes of a message. -/
inductive DispatchResult where
  /-- The callback has succeeded; notifications have no result. -/
  | success (result : Option LspAny)
  /-- The message was refused, or the callback has failed. -/
  | failure (error : LspError)
  /-- There is no callback for the method. -/
  | methodNotFound
  /-- The parameters do not decode. -/
  | invalidParams (error : Option LspError)

namespace DispatchResult

/-- The result, if there is one. -/
def result? : DispatchResult → Option LspAny
  | .success result => result
  | _ => none

/-- The error, if there is one. -/
def error? : DispatchResult → Option LspError
  | .failure e => some e
  | .invalidParams e => e
  | _ => none

/-- Whether there is a callback for the method. -/
def methodValid : DispatchResult → Bool
  | .methodNotFound => false
  | _ => true

/-- Whether the parameters have decoded. -/
def paramsValid : DispatchResult → Bool
  | .methodNotFound => false
  | .invalidParams _ => false
  | _ => true

/-- Whether the message was handled without an error. -/
def isSuccess : DispatchResult → Bool
  | .success _ => true
  | _ => false

/-- The error object that answers a request, if it is answered by one. -/
def responseError (method : String) : DispatchResult → Option ResponseError
  | .success _ => none
  | .failure e => some e.toResponse
  | .methodNotFound => some (.of .methodNotFound ("method not found: " ++ method))
  | .invalidParams none => some (.of .invalidParams "invalid params")
  | .invalidParams (some e) => some (.of .invalidParams e.message)

/-- The answer to a request. -/
def response (id : Id) (method : String) (r : DispatchResult) : ResponseMessage :=
  match r.responseError method with
  | some e => .failure (some id) e
  | none => .success id ((r.result?.map LspAny.toJson).getD .null)

/-- What comes of a callback that has ended. -/
def ofOutcome : Outcome (Option LspAny) → DispatchResult
  | .ok result => .success result
  | .error e => .failure e

end DispatchResult

end LanguageServer
