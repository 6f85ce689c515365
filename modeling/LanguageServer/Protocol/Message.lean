import LanguageServer.Error

/-!
# Messages

A message is a request, which has an identifier and wants an answer, a notification, which has
neither, or a response to a request. `RpcMessage.codec` tells them apart: a message with a method
and an identifier other than null is a request, one with a method alone a notification, any other
object a response.
-/

namespace LanguageServer

open Json (Source)

/-- The version that every message names. -/
def protocolVersion : String := "2.0"

/-- A message that wants an answer. -/
structure RequestMessage where
  jsonrpc : String := protocolVersion
  id : IntOrString
  method : String
  params : Option Json := none

def RequestMessage.record : Record RequestMessage :=
  ⟨"RequestMessage", RequestMessage.mk,
    .own "jsonrpc" (·.jsonrpc) (.orElse Codec.string protocolVersion) <|
    .own "id" (·.id) (.required IntOrString.codec) <|
    .own "method" (·.method) (.required Codec.string) <|
    .own "params" (·.params) (.trailing Codec.json) .done⟩

def RequestMessage.codec : Codec RequestMessage := RequestMessage.record.codec

/-- A message that wants no answer. -/
structure NotificationMessage where
  jsonrpc : String := protocolVersion
  method : String
  params : Option Json := none

def NotificationMessage.record : Record NotificationMessage :=
  ⟨"NotificationMessage", NotificationMessage.mk,
    .own "jsonrpc" (·.jsonrpc) (.orElse Codec.string protocolVersion) <|
    .own "method" (·.method) (.required Codec.string) <|
    .own "params" (·.params) (.trailing Codec.json) .done⟩

def NotificationMessage.codec : Codec NotificationMessage := NotificationMessage.record.codec

/-- A response as it is written. -/
structure RawResponse where
  jsonrpc : String := protocolVersion
  id : Option IntOrString := none
  result : Option Json := none
  error : Option ResponseError := none

def RawResponse.record : Record RawResponse :=
  ⟨"RawResponse", RawResponse.mk,
    .own "jsonrpc" (·.jsonrpc) (.orElse Codec.string protocolVersion) <|
    .own "id" (·.id) (.nullableTrailing IntOrString.codec) <|
    .own "result" (·.result) (.trailing Codec.json) <|
    .own "error" (·.error) (.trailing ResponseError.codec) .done⟩

def RawResponse.codec : Codec RawResponse := RawResponse.record.codec

/-- The answer to a request: a result or an error. -/
structure ResponseMessage where
  jsonrpc : String := protocolVersion
  id : Option Id
  result : Option Json := none
  error : Option ResponseError := none

namespace ResponseMessage

/-- A result. -/
def success (id : Id) (result : Json) : ResponseMessage := { id := some id, result := some result }

/-- An error; a message that could not be read has no identifier. -/
def failure (id : Option Id) (error : ResponseError) : ResponseMessage :=
  { id, error := some error }

/-- Whether the answer is an error. -/
def isError (m : ResponseMessage) : Bool := m.error.isSome

/-- The error, or else the result, which is null when it is missing. -/
def toResult (m : ResponseMessage) : Except ResponseError Json :=
  match m.error with
  | some e => .error e
  | none => .ok (m.result.getD .null)

/-- A response without an error always shows a result. -/
def toRaw (m : ResponseMessage) : RawResponse :=
  match m.result, m.error with
  | none, none => ⟨m.jsonrpc, m.id, some .null, none⟩
  | result, error => ⟨m.jsonrpc, m.id, result, error⟩

def codec : Codec ResponseMessage :=
  RawResponse.codec.map (fun r => ⟨r.jsonrpc, r.id, r.result, r.error⟩) toRaw

end ResponseMessage

/-- A message of either side. -/
inductive RpcMessage where
  | request (message : RequestMessage)
  | notification (message : NotificationMessage)
  | response (message : ResponseMessage)

namespace RpcMessage

/-- A request with parameters. -/
def ofRequest (id : Id) (method : String) (params : Option Json) : RpcMessage :=
  .request { id, method, params }

/-- A notification with parameters. -/
def ofNotification (method : String) (params : Option Json) : RpcMessage :=
  .notification { method, params }

/-- Read a message by its members. -/
def ofJson : Json → Decoded RpcMessage
  | .object ms =>
    let hasId := (Members.get? "id" ms).any fun id => !id.isNull
    if Members.contains "method" ms then
      if hasId then (RequestMessage.codec.ofJson (.object ms)).map .request
      else (NotificationMessage.codec.ofJson (.object ms)).map .notification
    else (ResponseMessage.codec.ofJson (.object ms)).map .response
  | _ => .error (.unplaced .messageNotObject)

def codec : Codec RpcMessage :=
  .byValue
    (fun
      | .request m => RequestMessage.codec.encode m
      | .notification m => NotificationMessage.codec.encode m
      | .response m => ResponseMessage.codec.encode m)
    ofJson

/-- The members of a message, in the order in which they are written. -/
def members : RpcMessage → List (String × Json)
  | .request m => RequestMessage.record.fields.encode m
  | .notification m => NotificationMessage.record.fields.encode m
  | .response m => RawResponse.record.fields.encode m.toRaw

/-- The method of a request or a notification. -/
def method? : RpcMessage → Option String
  | .request m => some m.method
  | .notification m => some m.method
  | .response _ => none

/-- The identifier of a request or a response. -/
def id? : RpcMessage → Option Id
  | .request m => some m.id
  | .response m => m.id
  | .notification _ => none

/-- Whether the message wants an answer. -/
def isRequest : RpcMessage → Bool
  | .request _ => true
  | _ => false

/-- Whether the message wants no answer and is none. -/
def isNotification : RpcMessage → Bool
  | .notification _ => true
  | _ => false

/-- Whether the message is an answer. -/
def isResponse : RpcMessage → Bool
  | .response _ => true
  | _ => false

/-- The text of a message: its own members in their order, all that they hold sorted, and the error
of a response in the order of its fields. -/
def render (m : RpcMessage) : String :=
  let shown :=
    match m with
    | .response r =>
      match r.error with
      | some e =>
        m.members.map fun (k, j) =>
          if k = "error" then (k, Json.object (ResponseError.record.fields.encode e)) else (k, j)
      | none => m.members
    | _ => m.members
  (Json.object shown).render

end RpcMessage

/-- The client gives up a request. -/
structure CancelParams where
  id : IntOrString

def CancelParams.record : Record CancelParams :=
  ⟨"CancelParams", CancelParams.mk,
    .own "id" (·.id) (.required IntOrString.codec) .done⟩

def CancelParams.codec : Codec CancelParams := CancelParams.record.codec

end LanguageServer
