import LanguageServer.Frame.Header
import LanguageServer.Protocol.Message

/-!
# Frames

A frame is a header, an empty line and a body of as many bytes as the header says.

* `Frame.bytes` writes a frame;
* `Frame.read` reads the frame at the front of a stream, of which more may still come.
-/

namespace LanguageServer

/-- A message with its header. -/
structure Frame where
  header : Header
  content : String

namespace Frame

/-- The frame of a text. -/
def ofContent (content : String) : Frame :=
  { header := { contentLength := (Text.utf8 content).length }, content }

/-- The frame of a message. -/
def ofMessage (m : RpcMessage) : Frame := ofContent m.render

/-- The message in a text. -/
def parseMessage (content : String) : Outcome RpcMessage :=
  (RpcMessage.codec.ofText content).mapError (.ofTextDecode content)

/-- The message in a frame. -/
def message (f : Frame) : Outcome RpcMessage := parseMessage f.content

/-- What ends a line. -/
def crlf : List UInt8 := [13, 10]

/-- The bytes of a frame. -/
def bytes (f : Frame) : List UInt8 :=
  (f.header.lines.flatMap fun line => Text.utf8 line ++ crlf) ++ crlf ++ Text.utf8 f.content

/-- The bytes up to the first line feed, that included, and those behind it. -/
def takeLine : List UInt8 → Option (List UInt8 × List UInt8)
  | [] => none
  | b :: rest => if b = 10 then some ([b], rest) else (takeLine rest).map fun (l, r) => (b :: l, r)

/-- What stands at the front of a stream. -/
inductive Front where
  /-- Not enough to say. -/
  | waiting
  /-- The end, with nothing before it. -/
  | finished
  /-- Something that is no frame. -/
  | broken (error : LspError)
  /-- A header for a body that no buffer can hold: its reader panics. -/
  | overflow
  /-- A frame, with what is behind it. -/
  | frame (frame : Frame) (rest : List UInt8)

/-- The error at the front of a stream, if there is one. -/
def Front.error? : Front → Option LspError
  | .broken e => some e
  | _ => none

/-- What stands at the front of a stream that a line is read from. -/
inductive Line where
  | waiting
  | finished
  | broken (error : LspError)
  | text (line : String) (rest : List UInt8)

/-- The bytes of a line without its end, if the end is right. -/
def withoutEnd? (line : List UInt8) : Option (List UInt8) :=
  match line.reverse with
  | 10 :: 13 :: rest => some rest.reverse
  | _ => none

/-- A line with its end. -/
def lineOf (line rest : List UInt8) : Line :=
  match withoutEnd? line with
  | none => .broken (.transport "Header line not terminated by CRLF")
  | some line =>
    match Text.ofUtf8 line with
    | .ok text => .text text rest
    | .error e => .broken (.transport ("Invalid UTF-8 in header: " ++ e.message))

/-- Read a line; `more` says that further bytes may come. -/
def readLine (more : Bool) (stream : List UInt8) : Line :=
  match takeLine stream with
  | some (line, rest) => lineOf line rest
  -- At the end of the stream a line without its end is a broken line.
  | none => if more then .waiting else if stream.isEmpty then .finished else lineOf stream []

/-- What stands behind the header fields read so far. -/
inductive HeaderFront where
  | waiting
  | finished
  | broken (error : LspError)
  | header (header : Header) (rest : List UInt8)

/-- Read header fields up to the empty line; `first` says that none is read yet. Every line takes at
least one unit of fuel. -/
def readHeader (more : Bool) : Nat → Bool → Header.Partial → List UInt8 → HeaderFront
  | 0, _, _, _ => .waiting
  | fuel + 1, first, fields, stream =>
    match readLine more stream with
    | .waiting => .waiting
    | .finished =>
      if first then .finished else .broken (.transport "Stream ended inside message headers")
    | .broken e => .broken e
    | .text line rest =>
      if line.isEmpty then
        match fields.finish with
        | .ok header => .header header rest
        | .error e => .broken e
      else
        match fields.add line with
        | .ok fields => readHeader more fuel false fields rest
        | .error e => .broken e

/-- The wording of a body that is longer than allowed. -/
def tooLong (length limit : Nat) : String :=
  "Message of " ++ toString length ++ " bytes exceeds the " ++ toString limit ++ " byte limit"

/-- The most bytes that a buffer can have: 2⁶³ - 1, however much memory there is. -/
def capacity : Nat := 0x7fffffffffffffff

/-- Read the body that a header announces. -/
def readBody (limit : Nat) (more : Bool) (header : Header) (stream : List UInt8) : Front :=
  -- The character set counts before the length, and both before the body.
  match header.checkCharset with
  | .error e => .broken e
  | .ok () =>
    if limit < header.contentLength then .broken (.transport (tooLong header.contentLength limit))
    -- The buffer is set up before a byte of the body is looked at.
    else if capacity < header.contentLength then .overflow
    else
      let body := stream.take header.contentLength
      if body.length < header.contentLength then
        if more then .waiting else .broken (.io "early eof")
      else
        match Text.ofUtf8 body with
        | .ok content => .frame ⟨header, content⟩ (stream.drop header.contentLength)
        | .error e => .broken (.transport ("Invalid UTF-8 content: " ++ e.message))

/-- The longest body that is read when nothing else is said: 64 MiB. -/
def defaultLimit : Nat := 64 * 1024 * 1024

/-- Read the frame at the front of a stream; bodies of more than `limit` bytes are refused, and
`more` says that further bytes may come.  Between `capacity` and a limit above it
there are lengths that are neither refused nor read. -/
def read (limit : Nat) (more : Bool) (stream : List UInt8) : Front :=
  match readHeader more (stream.length + 1) true {} stream with
  | .waiting => .waiting
  | .finished => .finished
  | .broken e => .broken e
  | .header header rest => readBody limit more header rest

/-- Read frames up to something that is none, which is what the reading stops at; every frame takes
at least one unit of fuel. -/
def readUpTo (limit : Nat) : Nat → List UInt8 → List Frame × Front
  | 0, _ => ([], .waiting)
  | fuel + 1, stream =>
    match read limit false stream with
    | .frame f rest =>
      let (frames, front) := readUpTo limit fuel rest
      (f :: frames, front)
    | front => ([], front)

/-- The frames of a stream, and the error that stopped the reading, if one did. -/
def readAll (limit : Nat) (stream : List UInt8) : List Frame × Option LspError :=
  let (frames, front) := readUpTo limit (stream.length + 1) stream
  (frames, front.error?)

/-- What the reading of a stream stops at, behind its frames. -/
def stop (limit : Nat) (stream : List UInt8) : Front :=
  (readUpTo limit (stream.length + 1) stream).2

end Frame

end LanguageServer
