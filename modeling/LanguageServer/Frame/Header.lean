import LanguageServer.Dictionary
import LanguageServer.Error
import LanguageServer.Text.Blank
import LanguageServer.Text.Digits
import LanguageServer.Text.Utf8

/-!
# Headers

Every message is preceded by header fields: the length of the body in bytes, maybe the type of the
content with its character set, and maybe others, which are kept and mean nothing.
-/

namespace LanguageServer

open Text (strip cutAt piecesAt lower stripWhere)

/-- The type of the content when the header does not say it. -/
def Header.defaultContentType : String := "application/vscode-jsonrpc; charset=utf-8"

/-- The header of a message. -/
structure Header where
  contentLength : Nat
  contentType : String := Header.defaultContentType
  additional : Dictionary String := .empty

namespace Header

/-- The name and the value of a parameter of a content type. -/
def parameter? (piece : List Char) : Option (List Char × List Char) := cutAt '=' (strip piece)

/-- The character set that a content type names: the first parameter `charset`, without quotation
marks, in lower case, under its common spelling; UTF-8 when there is none. -/
def charsetOf (contentType : String) : String :=
  let parameters := (piecesAt ';' contentType.toList).filterMap parameter?
  match parameters.find? fun p => lower (strip p.1) = "charset".toList with
  | none => "utf-8"
  | some p =>
    let charset := String.ofList (lower (stripWhere (· = '"') (strip p.2)))
    if charset = "utf8" then "utf-8" else charset

/-- The character set of the content. -/
def charset (h : Header) : String := charsetOf h.contentType

/-- Refuse any character set but UTF-8. -/
def checkCharset (h : Header) : Outcome Unit :=
  if h.charset = "utf-8" then .ok ()
  else .error (.transport ("Unsupported encoding: " ++ h.charset))

/-- A length in decimal digits, with or without a plus, that fits 64 bits. -/
def parseLength? (cs : List Char) : Option Nat :=
  -- One plus may stand before the digits, a minus may not.
  let digits := if cs.head? = some '+' then cs.tail else cs
  if digits.isEmpty || !digits.all Char.isDigit then none
  else
    let n := Text.ofDigits digits
    if n < 0x10000000000000000 then some n else none

/-- The name and the value of a field. -/
def field (line : String) : Outcome (String × String) :=
  match cutAt ':' line.toList with
  | some (name, value) =>
    if (strip name).isEmpty then .error (.transport ("Invalid header field: " ++ line))
    else .ok (String.ofList (strip name), String.ofList (strip value))
  | none => .error (.transport ("Invalid header field: " ++ line))

/-- The lines of a header, without their ends. -/
def lines (h : Header) : List String :=
  ["Content-Length: " ++ toString h.contentLength] ++
    (if h.contentType = defaultContentType then [] else ["Content-Type: " ++ h.contentType]) ++
    h.additional.members.map fun m => m.1 ++ ": " ++ m.2

end Header

/-- The fields of a header read so far. -/
structure Header.Partial where
  contentLength : Option Nat := none
  contentType : String := Header.defaultContentType
  additional : Dictionary String := .empty

namespace Header.Partial

/-- Take one more field; of fields with one name the last stays. -/
def add (h : Header.Partial) (line : String) : Outcome Header.Partial := do
  let (name, value) ← Header.field line
  if lower name.toList = "content-length".toList then
    match Header.parseLength? value.toList with
    | some n => .ok { h with contentLength := some n }
    | none => .error (.transport ("Invalid Content-Length: " ++ value))
  else if lower name.toList = "content-type".toList then .ok { h with contentType := value }
  else .ok { h with additional := h.additional.insert name value }

/-- The header, once all its fields are read. -/
def finish (h : Header.Partial) : Outcome Header :=
  match h.contentLength with
  | some n => .ok ⟨n, h.contentType, h.additional⟩
  | none => .error (.transport "Missing Content-Length header")

end Header.Partial

end LanguageServer
