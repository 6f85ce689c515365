/-!
# Faults of a text

A text that is no document is refused with a `SyntaxError` and the place where it shows.  The place
is a count of bytes, up to and including the offending one; `Fault.message` gives it as a line and
a column.
-/

namespace LanguageServer

namespace Json

/-- What is wrong with a text. -/
inductive SyntaxError where
  | eofValue
  | eofList
  | eofObject
  | eofString
  | expectedValue
  /-- A comma before any item of an array; `closes` says that the bracket follows it. -/
  | leadingComma (closes : Bool)
  | expectedIdent
  | expectedColon
  | expectedListCommaOrEnd
  | expectedObjectCommaOrEnd
  | keyMustBeString
  | trailingComma
  | trailingCharacters
  | invalidNumber
  | numberOutOfRange
  | invalidEscape
  | controlCharacter
  | loneSurrogate
  | unexpectedEndOfHexEscape
  | recursionLimit
deriving DecidableEq, Repr, Inhabited

/-- The wording of an error. -/
def SyntaxError.message : SyntaxError → String
  | .eofValue => "EOF while parsing a value"
  | .eofList => "EOF while parsing a list"
  | .eofObject => "EOF while parsing an object"
  | .eofString => "EOF while parsing a string"
  | .expectedValue => "expected value"
  | .leadingComma _ => "expected value"
  | .expectedIdent => "expected ident"
  | .expectedColon => "expected `:`"
  | .expectedListCommaOrEnd => "expected `,` or `]`"
  | .expectedObjectCommaOrEnd => "expected `,` or `\x7d`"
  | .keyMustBeString => "key must be a string"
  | .trailingComma => "trailing comma"
  | .trailingCharacters => "trailing characters"
  | .invalidNumber => "invalid number"
  | .numberOutOfRange => "number out of range"
  | .invalidEscape => "invalid escape"
  | .controlCharacter => "control character (\\u0000-\\u001F) found while parsing a string"
  | .loneSurrogate => "lone leading surrogate in hex escape"
  | .unexpectedEndOfHexEscape => "unexpected end of hex escape"
  | .recursionLimit => "recursion limit exceeded"

/-- An error and the number of bytes of the text up to it. -/
structure Fault where
  error : SyntaxError
  offset : Nat
deriving DecidableEq, Repr, Inhabited

/-- The fault of an array that should close where `f` shows. -/
def Fault.atClose (f : Fault) : Fault :=
  match f.error with
  | .expectedListCommaOrEnd => { f with error := .trailingCharacters }
  | .eofValue => { f with error := .trailingCharacters }
  | .leadingComma closes =>
    { f with error := if closes then .trailingComma else .trailingCharacters }
  | _ => f

/-- The line of a byte offset, counted from one, and the bytes of that line before it. -/
def lineColumn (text : String) (offset : Nat) : Nat × Nat :=
  (text.toUTF8.toList.take offset).foldl
    (fun (place : Nat × Nat) (byte : UInt8) =>
      if byte = 10 then (place.1 + 1, 0) else (place.1, place.2 + 1)) (1, 0)

/-- The wording of a line and a column. -/
def placeWords (line column : Nat) : String :=
  " at line " ++ toString line ++ " column " ++ toString column

/-- The wording of a place in a text. -/
def placeMessage (text : String) (offset : Nat) : String :=
  let (line, column) := lineColumn text offset
  placeWords line column

/-- The wording of a fault, with its place in the text. -/
def Fault.message (text : String) (f : Fault) : String :=
  f.error.message ++ placeMessage text f.offset

end Json

end LanguageServer
