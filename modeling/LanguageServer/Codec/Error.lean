import LanguageServer.Json.Source
import LanguageServer.Json.Printer
import LanguageServer.Text.Digits
import LanguageServer.Text.Quoted

/-!
# Why a document does not decode

`Problem` lists the causes, `DecodeError` adds the place in the text where there is one, and
`DecodeError.message` words the two.
-/

namespace LanguageServer

/-- What was found in place of something else. -/
inductive Found where
  | null
  | bool (value : Bool)
  | number (value : Json.Number)
  | string (value : String)
  | sequence
  | map

/-- The wording of what was found. -/
def Found.message : Found → String
  | .null => "null"
  | .bool true => "boolean `true`"
  | .bool false => "boolean `false`"
  | .number (.int n) => "integer `" ++ Json.Number.renderInt n ++ "`"
  | .number (.float f) => "floating point `" ++ Json.Number.renderFloat f ++ "`"
  | .string s => "string " ++ Text.quoted s
  | .sequence => "sequence"
  | .map => "map"

/-- Why a document does not decode. -/
inductive Problem where
  /-- The text is no document. -/
  | malformed (error : Json.SyntaxError)
  /-- A node is of the wrong kind. -/
  | wrongType (found : Found) (wanted : String)
  /-- A node is of the right kind and out of its range. -/
  | wrongValue (found : Found) (wanted : String)
  /-- An array has too few or too many items. -/
  | wrongLength (length : Nat) (wanted : String)
  /-- A member without which the record does not exist. -/
  | missingField (key : String)
  /-- A member that stands twice. -/
  | duplicateField (key : String)
  /-- A name that is none of those known. -/
  | unknownVariant (name : String) (known : List String)
  /-- A number that is none of the enumeration's. -/
  | unknownNumber (enumeration : String) (number : Nat)
  /-- None of the alternatives tried one after the other. -/
  | noAlternative (union : String)
  /-- A value that none of a union's rules admits. -/
  | unfit (wanted : String) (found : Json)
  /-- A value that has to be a boolean. -/
  | notBoolean (what : String) (found : Json)
  /-- An integer outside the 32-bit words. -/
  | outOfRange (number : Int)
  /-- The length of a replaced range, without the range. -/
  | lengthWithoutRange
  /-- A message that is no object. -/
  | messageNotObject
  /-- An error of another reading, in its words, with the line and the column that they end in. -/
  | reported (words : String) (place : Option (Nat × Nat))
  /-- A text that has to be one character. -/
  | notACharacter (text : String)

/-- A line and a column at the end of some words, and the words before them. -/
def placeAtEnd? (words : String) : Option (String × Nat × Nat) := do
  let (column, before) ← Text.numberAtEnd? "" words.toList
  let (line, before) ← Text.numberAtEnd? " column " before
  let before ← Text.dropEnd? " at line " before
  some (String.ofList before, line, column)

/-- The problem of another reading by its words. Lines count from one, so line zero is no place. -/
def Problem.ofWords (words : String) : Problem :=
  match placeAtEnd? words with
  | none => .reported words none
  | some (before, 0, _) => .reported before none
  | some (before, line, column) => .reported before (some (line, column))

/-- Names between back quotes, as a choice. -/
def choiceMessage (names : List String) : String :=
  match names.map fun n => "`" ++ n ++ "`" with
  | [] => "there are no variants"
  | [a] => "expected " ++ a
  | [a, b] => "expected " ++ a ++ " or " ++ b
  | more => "expected one of " ++ ", ".intercalate more

/-- The wording of a problem, without a place. -/
def Problem.message : Problem → String
  | .malformed e => e.message
  | .wrongType found wanted => "invalid type: " ++ found.message ++ ", expected " ++ wanted
  | .wrongValue found wanted => "invalid value: " ++ found.message ++ ", expected " ++ wanted
  | .wrongLength n wanted => "invalid length " ++ toString n ++ ", expected " ++ wanted
  | .missingField key => "missing field `" ++ key ++ "`"
  | .duplicateField key => "duplicate field `" ++ key ++ "`"
  | .unknownVariant name known => "unknown variant `" ++ name ++ "`, " ++ choiceMessage known
  | .unknownNumber enumeration n => "Invalid " ++ enumeration ++ ": " ++ toString n
  | .noAlternative union => "data did not match any variant of untagged enum " ++ union
  | .unfit wanted found => "expected " ++ wanted ++ ", found " ++ found.render
  | .notBoolean what found => what ++ " must be a boolean, found " ++ found.render
  | .outOfRange n => "integer " ++ Json.Number.renderInt n ++ " out of range"
  | .lengthWithoutRange => "rangeLength given without a range in a content change"
  | .messageNotObject => "a JSON-RPC message must be an object"
  | .reported words _ => words
  | .notACharacter text => "invalid value: string " ++ Text.quoted text ++ ", expected a character"

/-- A problem, and the bytes of the text up to it when there is a text. -/
structure DecodeError where
  problem : Problem
  offset : Option Nat

namespace DecodeError

/-- A fault of the text. -/
def ofFault (f : Json.Fault) : DecodeError := ⟨.malformed f.error, some f.offset⟩

/-- A problem that belongs to no place yet. -/
def unplaced (p : Problem) : DecodeError := ⟨p, none⟩

/-- The error at the given place, unless it has one. -/
def placedAt (e : DecodeError) (stop : Option Nat) : DecodeError :=
  match e.offset with
  | some _ => e
  | none => { e with offset := stop }

/-- The error without its place. -/
def withoutPlace (e : DecodeError) : DecodeError := { e with offset := none }

/-- The wording of an error, with its place: the one that another reading has reported, or else
that in the text. -/
def message (text : String) (e : DecodeError) : String :=
  match e.problem, e.offset with
  | .reported words (some (line, column)), _ => words ++ Json.placeWords line column
  | p, some offset => p.message ++ Json.placeMessage text offset
  | p, none => p.message

/-- The wording of an error in a value, which has no places of its own. -/
def words (e : DecodeError) : String := e.message ""

end DecodeError

/-- What a reader gives. -/
abbrev Decoded (α : Type) := Except DecodeError α

namespace Json.Source

/-- What a node is, in place of something else. -/
def found : Source → Found
  | .null _ => .null
  | .bool _ b => .bool b
  | .number _ n => .number n
  | .string _ s => .string s
  | .array _ _ _ => .sequence
  | .object _ _ _ => .map
  | .fault _ _ _ => .null

/-- The offset of a refused node: leaves have been read, arrays and objects have not. -/
def refusalOffset : Source → Option Nat
  | .array p _ _ => p.start?
  | .object p _ _ => p.start?
  | s => s.place.stop?

/-- Refuse a node that is not of the wanted kind; a node that cannot be read shows its fault. -/
def refuse {α : Type} (wanted : String) : Source → Decoded α
  | .fault _ _ f => .error (.ofFault f)
  | s => .error ⟨.wrongType s.found wanted, s.refusalOffset⟩

/-- Refuse a node after looking into it, so that one that nests too deep shows that fault. -/
def refuseOpened {α : Type} (wanted : String) (s : Source) : Decoded α :=
  match s with
  | .array _ [] (some f) =>
    if f.error = .recursionLimit then .error (.ofFault f) else s.refuse wanted
  | .object _ [] (some f) =>
    if f.error = .recursionLimit then .error (.ofFault f) else s.refuse wanted
  | _ => s.refuse wanted

/-- The value that a source holds. -/
def value (s : Source) : Decoded Json := s.toJson.mapError DecodeError.ofFault

/-- The content of a source set aside. -/
def aside (s : Source) : Decoded Source := s.setAside.mapError DecodeError.ofFault

end Json.Source

end LanguageServer
