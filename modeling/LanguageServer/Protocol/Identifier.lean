import LanguageServer.Any

/-!
# Identifiers, tokens and resource names

Requests are told apart by identifiers and progress by tokens; both are an integer or a string.
Resources are named by strings that are never normalised.
-/

namespace LanguageServer

open Json (Source)

/-- A 32-bit integer or a string. -/
inductive IntOrString where
  | int (value : Int32)
  | string (value : String)
deriving DecidableEq, Repr

namespace IntOrString

/-- How an integer or a string is written and read. -/
def codec : Codec IntOrString where
  encode
    | .int n => .int n.toInt
    | .string s => .string s
  decode
    | .number p (.int n) =>
      if -0x80000000 ≤ n ∧ n < 0x80000000 then .ok (.int (Int32.ofInt n))
      else .error ⟨.outOfRange n, p.stop?⟩
    | .string _ s => .ok (.string s)
    | s => s.refuseOpened "a 32-bit integer or a string"

/-- The integer in decimal, or the string itself. -/
def text : IntOrString → String
  | .int n => Json.Number.renderInt n.toInt
  | .string s => s

/-- Integers come before strings; strings are compared by their characters. -/
def compare : IntOrString → IntOrString → Ordering
  | .int a, .int b => Ord.compare a.toInt b.toInt
  | .int _, .string _ => .lt
  | .string _, .int _ => .gt
  | .string a, .string b => Ord.compare a b

end IntOrString

/-- A boolean or a string. -/
inductive BoolOrString where
  | bool (value : Bool)
  | string (value : String)
deriving DecidableEq, Repr

def BoolOrString.codec : Codec BoolOrString where
  encode
    | .bool b => .bool b
    | .string s => .string s
  decode
    | .bool _ b => .ok (.bool b)
    | .string _ s => .ok (.string s)
    | s => s.refuseOpened "a boolean or a string"

/-- The identifier of a request. -/
abbrev Id := IntOrString

/-- A token under which progress is reported. -/
abbrev ProgressToken := IntOrString

/-- The name of a resource. -/
abbrev Uri := String

/-- The name of a document. -/
abbrev DocumentUri := String

end LanguageServer
