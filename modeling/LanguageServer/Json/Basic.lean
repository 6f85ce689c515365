import LanguageServer.Dictionary
import LanguageServer.Json.Number

/-!
# Documents as values

`Json` is a document read whole.  The members of an object are kept in the order of their keys, and
a key occurs once.

`Json.WellFormed` says that of every object of a document, that its integers are 64-bit words and
that its doubles are finite.  Equality is `==`: the two zero doubles are equal.
-/

namespace LanguageServer

/-- A document as a value. -/
inductive Json where
  | null
  | bool (value : Bool)
  | number (value : Json.Number)
  | string (value : String)
  | array (items : List Json)
  | object (members : List (String × Json))
deriving Inhabited

namespace Json

/-- An integer. -/
abbrev int (n : Int) : Json := .number (.int n)

/-- A double as a document: not-a-number and the infinities have no notation and become null. -/
def ofFloat (f : Float) : Json :=
  match Number.ofFloat? f with
  | some n => .number n
  | none => .null

theorem ofFloat_of_isFinite {f : Float} (h : f.isFinite = true) :
    ofFloat f = .number (.float f) := by
  rw [ofFloat, Number.ofFloat?, if_pos h]

theorem ofFloat_of_not_isFinite {f : Float} (h : ¬f.isFinite = true) : ofFloat f = .null := by
  rw [ofFloat, Number.ofFloat?, if_neg h]

/-- An object from pairs in any order. -/
def ofPairs (pairs : List (String × Json)) : Json := .object (Members.ofList pairs)

/-- The member of an object under a key; `none` when the document is no object. -/
def member? (key : String) : Json → Option Json
  | .object members => Members.get? key members
  | _ => none

/-- Whether the document is null. -/
def isNull : Json → Bool
  | .null => true
  | _ => false

/-- Whether the document is an object. -/
def isObject : Json → Bool
  | .object _ => true
  | _ => false

mutual

/-- Equality of documents. -/
def beq : Json → Json → Bool
  | .null, .null => true
  | .bool a, .bool b => a == b
  | .number a, .number b => a == b
  | .string a, .string b => a == b
  | .array a, .array b => beqItems a b
  | .object a, .object b => beqMembers a b
  | _, _ => false

/-- Equality of lists of documents. -/
def beqItems : List Json → List Json → Bool
  | [], [] => true
  | a :: as, b :: bs => beq a b && beqItems as bs
  | _, _ => false

/-- Equality of members, in order. -/
def beqMembers : List (String × Json) → List (String × Json) → Bool
  | [], [] => true
  | (k, a) :: as, (l, b) :: bs => k == l && beq a b && beqMembers as bs
  | _, _ => false

end

instance : BEq Json := ⟨beq⟩

/-- Every object has ascending keys, every integer is a 64-bit word, every double is finite. -/
inductive WellFormed : Json → Prop where
  | null : WellFormed .null
  | bool (b : Bool) : WellFormed (.bool b)
  | int (n : Int) (low : Number.minInt ≤ n) (high : n ≤ Number.maxInt) : WellFormed (.int n)
  | float (f : Float) (finite : f.isFinite = true) : WellFormed (.number (.float f))
  | string (s : String) : WellFormed (.string s)
  | array (items : List Json) (each : ∀ j ∈ items, WellFormed j) : WellFormed (.array items)
  | object (members : List (String × Json)) (ascending : Members.Ascending members)
      (each : ∀ m ∈ members, WellFormed m.2) : WellFormed (.object members)

end Json

end LanguageServer
