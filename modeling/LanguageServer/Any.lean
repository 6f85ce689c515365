import LanguageServer.Codec.Union

/-!
# Values of any kind

`LspAny` is the value a protocol type leaves open.  It tells signed 32-bit integers, unsigned 32-bit
integers and doubles apart; an integer that fits neither word becomes a double.  Two integers are
equal when their values are, whichever word holds them.

* `LspAny.ofJson` and `LspAny.toJson` turn documents into values and back;
* `LspAny.codec` reads a document as it stands, the last member of a repeated key staying, and
  writes a value as any other type is written.
-/

namespace LanguageServer

open Json (Source)

/-- A value of any kind.  The members of an object ascend by key. -/
inductive LspAny where
  | null
  | bool (value : Bool)
  | integer (value : Int32)
  | uinteger (value : UInt32)
  | decimal (value : Float)
  | string (value : String)
  | array (items : List LspAny)
  | object (members : List (String × LspAny))
deriving Inhabited

namespace LspAny

/-- An integer in the first word that holds it, or else as the nearest double. -/
def ofInt (n : Int) : LspAny :=
  if -0x80000000 ≤ n ∧ n < 0x80000000 then .integer (Int32.ofInt n)
  else if 0 ≤ n ∧ n < 0x100000000 then .uinteger (UInt32.ofNat n.toNat)
  else .decimal (Json.Number.nearestDouble n)

/-- A signed word. -/
def ofInt64 (n : Int64) : LspAny := ofInt n.toInt

/-- An unsigned word. -/
def ofUInt64 (n : UInt64) : LspAny := ofInt n.toNat

/-- A number of a document: an integer is taken as a signed word if it is one. -/
def ofNumber : Json.Number → LspAny
  | .int n =>
    if n < 0x8000000000000000 then ofInt64 (Int64.ofInt n) else ofUInt64 (UInt64.ofNat n.toNat)
  | .float f => .decimal f

/-- A number that is read: an integer comes as an unsigned word unless it is negative. -/
def readNumber : Json.Number → LspAny
  | .int n => if 0 ≤ n then ofUInt64 (UInt64.ofNat n.toNat) else ofInt64 (Int64.ofInt n)
  | .float f => .decimal f

mutual

/-- A document as a value. -/
def ofJson : Json → LspAny
  | .null => .null
  | .bool b => .bool b
  | .number n => ofNumber n
  | .string s => .string s
  | .array items => .array (ofItems items)
  | .object members => .object (ofMembers members)

/-- Documents as values. -/
def ofItems : List Json → List LspAny
  | [] => []
  | j :: rest => ofJson j :: ofItems rest

/-- Members of a document as members of a value. -/
def ofMembers : List (String × Json) → List (String × LspAny)
  | [] => []
  | (k, j) :: rest => (k, ofJson j) :: ofMembers rest

end

mutual

/-- A value as a document; a double that is not finite becomes null. -/
def toJson : LspAny → Json
  | .null => .null
  | .bool b => .bool b
  | .integer n => .int n.toInt
  | .uinteger n => .int n.toNat
  | .decimal f => .ofFloat f
  | .string s => .string s
  | .array items => .array (itemsToJson items)
  | .object members => .object (membersToJson members)

/-- Values as documents. -/
def itemsToJson : List LspAny → List Json
  | [] => []
  | v :: rest => toJson v :: itemsToJson rest

/-- Members of a value as members of a document. -/
def membersToJson : List (String × LspAny) → List (String × Json)
  | [] => []
  | (k, v) :: rest => (k, toJson v) :: membersToJson rest

end

mutual

/-- Read a document as it stands. -/
def ofSource : Source → Decoded LspAny
  | .null _ => .ok .null
  | .bool _ b => .ok (.bool b)
  | .number _ n => .ok (readNumber n)
  | .string _ s => .ok (.string s)
  | .array _ items broken => do
    let vs ← ofSources items
    Codec.unlessBroken broken (.array vs)
  | .object _ members broken => do
    let ms ← ofEntries members
    Codec.unlessBroken broken (.object (Members.ofList ms))
  | .fault _ _ f => .error (.ofFault f)

/-- Read items as they stand. -/
def ofSources : List Source → Decoded (List LspAny)
  | [] => .ok []
  | s :: rest => do
    let v ← ofSource s
    let vs ← ofSources rest
    .ok (v :: vs)

/-- Read members as they stand, in their order. -/
def ofEntries : List (String × Json.KeyPlace × Source) → Decoded (List (String × LspAny))
  | [] => .ok []
  | (k, _, s) :: rest => do
    let v ← ofSource s
    let vs ← ofEntries rest
    .ok ((k, v) :: vs)

end

mutual

/-- Write a value: the items of an array one after the other, and the members of an object each to
its place among those before it. -/
def write : LspAny → Json
  | .null => Codec.unit.encode ()
  | .bool b => Codec.bool.encode b
  | .integer n => Codec.int32.encode n
  | .uinteger n => Codec.uint32.encode n
  | .decimal f => Codec.float.encode f
  | .string s => Codec.string.encode s
  | .array items => .array (writeItems [] items)
  | .object members => .object (writeMembers [] members)

/-- Write items behind those that are written already. -/
def writeItems (written : List Json) : List LspAny → List Json
  | [] => written
  | v :: rest => writeItems (written ++ [write v]) rest

/-- Write members among those that are written already. -/
def writeMembers (written : Members Json) : List (String × LspAny) → Members Json
  | [] => written
  | (k, v) :: rest => writeMembers (Members.insert k (write v) written) rest

end

/-- The codec of values of any kind. -/
def codec : Codec LspAny := ⟨write, ofSource⟩

mutual

/-- Equality of values; integers are compared as numbers. -/
def beq : LspAny → LspAny → Bool
  | .null, .null => true
  | .bool a, .bool b => a == b
  | .integer a, .integer b => a == b
  | .uinteger a, .uinteger b => a == b
  | .integer a, .uinteger b => a.toInt == (b.toNat : Int)
  | .uinteger a, .integer b => (a.toNat : Int) == b.toInt
  | .decimal a, .decimal b => a == b
  | .string a, .string b => a == b
  | .array a, .array b => beqItems a b
  | .object a, .object b => beqMembers a b
  | _, _ => false

/-- Equality of lists of values. -/
def beqItems : List LspAny → List LspAny → Bool
  | [], [] => true
  | a :: as, b :: bs => beq a b && beqItems as bs
  | _, _ => false

/-- Equality of members, in order. -/
def beqMembers : List (String × LspAny) → List (String × LspAny) → Bool
  | [], [] => true
  | (k, a) :: as, (l, b) :: bs => k == l && beq a b && beqMembers as bs
  | _, _ => false

end

instance : BEq LspAny := ⟨beq⟩

/-- Whether the value is null. -/
def isNull : LspAny → Bool
  | .null => true
  | _ => false

/-- The string, if the value is one. -/
def string? : LspAny → Option String
  | .string s => some s
  | _ => none

/-- The boolean, if the value is one. -/
def bool? : LspAny → Option Bool
  | .bool b => some b
  | _ => none

/-- The member of an object under a key. -/
def get? (key : String) : LspAny → Option LspAny
  | .object members => Members.get? key members
  | _ => none

/-- The value that a typed one is written as. -/
def ofTyped {α : Type} (c : Codec α) (a : α) : LspAny := ofJson (c.encode a)

/-- Read a typed value from this one. -/
def decodeAs {α : Type} (c : Codec α) (v : LspAny) : Decoded α := c.ofJson v.toJson

end LspAny

end LanguageServer
