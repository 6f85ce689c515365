import LanguageServer.Json.Basic
import LanguageServer.Json.Fault

/-!
# Documents as they stand

A reader of records sees a document either as a text, where keys may repeat and where a fault counts
only once reading gets to it, or as a value, or as content set aside from one of the two.  `Source`
covers all three: its nodes say by their `Place` where they come from, and a text that cannot be
read further holds a `fault` at that point.

* `Source.ofJson` shows a value as a source;
* `Source.toJson` reads a source whole: the last member of a key stays, the first fault wins;
* `Source.setAside` reads a source whole and keeps repeated keys.

A member of an object that nobody asks for is passed over by coarser rules than those of reading;
`KeyPlace.passing` holds the fault of passing over it, if there is one.
-/

namespace LanguageServer

namespace Json

/-- Where a node stands: between two byte offsets of a text, in a value, or in content set aside. -/
inductive Place where
  | text (start stop : Nat)
  | value
  | aside
deriving DecidableEq, Repr, Inhabited

/-- The end of a node's text. -/
def Place.stop? : Place → Option Nat
  | .text _ stop => some stop
  | _ => none

/-- The start of a node's text. -/
def Place.start? : Place → Option Nat
  | .text start _ => some start
  | _ => none

/-- The end of a key in its text, and the fault of passing over the value that follows. -/
structure KeyPlace where
  stop : Option Nat
  passing : Option Fault
deriving DecidableEq, Repr, Inhabited

/-- A key with no text behind it. -/
def KeyPlace.none : KeyPlace := ⟨Option.none, Option.none⟩

/-- A document as it stands. `broken` is the fault met after the last item or member; a `fault` is a
leaf that cannot be read, with the offset where it starts and the character that stands there. -/
inductive Source where
  | null (place : Place)
  | bool (place : Place) (value : Bool)
  | number (place : Place) (value : Number)
  | string (place : Place) (value : String)
  | array (place : Place) (items : List Source) (broken : Option Fault)
  | object (place : Place) (members : List (String × KeyPlace × Source)) (broken : Option Fault)
  | fault (start : Nat) (letter : Option Char) (fault : Fault)
deriving Inhabited

namespace Source

/-- Where the node stands. -/
def place : Source → Place
  | .null p => p
  | .bool p _ => p
  | .number p _ => p
  | .string p _ => p
  | .array p _ _ => p
  | .object p _ _ => p
  | .fault start _ f => .text start f.offset

mutual

/-- A value as a source whose nodes stand at `place`. -/
def ofJson (place : Place) : Json → Source
  | .null => .null place
  | .bool b => .bool place b
  | .number n => .number place n
  | .string s => .string place s
  | .array items => .array place (ofItems place items) none
  | .object members => .object place (ofMembers place members) none

/-- Values as sources. -/
def ofItems (place : Place) : List Json → List Source
  | [] => []
  | j :: rest => ofJson place j :: ofItems place rest

/-- The members of a value as members of a source. -/
def ofMembers (place : Place) : List (String × Json) → List (String × KeyPlace × Source)
  | [] => []
  | (k, j) :: rest => (k, KeyPlace.none, ofJson place j) :: ofMembers place rest

end

mutual

/-- The value that a source holds, or its first fault. -/
def toJson : Source → Except Fault Json
  | .null _ => .ok .null
  | .bool _ b => .ok (.bool b)
  | .number _ n => .ok (.number n)
  | .string _ s => .ok (.string s)
  | .array _ items broken => do
    let js ← itemsToJson items
    match broken with
    | some f => .error f
    | none => .ok (.array js)
  | .object _ members broken => do
    let ms ← membersToJson members
    match broken with
    | some f => .error f
    | none => .ok (.object (Members.ofList ms))
  | .fault _ _ f => .error f

/-- The values of items. -/
def itemsToJson : List Source → Except Fault (List Json)
  | [] => .ok []
  | s :: rest => do
    let j ← toJson s
    let js ← itemsToJson rest
    .ok (j :: js)

/-- The values of members, in the order of the source. -/
def membersToJson : List (String × KeyPlace × Source) → Except Fault (List (String × Json))
  | [] => .ok []
  | (k, _, s) :: rest => do
    let j ← toJson s
    let ms ← membersToJson rest
    .ok ((k, j) :: ms)

end

mutual

/-- The content of a source set aside for a later reading, or its first fault. -/
def setAside : Source → Except Fault Source
  | .null _ => .ok (.null .aside)
  | .bool _ b => .ok (.bool .aside b)
  | .number _ n => .ok (.number .aside n)
  | .string _ s => .ok (.string .aside s)
  | .array _ items broken => do
    let kept ← setAsideItems items
    match broken with
    | some f => .error f
    | none => .ok (.array .aside kept none)
  | .object _ members broken => do
    let kept ← setAsideMembers members
    match broken with
    | some f => .error f
    | none => .ok (.object .aside kept none)
  | .fault _ _ f => .error f

/-- The content of items. -/
def setAsideItems : List Source → Except Fault (List Source)
  | [] => .ok []
  | s :: rest => do
    let kept ← setAside s
    let others ← setAsideItems rest
    .ok (kept :: others)

/-- The content of members; keys may repeat. -/
def setAsideMembers :
    List (String × KeyPlace × Source) → Except Fault (List (String × KeyPlace × Source))
  | [] => .ok []
  | (k, _, s) :: rest => do
    let kept ← setAside s
    let others ← setAsideMembers rest
    .ok ((k, KeyPlace.none, kept) :: others)

end

mutual

/-- How deep arrays and objects nest. -/
def depth : Source → Nat
  | .array _ items _ => itemsDepth items + 1
  | .object _ members _ => membersDepth members + 1
  | _ => 0

/-- The greatest depth of items. -/
def itemsDepth : List Source → Nat
  | [] => 0
  | s :: rest => max (depth s) (itemsDepth rest)

/-- The greatest depth of members. -/
def membersDepth : List (String × KeyPlace × Source) → Nat
  | [] => 0
  | (_, _, s) :: rest => max (depth s) (membersDepth rest)

end

end Source

end Json

end LanguageServer
