import LanguageServer.Codec.Record
import LanguageServer.Codec.Choice

/-!
# Unions

Three ways to tell the alternatives of a union apart.

* `Codec.byValue`: the document is read whole and a rule looks at it.
* `Codec.untagged`: alternatives are tried one after the other.
* `Codec.tagged`: a member, or the first item of an array, names the alternative.
-/

namespace LanguageServer

open Json (Source)

namespace Codec

variable {α : Type}

/-- Read the document whole and decide by its value. -/
def byValue (encode : α → Json) (read : Json → Decoded α) : Codec α where
  encode := encode
  decode s := do
    let j ← s.value
    (read j).mapError DecodeError.withoutPlace

/-- The first success of several readers. -/
def firstOf (readers : List (Source → Decoded α)) (s : Source) : Option α :=
  readers.findSome? fun read => (read s).toOption

/-- Try the alternatives in their order. -/
def untagged (union : String) (encode : α → Json) (readers : List (Source → Decoded α)) :
    Codec α where
  encode := encode
  decode s := do
    let content ← s.aside
    match firstOf readers content with
    | some a => .ok a
    | none => .error (.unplaced (.noAlternative union))

/-- The reader that a tag names. -/
def readerOf (readers : List (String × (Source → Decoded α))) :
    Source → Decoded (Source → Decoded α)
  | .string p name =>
    match readers.find? fun r => r.1 = name with
    | some r => .ok r.2
    | none => .error ⟨.unknownVariant name (readers.map (·.1)), p.stop?⟩
  | s => s.refuse "variant identifier"

/-- Take the tag from members and set the others aside, in the order of the document. -/
def splitTag (tag : String) (readers : List (String × (Source → Decoded α))) :
    Entries → Option (Source → Decoded α) → Decoded (Option (Source → Decoded α) × Entries)
  | [], chosen => .ok (chosen, [])
  | (k, p, s) :: rest, chosen =>
    if k = tag then
      match chosen with
      | some _ => .error ⟨.duplicateField tag, p.stop⟩
      | none => do
        let reader ← readerOf readers s
        splitTag tag readers rest (some reader)
    else do
      let content ← s.aside
      let (chosen, others) ← splitTag tag readers rest chosen
      .ok (chosen, (k, Json.KeyPlace.none, content) :: others)

/-- Read by the tag. -/
def decodeTagged (union tag : String) (readers : List (String × (Source → Decoded α))) :
    Source → Decoded α
  | .object place entries broken =>
    let result : Decoded α := do
      let (chosen, others) ← splitTag tag readers entries none
      -- The alternative is read only when the whole object is there.
      unlessBroken broken ()
      match chosen with
      | some reader => reader (.object .aside others none)
      | none => .error (.unplaced (.missingField tag))
    result.mapError (·.placedAt place.stop?)
  | .array place items broken =>
    let result : Decoded α := do
      match items with
      | [] =>
        unlessBroken broken ()
        .error (.unplaced (.missingField tag))
      | first :: rest =>
        -- The first item is the tag, the others are the fields of the alternative.
        let reader ← readerOf readers first
        let content ← (Source.array place rest broken).aside
        reader content
    result.mapError (·.placedAt place.stop?)
  | s => s.refuse ("internally tagged enum " ++ union)

/-- A union whose alternatives are told by the member `tag`. -/
def tagged (union tag : String) (encode : α → String × List (String × Json))
    (readers : List (String × (Source → Decoded α))) : Codec α where
  encode a :=
    let (name, members) := encode a
    .ofPairs ((tag, .string name) :: members)
  decode := decodeTagged union tag readers

end Codec

end LanguageServer
