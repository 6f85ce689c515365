import LanguageServer.Codec.Error
import LanguageServer.Json.Reader

/-!
# Codecs

A `Codec` writes values of a type as documents and reads them back. It reads from a `Source`, so
that one codec serves texts, values and content set aside; `Codec.ofJson` and `Codec.ofText` are the
two ways in.

This file holds the codecs of leaves, lists, options, pairs and dictionaries.
-/

namespace LanguageServer

open Json (Source)

/-- How values of a type are written and read. -/
structure Codec (α : Type) where
  encode : α → Json
  decode : Source → Decoded α

namespace Codec

variable {α β : Type}

/-- Decode a value. -/
def ofJson (c : Codec α) (j : Json) : Decoded α := c.decode (Source.ofJson .value j)

/-- Decode a text; what stands behind the document is refused after the document has decoded. -/
def ofText (c : Codec α) (text : String) : Decoded α := do
  let d := Json.Document.ofText text
  let a ← c.decode d.source
  match d.excess with
  | some f => .error (.ofFault f)
  | none => .ok a

/-- The codec of a type through another one with the same documents. -/
def map (c : Codec α) (forth : α → β) (back : β → α) : Codec β :=
  ⟨fun b => c.encode (back b), fun s => (c.decode s).map forth⟩

/-- Any document. -/
def json : Codec Json := ⟨id, Source.value⟩

/-- Null, for the one value of a type that says nothing. -/
def unit : Codec Unit where
  encode _ := .null
  decode
    | .null _ => .ok ()
    | s => s.refuse "unit"

/-- Booleans. -/
def bool : Codec Bool where
  encode b := .bool b
  decode
    | .bool _ b => .ok b
    | s => s.refuse "a boolean"

/-- Strings. -/
def string : Codec String where
  encode s := .string s
  decode
    | .string _ s => .ok s
    | s => s.refuse "a string"

/-- Unsigned 32-bit integers. -/
def uint32 : Codec UInt32 where
  encode n := .int n.toNat
  decode
    | .number p (.int n) =>
      if 0 ≤ n ∧ n < 0x100000000 then .ok (UInt32.ofNat n.toNat)
      else .error ⟨.wrongValue (.number (.int n)) "u32", p.stop?⟩
    | s => s.refuse "u32"

/-- Signed 32-bit integers. -/
def int32 : Codec Int32 where
  encode n := .int n.toInt
  decode
    | .number p (.int n) =>
      if -0x80000000 ≤ n ∧ n < 0x80000000 then .ok (Int32.ofInt n)
      else .error ⟨.wrongValue (.number (.int n)) "i32", p.stop?⟩
    | s => s.refuse "i32"

/-- Doubles; integers are read as the nearest double. -/
def float : Codec Float where
  encode f := .ofFloat f
  decode
    | .number _ (.int n) => .ok (Json.Number.nearestDouble n)
    | .number _ (.float f) => .ok f
    | s => s.refuse "f64"

/-- Read items one after the other. -/
def decodeItems (c : Codec α) : List Source → Decoded (List α)
  | [] => .ok []
  | s :: rest => do
    let a ← c.decode s
    let as ← decodeItems c rest
    .ok (a :: as)

/-- Read the values of members one after the other. -/
def decodeMembers (c : Codec α) :
    List (String × Json.KeyPlace × Source) → Decoded (List (String × α))
  | [] => .ok []
  | (k, _, s) :: rest => do
    let a ← c.decode s
    let as ← decodeMembers c rest
    .ok ((k, a) :: as)

/-- A result that counts only if no fault follows. -/
def unlessBroken (broken : Option Json.Fault) (a : α) : Decoded α :=
  match broken with
  | some f => .error (.ofFault f)
  | none => .ok a

/-- Arrays. -/
def list (c : Codec α) : Codec (List α) where
  encode as := .array (as.map c.encode)
  decode
    | .array _ items broken => do
      let as ← c.decodeItems items
      unlessBroken broken as
    | s => s.refuse "a sequence"

/-- Objects whose members are all of one kind. -/
def dictionary (c : Codec α) : Codec (Dictionary α) where
  encode d := .object (d.members.map fun m => (m.1, c.encode m.2))
  decode
    | .object _ members broken => do
      let pairs ← c.decodeMembers members
      unlessBroken broken (Dictionary.ofList pairs)
    | s => s.refuse "a map"

/-- Null or a value. -/
def option (c : Codec α) : Codec (Option α) where
  encode
    | none => .null
    | some a => c.encode a
  decode
    | .null _ => .ok none
    -- A word that begins like null is read as null.
    | .fault _ (some 'n') f => .error (.ofFault f)
    | s => (c.decode s).map some

/-- Arrays of two items. -/
def pair (c : Codec α) : Codec (α × α) where
  encode p := .array [c.encode p.1, c.encode p.2]
  decode
    | .array _ items broken =>
      let short (n : Nat) : Decoded (α × α) := do
        unlessBroken broken ()
        .error (.unplaced (.wrongLength n "an array of length 2"))
      match items with
      | [] => short 0
      | a :: rest => do
        let a ← c.decode a
        match rest with
        | [] => short 1
        | b :: rest => do
          let b ← c.decode b
          unlessBroken broken ()
          if rest.isEmpty then .ok (a, b)
          else .error (.unplaced (.wrongLength (rest.length + 2) "fewer elements in array"))
    | s => s.refuse "an array of length 2"

end Codec

end LanguageServer
