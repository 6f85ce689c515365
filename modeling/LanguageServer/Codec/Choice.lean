import LanguageServer.Codec.Basic

/-!
# Enumerations

An `Enumeration` is a type of finitely many values, each with a name; it is written as that name.
A `Numbering` is one whose values are written as numbers.

A name is also read from an object with that one key and the value null.
-/

namespace LanguageServer

open Json (Source)

/-- A type whose values are written as names. -/
structure Enumeration (α : Type) where
  values : List α
  name : α → String

namespace Enumeration

variable {α : Type}

/-- The value of a name. -/
def ofName? (e : Enumeration α) (name : String) : Option α :=
  e.values.find? fun a => e.name a = name

/-- The names, in order. -/
def names (e : Enumeration α) : List String := e.values.map e.name

/-- The value of a name, or the problem that it is unknown. -/
def ofName (e : Enumeration α) (name : String) (stop : Option Nat) : Decoded α :=
  match e.ofName? name with
  | some a => .ok a
  | none => .error ⟨.unknownVariant name e.names, stop⟩

/-- A leaf that cannot be read, where only a string or an object will do: what begins otherwise is
refused at its first character. -/
def refuseFault (start : Nat) (letter : Option Char) (f : Json.Fault) : DecodeError :=
  match letter with
  | none => .ofFault f
  | some '"' => .ofFault f
  | some _ => .ofFault ⟨.expectedValue, start + 1⟩

/-- Read a name. -/
def decode (e : Enumeration α) : Source → Decoded α
  | .string p name => e.ofName name p.stop?
  | .object (.text start stop) entries broken =>
    match entries with
    | [] =>
      match broken with
      | some f => .error (.ofFault f)
      | none => .error (.ofFault ⟨.expectedValue, stop⟩)
    | (name, p, s) :: rest => do
      -- The name counts before anything behind it is looked at.
      let a ← e.ofName name p.stop
      Codec.unit.decode s
      match rest, broken with
      | [], none => .ok a
      | [], some f =>
        if f.error = .eofObject then .error (.ofFault f)
        else .error (.ofFault ⟨.expectedValue, (s.place.stop?).getD start⟩)
      | _ :: _, _ => .error (.ofFault ⟨.expectedValue, (s.place.stop?).getD start⟩)
  | .object _ entries _ =>
    match entries with
    | [(name, _, s)] => do
      let a ← e.ofName name none
      Codec.unit.decode s
      .ok a
    | _ => .error (.unplaced (.wrongValue .map "map with a single key"))
  | .fault start letter f => .error (refuseFault start letter f)
  | s =>
    match s.place with
    | .text start _ => .error (.ofFault ⟨.expectedValue, start + 1⟩)
    | _ => s.refuse "string or map"

/-- The codec of an enumeration. -/
def codec (e : Enumeration α) : Codec α := ⟨fun a => .string (e.name a), e.decode⟩

end Enumeration

/-- A type whose values are written as numbers; `title` names it in messages. -/
structure Numbering (α : Type) where
  title : String
  values : List α
  number : α → Nat

namespace Numbering

variable {α : Type}

/-- The value of a number. -/
def ofNumber? (e : Numbering α) (n : Nat) : Option α := e.values.find? fun a => e.number a = n

/-- The codec of a numbering. -/
def codec (e : Numbering α) : Codec α where
  encode a := .int (e.number a)
  decode s := do
    let n ← Codec.uint32.decode s
    match e.ofNumber? n.toNat with
    | some a => .ok a
    | none => .error (.unplaced (.unknownNumber e.title n.toNat))

end Numbering

end LanguageServer
