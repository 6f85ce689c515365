import LanguageServer.Codec.Basic

/-!
# Records

A record type is described by its constructor and by one `Fields` entry for each argument of the
constructor: the key, the projection, and how the member is written, read and made up when missing.
From this description come the writer and the reader.

A record is read from an object, or from an array of its fields in their order.  From an object:

* members are read in the order of the document, unknown ones are passed over, and the first failure
  counts;
* then missing members are reported, in the order of the fields;
* then the *parts* are read, records whose members lie among those of this one.

Each field is read on its own from the members of the object; `Ranked.ap` keeps the failure that
comes first in that order.
-/

namespace LanguageServer

open Json (Source)

/-- Members of an object as they stand. -/
abbrev Entries := List (String × Json.KeyPlace × Source)

/-- How a member is written and read.  `absent` stands for it when its key is missing, `short` when
the array form ends before it. -/
structure Field (α : Type) where
  encode : α → Option Json
  decode : Source → Decoded α
  absent : Option α
  short : Option α

namespace Field

variable {α : Type}

/-- A member that has to be there. -/
def required (c : Codec α) : Field α := ⟨fun a => some (c.encode a), c.decode, none, none⟩

/-- A member that may be missing or null and is left out when there is no value. -/
def optional (c : Codec α) : Field (Option α) :=
  ⟨fun a => a.map c.encode, c.option.decode, some none, none⟩

/-- Like `optional`, and the array form may end before it. -/
def trailing (c : Codec α) : Field (Option α) :=
  ⟨fun a => a.map c.encode, c.option.decode, some none, some none⟩

/-- A member that may be missing or null and is written as null when there is no value. -/
def nullable (c : Codec α) : Field (Option α) :=
  ⟨fun a => some (c.option.encode a), c.option.decode, some none, none⟩

/-- Like `nullable`, and the array form may end before it. -/
def nullableTrailing (c : Codec α) : Field (Option α) :=
  ⟨fun a => some (c.option.encode a), c.option.decode, some none, some none⟩

/-- The items that decode. -/
def decodable (c : Codec α) (items : List Json) : List α :=
  items.filterMap fun j => (c.ofJson j).toOption

/-- A list of values of which the reader may know only some; the others are dropped. -/
def known (c : Codec α) : Field (Option (List α)) where
  encode as := as.map c.list.encode
  decode s := do
    let items ← Codec.json.list.option.decode s
    .ok (items.map (decodable c))
  absent := some none
  short := some none

/-- Like `known`, but the member has to be there; null means no values. -/
def knownSet (c : Codec α) : Field (List α) where
  encode as := some (c.list.encode as)
  decode s := do
    let items ← Codec.json.list.option.decode s
    .ok (decodable c (items.getD []))
  absent := none
  short := none

/-- A member that is always written and may be missing, which means `default`. -/
def orElse (c : Codec α) (default : α) : Field α :=
  ⟨fun a => some (c.encode a), c.decode, some default, some default⟩

end Field

/-- A record whose members lie among those of another one: its keys (`none` when it takes all that
are left), its writer and its reader. -/
structure Part (α : Type) where
  keys : Option (List String)
  encode : α → List (String × Json)
  decode : Entries → Decoded α

/-- The fields of a record `σ`, as arguments of a function of type `τ` into it. -/
inductive Fields (σ : Type) : Type → Type 1 where
  /-- No more arguments. -/
  | done : Fields σ σ
  /-- A member of its own. -/
  | own {α τ : Type} (key : String) (get : σ → α) (field : Field α) (rest : Fields σ τ) :
      Fields σ (α → τ)
  /-- A part. -/
  | part {α τ : Type} (get : σ → α) (part : Part α) (rest : Fields σ τ) : Fields σ (α → τ)

/-- A result, or a failure with its rank: of two failures the one of lower rank comes first. -/
abbrev Ranked (α : Type) := Except (Nat × DecodeError) α

/-- Apply a function to an argument; of two failures the first one stays. -/
def Ranked.ap {α β : Type} : Ranked (α → β) → Ranked α → Ranked β
  | .ok f, .ok a => .ok (f a)
  | .ok _, .error e => .error e
  | .error e, .ok _ => .error e
  | .error e, .error e' => .error (if e'.1 < e.1 then e' else e)

/-- The place of the first member with a key, and its value. -/
def Entries.find? (key : String) : Entries → Nat → Option (Nat × Source)
  | [], _ => none
  | (k, _, s) :: rest, i => if k = key then some (i, s) else find? key rest (i + 1)

/-- The first fault of members that no field reads: `known` keys stand once, others are passed
over, or read when a part may want them. -/
def Entries.check (known : List String) (reads : Bool) :
    Entries → List String → Nat → Ranked Unit
  | [], _, _ => .ok ()
  | (k, p, s) :: rest, seen, i =>
    if known.contains k then
      if seen.contains k then .error (i, ⟨.duplicateField k, p.stop⟩)
      else check known reads rest (k :: seen) (i + 1)
    else
      let passed : Ranked Unit :=
        -- A member that a part may want is read whole; any other one is only passed over.
        if reads then
          match s.setAside with
          | .ok _ => .ok ()
          | .error f => .error (i, .ofFault f)
        else
          match p.passing with
          | some f => .error (i, .ofFault f)
          | none => .ok ()
      match passed with
      | .ok () => check known reads rest seen (i + 1)
      | .error e => .error e

/-- The members that no known key names, set aside. -/
def Entries.spare (known : List String) (entries : Entries) : Entries :=
  match Source.setAsideMembers (entries.filter fun m => !known.contains m.1) with
  | .ok kept => kept
  | .error _ => []

namespace Fields

variable {σ τ : Type}

/-- The keys of the record's own members. -/
def keys : {τ : Type} → Fields σ τ → List String
  | _, .done => []
  | _, .own key _ _ rest => key :: rest.keys
  | _, .part _ _ rest => rest.keys

/-- The number of fields. -/
def count : {τ : Type} → Fields σ τ → Nat
  | _, .done => 0
  | _, .own _ _ _ rest => rest.count + 1
  | _, .part _ _ rest => rest.count + 1

/-- Whether the record has parts. -/
def hasParts : {τ : Type} → Fields σ τ → Bool
  | _, .done => false
  | _, .own _ _ _ rest => rest.hasParts
  | _, .part _ _ _ => true

/-- The members of a record, in the order of the fields. -/
def encode (x : σ) : {τ : Type} → Fields σ τ → List (String × Json)
  | _, .done => []
  | _, .own key get field rest =>
    match field.encode (get x) with
    | some j => (key, j) :: rest.encode x
    | none => rest.encode x
  | _, .part get p rest => p.encode (get x) ++ rest.encode x

/-- Read a field of its own: from its member, or else by what stands for it. -/
def readOwn {α : Type} (entries : Entries) (missing : Nat) (key : String) (field : Field α) :
    Ranked α :=
  match Entries.find? key entries 0 with
  | some (i, s) =>
    match field.decode s with
    | .ok a => .ok a
    | .error e => .error (i, e.placedAt s.place.stop?)
  | none =>
    match field.absent with
    | some a => .ok a
    | none => .error (missing, .unplaced (.missingField key))

/-- Read a part from the members that are left. -/
def readPart {α : Type} (spare : Entries) (rank : Nat) (p : Part α) : Ranked α :=
  let mine :=
    match p.keys with
    | some keys => spare.filter fun m => keys.contains m.1
    | none => spare
  match p.decode mine with
  | .ok a => .ok a
  | .error e => .error (rank, e)

/-- Read the fields one by one.  `rank` is that of the next missing member; those of parts come
behind all of them. -/
def read (entries spare : Entries) (total : Nat) :
    {τ : Type} → Fields σ τ → Nat → Ranked τ → Ranked σ
  | _, .done, _, made => made
  | _, .own key _ field rest, rank, made =>
    read entries spare total rest (rank + 1) (Ranked.ap made (readOwn entries rank key field))
  | _, .part _ p rest, rank, made =>
    read entries spare total rest (rank + 1) (Ranked.ap made (readPart spare (rank + total) p))

/-- Count with its noun. -/
def countMessage (n : Nat) : String := if n = 1 then "1 element" else toString n ++ " elements"

/-- Read the fields from the items of an array, in their order. -/
def readItems (name : String) (place : Json.Place) (broken : Option Json.Fault) (total : Nat) :
    {τ : Type} → Fields σ τ → τ → Nat → List Source → Decoded σ
  | _, .done, made, i, items =>
    match items with
    | [] =>
      match broken with
      | some f => .error (.ofFault (f.atClose))
      | none => .ok made
    | s :: _ =>
      -- There are more items than fields; in a text the next item is where the bracket should be.
      match place with
      | .text _ _ =>
        .error (.ofFault ⟨.trailingCharacters, ((s.place.start?).getD 0) + 1⟩)
      | .value =>
        .error (.unplaced (.wrongLength (i + items.length) "fewer elements in array"))
      | .aside =>
        .error (.unplaced (.wrongLength (i + items.length) (countMessage i ++ " in sequence")))
  | _, .own _ _ field rest, made, i, s :: items =>
    match field.decode s with
    | .ok a => readItems name place broken total rest (made a) (i + 1) items
    | .error e => .error (e.placedAt s.place.stop?)
  | _, .own _ _ field rest, made, i, [] =>
    match broken with
    | some f => .error (.ofFault f)
    | none =>
      match field.short with
      | some a => readItems name place broken total rest (made a) (i + 1) []
      | none =>
        .error (.unplaced
          (.wrongLength i ("struct " ++ name ++ " with " ++ countMessage total)))
  | _, .part _ _ _, _, _, _ => .error (.unplaced (.wrongType .sequence ("struct " ++ name)))

end Fields

/-- A record type: its name, its constructor and its fields. -/
structure Record (σ : Type) : Type 1 where
  name : String
  {shape : Type}
  make : shape
  fields : Fields σ shape

namespace Record

variable {σ : Type}

/-- Read a record from the members of an object and the fault behind them. -/
def decodeEntries (r : Record σ) (entries : Entries) (broken : Option Json.Fault) : Decoded σ :=
  let known := r.fields.keys
  -- Faults rank by the members where they arise; then come the fault behind the members, missing
  -- members in the order of the fields, and parts.
  let checked := Entries.check known r.fields.hasParts entries [] 0
  let closed : Ranked Unit :=
    match broken with
    | some f => .error (entries.length, .ofFault f)
    | none => .ok ()
  let spare := if r.fields.hasParts then Entries.spare known entries else []
  let made : Ranked r.shape :=
    Ranked.ap (Ranked.ap (.ok fun _ _ => r.make) checked) closed
  match r.fields.read entries spare r.fields.count (entries.length + 1) made with
  | .ok x => .ok x
  | .error (_, e) => .error e

/-- The reader of a record. -/
def decode (r : Record σ) : Source → Decoded σ
  | .object place entries broken =>
    (r.decodeEntries entries broken).mapError (·.placedAt place.stop?)
  | .array place items broken =>
    -- The members of a part have no place in an array.
    if r.fields.hasParts then (Source.array place items broken).refuse ("struct " ++ r.name)
    else
      (r.fields.readItems r.name place broken r.fields.count r.make 0 items).mapError
        (·.placedAt place.stop?)
  | s => s.refuse ("struct " ++ r.name)

/-- The codec of a record: an object of its members. -/
def codec (r : Record σ) : Codec σ where
  encode x := .ofPairs (r.fields.encode x)
  decode := r.decode

/-- The record as a part of another one. -/
def part (r : Record σ) : Part σ where
  keys := some r.fields.keys
  encode x := r.fields.encode x
  decode entries := r.decodeEntries entries none

end Record

/-- All members that are left, as a part. -/
def Part.rest {α : Type} (c : Codec α) : Part (Dictionary α) where
  keys := none
  encode d := d.members.map fun m => (m.1, c.encode m.2)
  decode entries := do
    let pairs ← c.decodeMembers entries
    .ok (Dictionary.ofList pairs)

end LanguageServer
