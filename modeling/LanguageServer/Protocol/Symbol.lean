import LanguageServer.Protocol.Document
import LanguageServer.Protocol.Progress
import LanguageServer.Protocol.Provider

/-!
# Symbols

The symbols of a document are a list or a forest; those of a workspace a list whose items may leave
their range to be filled in later.
-/

namespace LanguageServer

open Json (Source)

/-- What a symbol stands for. -/
inductive SymbolKind where
  | file
  | module
  | namespaceKind
  | package
  | classKind
  | method
  | property
  | field
  | constructor
  | enum
  | interface
  | function
  | variable
  | constant
  | string
  | number
  | boolean
  | array
  | object
  | key
  | null
  | enumMember
  | struct
  | event
  | operator
  | typeParameter
deriving DecidableEq, Repr

/-- The number of a `SymbolKind` in documents. -/
def SymbolKind.toNat : SymbolKind → Nat
  | .file => 1
  | .module => 2
  | .namespaceKind => 3
  | .package => 4
  | .classKind => 5
  | .method => 6
  | .property => 7
  | .field => 8
  | .constructor => 9
  | .enum => 10
  | .interface => 11
  | .function => 12
  | .variable => 13
  | .constant => 14
  | .string => 15
  | .number => 16
  | .boolean => 17
  | .array => 18
  | .object => 19
  | .key => 20
  | .null => 21
  | .enumMember => 22
  | .struct => 23
  | .event => 24
  | .operator => 25
  | .typeParameter => 26

def SymbolKind.numbering : Numbering SymbolKind :=
  ⟨"SymbolKind", [.file, .module, .namespaceKind, .package, .classKind, .method, .property,
    .field, .constructor, .enum, .interface, .function, .variable, .constant, .string, .number,
    .boolean, .array, .object, .key, .null, .enumMember, .struct, .event, .operator,
    .typeParameter], SymbolKind.toNat⟩

def SymbolKind.codec : Codec SymbolKind := SymbolKind.numbering.codec

/-- What else is to be known about a symbol. -/
inductive SymbolTag where
  | deprecated
deriving DecidableEq, Repr

/-- The number of a `SymbolTag` in documents. -/
def SymbolTag.toNat : SymbolTag → Nat
  | .deprecated => 1

def SymbolTag.numbering : Numbering SymbolTag :=
  ⟨"SymbolTag", [.deprecated], SymbolTag.toNat⟩

def SymbolTag.codec : Codec SymbolTag := SymbolTag.numbering.codec

/-- A symbol of a document with the symbols inside it. -/
structure DocumentSymbol where
  name : String
  detail : Option String := none
  kind : SymbolKind
  tags : Option (List SymbolTag) := none
  range : Range
  selectionRange : Range
  children : Option (List DocumentSymbol) := none

namespace DocumentSymbol

/-- A symbol whose children are written and read by `child`. -/
def record (child : Codec DocumentSymbol) : Record DocumentSymbol :=
  ⟨"DocumentSymbol", DocumentSymbol.mk,
    .own "name" (·.name) (.required Codec.string) <|
    .own "detail" (·.detail) (.trailing Codec.string) <|
    .own "kind" (·.kind) (.required SymbolKind.codec) <|
    .own "tags" (·.tags) (.trailing SymbolTag.codec.list) <|
    .own "range" (·.range) (.required Range.codec) <|
    .own "selectionRange" (·.selectionRange) (.required Range.codec) <|
    .own "children" (·.children) (.trailing child.list) .done⟩

mutual

/-- How deep the symbols inside a symbol nest. -/
def height : DocumentSymbol → Nat
  | ⟨_, _, _, _, _, _, children⟩ => childrenHeight children

/-- How deep the children of a symbol nest, the children counted. -/
def childrenHeight : Option (List DocumentSymbol) → Nat
  | none => 0
  | some children => forestHeight children + 1

/-- The greatest height of symbols. -/
def forestHeight : List DocumentSymbol → Nat
  | [] => 0
  | x :: rest => max (height x) (forestHeight rest)

end

/-- Symbols that nest at most `n` deep. -/
def codecUpTo : Nat → Codec DocumentSymbol
  | 0 => (record ⟨fun _ => .null, fun s => s.refuse "struct DocumentSymbol"⟩).codec
  | n + 1 => (record (codecUpTo n)).codec

def codec : Codec DocumentSymbol where
  encode x := (codecUpTo x.height).encode x
  decode s := (codecUpTo s.depth).decode s

end DocumentSymbol

/-- A symbol with its place. -/
structure SymbolInformation where
  name : String
  kind : SymbolKind
  tags : Option (List SymbolTag) := none
  location : Location
  containerName : Option String := none

def SymbolInformation.record : Record SymbolInformation :=
  ⟨"SymbolInformation", SymbolInformation.mk,
    .own "name" (·.name) (.required Codec.string) <|
    .own "kind" (·.kind) (.required SymbolKind.codec) <|
    .own "tags" (·.tags) (.trailing SymbolTag.codec.list) <|
    .own "location" (·.location) (.required Location.codec) <|
    .own "containerName" (·.containerName) (.trailing Codec.string) .done⟩

def SymbolInformation.codec : Codec SymbolInformation := SymbolInformation.record.codec

/-- The symbols of a document, side by side or inside each other. -/
inductive DocumentSymbolResponse where
  | flat (symbols : List SymbolInformation)
  | nested (symbols : List DocumentSymbol)

/-- A symbol with a location is one of a list; the first item decides. -/
def DocumentSymbolResponse.codec : Codec DocumentSymbolResponse where
  encode
    | .flat xs => SymbolInformation.codec.list.encode xs
    | .nested xs => DocumentSymbol.codec.list.encode xs
  decode s := do
    let items ← Codec.json.list.decode s
    let result :=
      if (items.head?.bind (Json.member? "location")).isSome then
        (SymbolInformation.codec.list.ofJson (.array items)).map .flat
      else (DocumentSymbol.codec.list.ofJson (.array items)).map .nested
    result.mapError DecodeError.withoutPlace

/-- A document without a range in it. -/
structure UriLocation where
  uri : DocumentUri

def UriLocation.record : Record UriLocation :=
  ⟨"UriLocation", UriLocation.mk,
    .own "uri" (·.uri) (.required Codec.string) .done⟩

def UriLocation.codec : Codec UriLocation := UriLocation.record.codec

/-- The place of a symbol of the workspace. -/
inductive WorkspaceLocation where
  | location (location : Location)
  | uri (location : UriLocation)

def WorkspaceLocation.codec : Codec WorkspaceLocation :=
  .byValue
    (fun
      | .location l => Location.codec.encode l
      | .uri u => UriLocation.codec.encode u)
    (fun j =>
      match j.member? "range" with
      | some _ => (Location.codec.ofJson j).map .location
      | none => (UriLocation.codec.ofJson j).map .uri)

/-- A symbol of the workspace. -/
structure WorkspaceSymbol where
  name : String
  kind : SymbolKind
  tags : Option (List SymbolTag) := none
  containerName : Option String := none
  location : WorkspaceLocation
  data : Option LspAny := none

def WorkspaceSymbol.record : Record WorkspaceSymbol :=
  ⟨"WorkspaceSymbol", WorkspaceSymbol.mk,
    .own "name" (·.name) (.required Codec.string) <|
    .own "kind" (·.kind) (.required SymbolKind.codec) <|
    .own "tags" (·.tags) (.trailing SymbolTag.codec.list) <|
    .own "containerName" (·.containerName) (.trailing Codec.string) <|
    .own "location" (·.location) (.required WorkspaceLocation.codec) <|
    .own "data" (·.data) (.trailing LspAny.codec) .done⟩

def WorkspaceSymbol.codec : Codec WorkspaceSymbol := WorkspaceSymbol.record.codec

/-- The symbols of a workspace. -/
inductive WorkspaceSymbolResponse where
  | flat (symbols : List SymbolInformation)
  | nested (symbols : List WorkspaceSymbol)

/-- Whether a symbol carries data or leaves out its range. -/
def WorkspaceSymbolResponse.isNested (first : Json) : Bool :=
  (first.member? "data").isSome ||
    match first.member? "location" with
    | some location => (location.member? "range").isNone
    | none => false

/-- The first item decides. -/
def WorkspaceSymbolResponse.codec : Codec WorkspaceSymbolResponse where
  encode
    | .flat xs => SymbolInformation.codec.list.encode xs
    | .nested xs => WorkspaceSymbol.codec.list.encode xs
  decode s := do
    let items ← Codec.json.list.decode s
    let result :=
      if items.head?.any isNested then
        (WorkspaceSymbol.codec.list.ofJson (.array items)).map .nested
      else (SymbolInformation.codec.list.ofJson (.array items)).map .flat
    result.mapError DecodeError.withoutPlace

/-- The client asks for the symbols of the workspace. -/
structure WorkspaceSymbolParams where
  query : String
  workDone : WorkDoneProgressParams := {}
  partialResult : PartialResultParams := {}

def WorkspaceSymbolParams.record : Record WorkspaceSymbolParams :=
  ⟨"WorkspaceSymbolParams", WorkspaceSymbolParams.mk,
    .own "query" (·.query) (.required Codec.string) <|
    .part (·.workDone) WorkDoneProgressParams.record.part <|
    .part (·.partialResult) PartialResultParams.record.part .done⟩

def WorkspaceSymbolParams.codec : Codec WorkspaceSymbolParams :=
  WorkspaceSymbolParams.record.codec

/-- How a server lists the symbols of a document. -/
structure DocumentSymbolOptions where
  workDoneProgress : Option Bool := none
  label : Option String := none

def DocumentSymbolOptions.record : Record DocumentSymbolOptions :=
  ⟨"DocumentSymbolOptions", DocumentSymbolOptions.mk,
    .own "workDoneProgress" (·.workDoneProgress) (.optional Codec.bool) <|
    .own "label" (·.label) (.optional Codec.string) .done⟩

def DocumentSymbolOptions.codec : Codec DocumentSymbolOptions :=
  DocumentSymbolOptions.record.codec

/-- The kinds of symbols that a client knows. -/
structure SymbolKindCapabilities where
  valueSet : Option (List SymbolKind) := none

def SymbolKindCapabilities.record : Record SymbolKindCapabilities :=
  ⟨"SymbolKindCapabilities", SymbolKindCapabilities.mk,
    .own "valueSet" (·.valueSet) (.known SymbolKind.codec) .done⟩

def SymbolKindCapabilities.codec : Codec SymbolKindCapabilities :=
  SymbolKindCapabilities.record.codec

/-- What a client can do with symbols of the workspace. -/
structure WorkspaceSymbolClientCapabilities where
  dynamicRegistration : Option Bool := none
  symbolKind : Option SymbolKindCapabilities := none

def WorkspaceSymbolClientCapabilities.record : Record WorkspaceSymbolClientCapabilities :=
  ⟨"WorkspaceSymbolClientCapabilities", WorkspaceSymbolClientCapabilities.mk,
    .own "dynamicRegistration" (·.dynamicRegistration) (.trailing Codec.bool) <|
    .own "symbolKind" (·.symbolKind) (.trailing SymbolKindCapabilities.codec) .done⟩

def WorkspaceSymbolClientCapabilities.codec : Codec WorkspaceSymbolClientCapabilities :=
  WorkspaceSymbolClientCapabilities.record.codec

/-- What a client can do with symbols of a document. -/
structure DocumentSymbolClientCapabilities where
  dynamicRegistration : Option Bool := none
  symbolKind : Option SymbolKindCapabilities := none
  hierarchicalDocumentSymbolSupport : Option Bool := none

def DocumentSymbolClientCapabilities.record : Record DocumentSymbolClientCapabilities :=
  ⟨"DocumentSymbolClientCapabilities", DocumentSymbolClientCapabilities.mk,
    .own "dynamicRegistration" (·.dynamicRegistration) (.trailing Codec.bool) <|
    .own "symbolKind" (·.symbolKind) (.trailing SymbolKindCapabilities.codec) <|
    .own "hierarchicalDocumentSymbolSupport" (·.hierarchicalDocumentSymbolSupport)
      (.trailing Codec.bool) .done⟩

def DocumentSymbolClientCapabilities.codec : Codec DocumentSymbolClientCapabilities :=
  DocumentSymbolClientCapabilities.record.codec

end LanguageServer
