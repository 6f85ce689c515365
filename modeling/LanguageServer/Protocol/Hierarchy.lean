import LanguageServer.Protocol.Symbol

/-!
# Hierarchies

Who calls whom, and which type stands above which.  Both start from an item that the server names.
-/

namespace LanguageServer

/-- A function or a type in a hierarchy. -/
structure CallHierarchyItem where
  name : String
  kind : SymbolKind
  tags : Option (List SymbolTag) := none
  detail : Option String := none
  uri : DocumentUri
  range : Range
  selectionRange : Range
  data : Option LspAny := none
deriving BEq

def CallHierarchyItem.record : Record CallHierarchyItem :=
  ⟨"CallHierarchyItem", CallHierarchyItem.mk,
    .own "name" (·.name) (.required Codec.string) <|
    .own "kind" (·.kind) (.required SymbolKind.codec) <|
    .own "tags" (·.tags) (.trailing SymbolTag.codec.list) <|
    .own "detail" (·.detail) (.trailing Codec.string) <|
    .own "uri" (·.uri) (.required Codec.string) <|
    .own "range" (·.range) (.required Range.codec) <|
    .own "selectionRange" (·.selectionRange) (.required Range.codec) <|
    .own "data" (·.data) (.trailing LspAny.codec) .done⟩

def CallHierarchyItem.codec : Codec CallHierarchyItem := CallHierarchyItem.record.codec

/-- The client asks who calls, or whom an item calls. -/
structure CallHierarchyIncomingCallsParams where
  item : CallHierarchyItem
  workDone : WorkDoneProgressParams := {}
  partialResult : PartialResultParams := {}
deriving BEq

def CallHierarchyIncomingCallsParams.record : Record CallHierarchyIncomingCallsParams :=
  ⟨"CallHierarchyIncomingCallsParams", CallHierarchyIncomingCallsParams.mk,
    .own "item" (·.item) (.required CallHierarchyItem.codec) <|
    .part (·.workDone) WorkDoneProgressParams.record.part <|
    .part (·.partialResult) PartialResultParams.record.part .done⟩

def CallHierarchyIncomingCallsParams.codec : Codec CallHierarchyIncomingCallsParams :=
  CallHierarchyIncomingCallsParams.record.codec

/-- A caller, and where it calls. -/
structure CallHierarchyIncomingCall where
  caller : CallHierarchyItem
  fromRanges : List Range

def CallHierarchyIncomingCall.record : Record CallHierarchyIncomingCall :=
  ⟨"CallHierarchyIncomingCall", CallHierarchyIncomingCall.mk,
    .own "from" (·.caller) (.required CallHierarchyItem.codec) <|
    .own "fromRanges" (·.fromRanges) (.required Range.codec.list) .done⟩

def CallHierarchyIncomingCall.codec : Codec CallHierarchyIncomingCall :=
  CallHierarchyIncomingCall.record.codec

/-- A callee, and where it is called. -/
structure CallHierarchyOutgoingCall where
  callee : CallHierarchyItem
  fromRanges : List Range

def CallHierarchyOutgoingCall.record : Record CallHierarchyOutgoingCall :=
  ⟨"CallHierarchyOutgoingCall", CallHierarchyOutgoingCall.mk,
    .own "to" (·.callee) (.required CallHierarchyItem.codec) <|
    .own "fromRanges" (·.fromRanges) (.required Range.codec.list) .done⟩

def CallHierarchyOutgoingCall.codec : Codec CallHierarchyOutgoingCall :=
  CallHierarchyOutgoingCall.record.codec

/-- The client asks for the types above or below an item. -/
structure TypeHierarchySupertypesParams where
  item : CallHierarchyItem
  workDone : WorkDoneProgressParams := {}
  partialResult : PartialResultParams := {}
deriving BEq

def TypeHierarchySupertypesParams.record : Record TypeHierarchySupertypesParams :=
  ⟨"TypeHierarchySupertypesParams", TypeHierarchySupertypesParams.mk,
    .own "item" (·.item) (.required CallHierarchyItem.codec) <|
    .part (·.workDone) WorkDoneProgressParams.record.part <|
    .part (·.partialResult) PartialResultParams.record.part .done⟩

def TypeHierarchySupertypesParams.codec : Codec TypeHierarchySupertypesParams :=
  TypeHierarchySupertypesParams.record.codec

end LanguageServer
