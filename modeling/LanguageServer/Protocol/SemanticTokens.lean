import LanguageServer.Protocol.Document
import LanguageServer.Protocol.Provider

/-!
# Semantic tokens

The tokens of a document as numbers, five for a token, in full or as changes of an earlier result.
-/

namespace LanguageServer

/-- What the numbers of types and modifiers mean. -/
structure SemanticTokensLegend where
  tokenTypes : List String := []
  tokenModifiers : List String := []
deriving Inhabited

def SemanticTokensLegend.record : Record SemanticTokensLegend :=
  ⟨"SemanticTokensLegend", SemanticTokensLegend.mk,
    .own "tokenTypes" (·.tokenTypes) (.required Codec.string.list) <|
    .own "tokenModifiers" (·.tokenModifiers) (.required Codec.string.list) .done⟩

def SemanticTokensLegend.codec : Codec SemanticTokensLegend := SemanticTokensLegend.record.codec

/-- Whether the tokens of a range can be asked for. -/
inductive SemanticTokensRangeOption where
  | bool (value : Bool)
  | empty
deriving DecidableEq, Repr

def SemanticTokensRangeOption.codec : Codec SemanticTokensRangeOption :=
  .byValue
    (fun
      | .bool b => .bool b
      | .empty => .object [])
    (fun
      | .bool b => .ok (.bool b)
      | .object _ => .ok .empty
      | j => Codec.unfit "a boolean or an object for semantic tokens range" j)

/-- Only an explicit no means no. -/
def SemanticTokensRangeOption.isSupported : SemanticTokensRangeOption → Bool
  | .bool b => b
  | .empty => true

/-- Whether the tokens of a document can be asked for, and their changes. -/
inductive SemanticTokensFullOption where
  | bool (value : Bool)
  | delta (delta : Option Bool)
deriving DecidableEq, Repr

def SemanticTokensFullOption.codec : Codec SemanticTokensFullOption :=
  .byValue
    (fun
      | .bool b => .bool b
      | .delta none => .object []
      | .delta (some b) => .object [("delta", .bool b)])
    (fun
      | .bool b => .ok (.bool b)
      | .object ms =>
        match Members.get? "delta" ms with
        | none => .ok (.delta none)
        | some .null => .ok (.delta none)
        | some (.bool b) => .ok (.delta (some b))
        | some j => .error (.unplaced (.notBoolean "semantic tokens delta" j))
      | j => Codec.unfit "a boolean or an object for semantic tokens full" j)

/-- Which requests for tokens a server answers. -/
structure SemanticTokensOptions where
  workDoneProgress : Option Bool := none
  legend : SemanticTokensLegend := {}
  range : Option SemanticTokensRangeOption := none
  full : Option SemanticTokensFullOption := none

def SemanticTokensOptions.record : Record SemanticTokensOptions :=
  ⟨"SemanticTokensOptions", SemanticTokensOptions.mk,
    .own "workDoneProgress" (·.workDoneProgress) (.optional Codec.bool) <|
    .own "legend" (·.legend) (.required SemanticTokensLegend.codec) <|
    .own "range" (·.range) (.optional SemanticTokensRangeOption.codec) <|
    .own "full" (·.full) (.optional SemanticTokensFullOption.codec) .done⟩

def SemanticTokensOptions.codec : Codec SemanticTokensOptions :=
  SemanticTokensOptions.record.codec

/-- The client asks for the changes of an earlier result. -/
structure SemanticTokensDeltaParams where
  textDocument : TextDocumentIdentifier
  previousResultId : String
  workDone : WorkDoneProgressParams := {}
  partialResult : PartialResultParams := {}

def SemanticTokensDeltaParams.record : Record SemanticTokensDeltaParams :=
  ⟨"SemanticTokensDeltaParams", SemanticTokensDeltaParams.mk,
    .own "textDocument" (·.textDocument) (.required TextDocumentIdentifier.codec) <|
    .own "previousResultId" (·.previousResultId) (.required Codec.string) <|
    .part (·.workDone) WorkDoneProgressParams.record.part <|
    .part (·.partialResult) PartialResultParams.record.part .done⟩

def SemanticTokensDeltaParams.codec : Codec SemanticTokensDeltaParams :=
  SemanticTokensDeltaParams.record.codec

/-- The client asks for the tokens of a range. -/
structure SemanticTokensRangeParams where
  textDocument : TextDocumentIdentifier
  range : Range
  workDone : WorkDoneProgressParams := {}
  partialResult : PartialResultParams := {}

def SemanticTokensRangeParams.record : Record SemanticTokensRangeParams :=
  ⟨"SemanticTokensRangeParams", SemanticTokensRangeParams.mk,
    .own "textDocument" (·.textDocument) (.required TextDocumentIdentifier.codec) <|
    .own "range" (·.range) (.required Range.codec) <|
    .part (·.workDone) WorkDoneProgressParams.record.part <|
    .part (·.partialResult) PartialResultParams.record.part .done⟩

def SemanticTokensRangeParams.codec : Codec SemanticTokensRangeParams :=
  SemanticTokensRangeParams.record.codec

/-- Tokens, and the name of this result. -/
structure SemanticTokens where
  resultId : Option String := none
  data : List UInt32 := []

def SemanticTokens.record : Record SemanticTokens :=
  ⟨"SemanticTokens", SemanticTokens.mk,
    .own "resultId" (·.resultId) (.trailing Codec.string) <|
    .own "data" (·.data) (.required Codec.uint32.list) .done⟩

def SemanticTokens.codec : Codec SemanticTokens := SemanticTokens.record.codec

/-- Numbers taken out of an earlier result and put in. -/
structure SemanticTokensEdit where
  start : UInt32
  deleteCount : UInt32
  data : Option (List UInt32) := none

def SemanticTokensEdit.record : Record SemanticTokensEdit :=
  ⟨"SemanticTokensEdit", SemanticTokensEdit.mk,
    .own "start" (·.start) (.required Codec.uint32) <|
    .own "deleteCount" (·.deleteCount) (.required Codec.uint32) <|
    .own "data" (·.data) (.trailing Codec.uint32.list) .done⟩

def SemanticTokensEdit.codec : Codec SemanticTokensEdit := SemanticTokensEdit.record.codec

/-- The changes of an earlier result. -/
structure SemanticTokensDelta where
  resultId : Option String := none
  edits : List SemanticTokensEdit := []

def SemanticTokensDelta.record : Record SemanticTokensDelta :=
  ⟨"SemanticTokensDelta", SemanticTokensDelta.mk,
    .own "resultId" (·.resultId) (.trailing Codec.string) <|
    .own "edits" (·.edits) (.required SemanticTokensEdit.codec.list) .done⟩

def SemanticTokensDelta.codec : Codec SemanticTokensDelta := SemanticTokensDelta.record.codec

/-- Tokens in full or changes of an earlier result. -/
inductive SemanticTokensFullDeltaResult where
  | tokens (tokens : SemanticTokens)
  | delta (delta : SemanticTokensDelta)

def SemanticTokensFullDeltaResult.codec : Codec SemanticTokensFullDeltaResult :=
  .byValue
    (fun
      | .tokens t => SemanticTokens.codec.encode t
      | .delta d => SemanticTokensDelta.codec.encode d)
    (fun j =>
      match j.member? "edits" with
      | some _ => (SemanticTokensDelta.codec.ofJson j).map .delta
      | none => (SemanticTokens.codec.ofJson j).map .tokens)

/-- Which tokens a client can show. -/
structure SemanticTokensClientCapabilities where
  dynamicRegistration : Option Bool := none
  tokenTypes : List String := []
  tokenModifiers : List String := []
  serverCancelSupport : Option Bool := none
  augmentsSyntaxTokens : Option Bool := none

def SemanticTokensClientCapabilities.record : Record SemanticTokensClientCapabilities :=
  ⟨"SemanticTokensClientCapabilities", SemanticTokensClientCapabilities.mk,
    .own "dynamicRegistration" (·.dynamicRegistration) (.trailing Codec.bool) <|
    .own "tokenTypes" (·.tokenTypes) (.orElse Codec.string.list []) <|
    .own "tokenModifiers" (·.tokenModifiers) (.orElse Codec.string.list []) <|
    .own "serverCancelSupport" (·.serverCancelSupport) (.trailing Codec.bool) <|
    .own "augmentsSyntaxTokens" (·.augmentsSyntaxTokens) (.trailing Codec.bool) .done⟩

def SemanticTokensClientCapabilities.codec : Codec SemanticTokensClientCapabilities :=
  SemanticTokensClientCapabilities.record.codec

end LanguageServer
