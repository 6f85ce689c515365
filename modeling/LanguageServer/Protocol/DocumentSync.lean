import LanguageServer.Protocol.Provider

/-!
# Document synchronisation

The client owns the documents that are open and tells the server what happens to them.  A change
replaces a range or the whole text.
-/

namespace LanguageServer

/-- How changes are sent. -/
inductive TextDocumentSyncKind where
  | none
  | full
  | incremental
deriving DecidableEq, Repr

/-- The number of a `TextDocumentSyncKind` in documents. -/
def TextDocumentSyncKind.toNat : TextDocumentSyncKind → Nat
  | .none => 0
  | .full => 1
  | .incremental => 2

def TextDocumentSyncKind.numbering : Numbering TextDocumentSyncKind :=
  ⟨"TextDocumentSyncKind", [.none, .full, .incremental], TextDocumentSyncKind.toNat⟩

def TextDocumentSyncKind.codec : Codec TextDocumentSyncKind := TextDocumentSyncKind.numbering.codec

/-- Whether the text comes with the news that it was saved. -/
structure SaveOptions where
  includeText : Option Bool := none

def SaveOptions.record : Record SaveOptions :=
  ⟨"SaveOptions", SaveOptions.mk,
    .own "includeText" (·.includeText) (.optional Codec.bool) .done⟩

def SaveOptions.codec : Codec SaveOptions := SaveOptions.record.codec

/-- What the server wants to hear about open documents. -/
structure TextDocumentSyncOptions where
  openClose : Option Bool := none
  change : Option TextDocumentSyncKind := none
  willSave : Option Bool := none
  willSaveWaitUntil : Option Bool := none
  save : Option (BoolOrOptions SaveOptions) := none

def TextDocumentSyncOptions.record : Record TextDocumentSyncOptions :=
  ⟨"TextDocumentSyncOptions", TextDocumentSyncOptions.mk,
    .own "openClose" (·.openClose) (.optional Codec.bool) <|
    .own "change" (·.change) (.optional TextDocumentSyncKind.codec) <|
    .own "willSave" (·.willSave) (.optional Codec.bool) <|
    .own "willSaveWaitUntil" (·.willSaveWaitUntil) (.optional Codec.bool) <|
    .own "save" (·.save) (.optional (BoolOrOptions.codec SaveOptions.codec)) .done⟩

def TextDocumentSyncOptions.codec : Codec TextDocumentSyncOptions :=
  TextDocumentSyncOptions.record.codec

/-- How changes are sent, alone or among other options. -/
inductive TextDocumentSyncCapability where
  | kind (kind : TextDocumentSyncKind)
  | options (options : TextDocumentSyncOptions)

def TextDocumentSyncCapability.codec : Codec TextDocumentSyncCapability :=
  .byValue
    (fun
      | .kind k => TextDocumentSyncKind.codec.encode k
      | .options o => TextDocumentSyncOptions.codec.encode o)
    (fun
      | .number n => (TextDocumentSyncKind.codec.ofJson (.number n)).map .kind
      | .object ms => (TextDocumentSyncOptions.codec.ofJson (.object ms)).map .options
      | j => Codec.unfit "a sync kind or sync options" j)

/-- What a client can say about open documents. -/
structure TextDocumentSyncClientCapabilities where
  dynamicRegistration : Option Bool := none
  willSave : Option Bool := none
  willSaveWaitUntil : Option Bool := none
  didSave : Option Bool := none

def TextDocumentSyncClientCapabilities.record : Record TextDocumentSyncClientCapabilities :=
  ⟨"TextDocumentSyncClientCapabilities", TextDocumentSyncClientCapabilities.mk,
    .own "dynamicRegistration" (·.dynamicRegistration) (.trailing Codec.bool) <|
    .own "willSave" (·.willSave) (.trailing Codec.bool) <|
    .own "willSaveWaitUntil" (·.willSaveWaitUntil) (.trailing Codec.bool) <|
    .own "didSave" (·.didSave) (.trailing Codec.bool) .done⟩

def TextDocumentSyncClientCapabilities.codec : Codec TextDocumentSyncClientCapabilities :=
  TextDocumentSyncClientCapabilities.record.codec

/-- A document was opened. -/
structure DidOpenTextDocumentParams where
  textDocument : TextDocumentItem

def DidOpenTextDocumentParams.record : Record DidOpenTextDocumentParams :=
  ⟨"DidOpenTextDocumentParams", DidOpenTextDocumentParams.mk,
    .own "textDocument" (·.textDocument) (.required TextDocumentItem.codec) .done⟩

def DidOpenTextDocumentParams.codec : Codec DidOpenTextDocumentParams :=
  DidOpenTextDocumentParams.record.codec

/-- A change as it is written: a range makes it one of a part. -/
structure RawContentChange where
  range : Option Range := none
  rangeLength : Option UInt32 := none
  text : String

def RawContentChange.record : Record RawContentChange :=
  ⟨"RawContentChange", RawContentChange.mk,
    .own "range" (·.range) (.trailing Range.codec) <|
    .own "rangeLength" (·.rangeLength) (.trailing Codec.uint32) <|
    .own "text" (·.text) (.required Codec.string) .done⟩

def RawContentChange.codec : Codec RawContentChange := RawContentChange.record.codec

/-- A change of a range of a document, or of its whole text. -/
inductive TextDocumentContentChangeEvent where
  | incremental (range : Range) (rangeLength : Option UInt32) (text : String)
  | full (text : String)
deriving DecidableEq

namespace TextDocumentContentChangeEvent

/-- A change as it is written. -/
def toRaw : TextDocumentContentChangeEvent → RawContentChange
  | .incremental range rangeLength text => ⟨some range, rangeLength, text⟩
  | .full text => ⟨none, none, text⟩

/-- The change that is written; the length of a range makes no sense without the range. -/
def ofRaw : RawContentChange → Decoded TextDocumentContentChangeEvent
  | ⟨some range, rangeLength, text⟩ => .ok (.incremental range rangeLength text)
  | ⟨none, none, text⟩ => .ok (.full text)
  | ⟨none, some _, _⟩ => .error (.unplaced .lengthWithoutRange)

def codec : Codec TextDocumentContentChangeEvent where
  encode e := RawContentChange.codec.encode e.toRaw
  decode s := do
    let raw ← RawContentChange.codec.decode s
    ofRaw raw

/-- The new text. -/
def text : TextDocumentContentChangeEvent → String
  | .incremental _ _ text => text
  | .full text => text

/-- The range that is replaced, if it is not the whole text. -/
def range? : TextDocumentContentChangeEvent → Option Range
  | .incremental range _ _ => some range
  | .full _ => none

end TextDocumentContentChangeEvent

/-- A document was changed. -/
structure DidChangeTextDocumentParams where
  textDocument : VersionedTextDocumentIdentifier
  contentChanges : List TextDocumentContentChangeEvent

def DidChangeTextDocumentParams.record : Record DidChangeTextDocumentParams :=
  ⟨"DidChangeTextDocumentParams", DidChangeTextDocumentParams.mk,
    .own "textDocument" (·.textDocument) (.required VersionedTextDocumentIdentifier.codec) <|
    .own "contentChanges" (·.contentChanges)
      (.required TextDocumentContentChangeEvent.codec.list) .done⟩

def DidChangeTextDocumentParams.codec : Codec DidChangeTextDocumentParams :=
  DidChangeTextDocumentParams.record.codec

/-- Why a document is saved. -/
inductive TextDocumentSaveReason where
  | manual
  | afterDelay
  | focusOut
deriving DecidableEq, Repr

/-- The number of a `TextDocumentSaveReason` in documents. -/
def TextDocumentSaveReason.toNat : TextDocumentSaveReason → Nat
  | .manual => 1
  | .afterDelay => 2
  | .focusOut => 3

def TextDocumentSaveReason.numbering : Numbering TextDocumentSaveReason :=
  ⟨"TextDocumentSaveReason", [.manual, .afterDelay, .focusOut], TextDocumentSaveReason.toNat⟩

def TextDocumentSaveReason.codec : Codec TextDocumentSaveReason :=
  TextDocumentSaveReason.numbering.codec

/-- A document is about to be saved. -/
structure WillSaveTextDocumentParams where
  textDocument : TextDocumentIdentifier
  reason : TextDocumentSaveReason

def WillSaveTextDocumentParams.record : Record WillSaveTextDocumentParams :=
  ⟨"WillSaveTextDocumentParams", WillSaveTextDocumentParams.mk,
    .own "textDocument" (·.textDocument) (.required TextDocumentIdentifier.codec) <|
    .own "reason" (·.reason) (.required TextDocumentSaveReason.codec) .done⟩

def WillSaveTextDocumentParams.codec : Codec WillSaveTextDocumentParams :=
  WillSaveTextDocumentParams.record.codec

/-- A document was saved. -/
structure DidSaveTextDocumentParams where
  textDocument : TextDocumentIdentifier
  text : Option String := none

def DidSaveTextDocumentParams.record : Record DidSaveTextDocumentParams :=
  ⟨"DidSaveTextDocumentParams", DidSaveTextDocumentParams.mk,
    .own "textDocument" (·.textDocument) (.required TextDocumentIdentifier.codec) <|
    .own "text" (·.text) (.trailing Codec.string) .done⟩

def DidSaveTextDocumentParams.codec : Codec DidSaveTextDocumentParams :=
  DidSaveTextDocumentParams.record.codec

/-- A document was closed. -/
structure DidCloseTextDocumentParams where
  textDocument : TextDocumentIdentifier

def DidCloseTextDocumentParams.record : Record DidCloseTextDocumentParams :=
  ⟨"DidCloseTextDocumentParams", DidCloseTextDocumentParams.mk,
    .own "textDocument" (·.textDocument) (.required TextDocumentIdentifier.codec) .done⟩

def DidCloseTextDocumentParams.codec : Codec DidCloseTextDocumentParams :=
  DidCloseTextDocumentParams.record.codec

end LanguageServer
