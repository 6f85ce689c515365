import LanguageServer.Protocol.Provider

/-!
# Diagnostics

A diagnostic says what is wrong with a range of a document.  The server publishes them.
-/

namespace LanguageServer

/-- How bad it is. -/
inductive DiagnosticSeverity where
  | error
  | warning
  | information
  | hint
deriving DecidableEq, Repr

/-- The number of a `DiagnosticSeverity` in documents. -/
def DiagnosticSeverity.toNat : DiagnosticSeverity → Nat
  | .error => 1
  | .warning => 2
  | .information => 3
  | .hint => 4

def DiagnosticSeverity.numbering : Numbering DiagnosticSeverity :=
  ⟨"DiagnosticSeverity", [.error, .warning, .information, .hint], DiagnosticSeverity.toNat⟩

def DiagnosticSeverity.codec : Codec DiagnosticSeverity := DiagnosticSeverity.numbering.codec

/-- What else is to be known about it. -/
inductive DiagnosticTag where
  | unnecessary
  | deprecated
deriving DecidableEq, Repr

/-- The number of a `DiagnosticTag` in documents. -/
def DiagnosticTag.toNat : DiagnosticTag → Nat
  | .unnecessary => 1
  | .deprecated => 2

def DiagnosticTag.numbering : Numbering DiagnosticTag :=
  ⟨"DiagnosticTag", [.unnecessary, .deprecated], DiagnosticTag.toNat⟩

def DiagnosticTag.codec : Codec DiagnosticTag := DiagnosticTag.numbering.codec

/-- Where the code of a diagnostic is explained. -/
structure CodeDescription where
  href : Uri
deriving DecidableEq

def CodeDescription.record : Record CodeDescription :=
  ⟨"CodeDescription", CodeDescription.mk,
    .own "href" (·.href) (.required Codec.string) .done⟩

def CodeDescription.codec : Codec CodeDescription := CodeDescription.record.codec

/-- Another place that belongs to a diagnostic. -/
structure DiagnosticRelatedInformation where
  location : Location
  message : String
deriving DecidableEq

def DiagnosticRelatedInformation.record : Record DiagnosticRelatedInformation :=
  ⟨"DiagnosticRelatedInformation", DiagnosticRelatedInformation.mk,
    .own "location" (·.location) (.required Location.codec) <|
    .own "message" (·.message) (.required Codec.string) .done⟩

def DiagnosticRelatedInformation.codec : Codec DiagnosticRelatedInformation :=
  DiagnosticRelatedInformation.record.codec

/-- What is wrong with a range of a document. -/
structure Diagnostic where
  range : Range
  severity : Option DiagnosticSeverity := none
  code : Option IntOrString := none
  codeDescription : Option CodeDescription := none
  source : Option String := none
  message : String
  tags : Option (List DiagnosticTag) := none
  relatedInformation : Option (List DiagnosticRelatedInformation) := none
  data : Option LspAny := none
deriving BEq

def Diagnostic.record : Record Diagnostic :=
  ⟨"Diagnostic", Diagnostic.mk,
    .own "range" (·.range) (.required Range.codec) <|
    .own "severity" (·.severity) (.optional DiagnosticSeverity.codec) <|
    .own "code" (·.code) (.optional IntOrString.codec) <|
    .own "codeDescription" (·.codeDescription) (.optional CodeDescription.codec) <|
    .own "source" (·.source) (.optional Codec.string) <|
    .own "message" (·.message) (.required Codec.string) <|
    .own "tags" (·.tags) (.optional DiagnosticTag.codec.list) <|
    .own "relatedInformation" (·.relatedInformation)
      (.optional DiagnosticRelatedInformation.codec.list) <|
    .own "data" (·.data) (.optional LspAny.codec) .done⟩

def Diagnostic.codec : Codec Diagnostic := Diagnostic.record.codec

/-- A diagnostic that says no more than its message. -/
def Diagnostic.plain (range : Range) (message : String) : Diagnostic := { range, message }

/-- All the diagnostics of a document. -/
structure PublishDiagnosticsParams where
  uri : DocumentUri
  version : Option Int32 := none
  diagnostics : List Diagnostic

def PublishDiagnosticsParams.record : Record PublishDiagnosticsParams :=
  ⟨"PublishDiagnosticsParams", PublishDiagnosticsParams.mk,
    .own "uri" (·.uri) (.required Codec.string) <|
    .own "version" (·.version) (.trailing Codec.int32) <|
    .own "diagnostics" (·.diagnostics) (.required Diagnostic.codec.list) .done⟩

def PublishDiagnosticsParams.codec : Codec PublishDiagnosticsParams :=
  PublishDiagnosticsParams.record.codec

/-- The tags that a client knows. -/
structure DiagnosticTagSupport where
  valueSet : List DiagnosticTag := []

def DiagnosticTagSupport.record : Record DiagnosticTagSupport :=
  ⟨"DiagnosticTagSupport", DiagnosticTagSupport.mk,
    .own "valueSet" (·.valueSet) (.knownSet DiagnosticTag.codec) .done⟩

def DiagnosticTagSupport.codec : Codec DiagnosticTagSupport := DiagnosticTagSupport.record.codec

/-- What a client can show of published diagnostics. -/
structure PublishDiagnosticsClientCapabilities where
  relatedInformation : Option Bool := none
  tagSupport : Option DiagnosticTagSupport := none
  versionSupport : Option Bool := none
  codeDescriptionSupport : Option Bool := none
  dataSupport : Option Bool := none

def PublishDiagnosticsClientCapabilities.record : Record PublishDiagnosticsClientCapabilities :=
  ⟨"PublishDiagnosticsClientCapabilities", PublishDiagnosticsClientCapabilities.mk,
    .own "relatedInformation" (·.relatedInformation) (.trailing Codec.bool) <|
    .own "tagSupport" (·.tagSupport) (.trailing DiagnosticTagSupport.codec) <|
    .own "versionSupport" (·.versionSupport) (.trailing Codec.bool) <|
    .own "codeDescriptionSupport" (·.codeDescriptionSupport) (.trailing Codec.bool) <|
    .own "dataSupport" (·.dataSupport) (.trailing Codec.bool) .done⟩

def PublishDiagnosticsClientCapabilities.codec : Codec PublishDiagnosticsClientCapabilities :=
  PublishDiagnosticsClientCapabilities.record.codec

end LanguageServer
