import LanguageServer.Protocol.Command
import LanguageServer.Protocol.Diagnostic
import LanguageServer.Protocol.Edit

/-!
# Code actions and lenses

A code action changes code or runs a command on behalf of the user; a lens shows a command in the
text.
-/

namespace LanguageServer

open Json (Source)

/-- The kind of a code action: any name, with dots between general and special. -/
structure CodeActionKind where
  value : String
deriving DecidableEq, Repr

namespace CodeActionKind

/-- The kind of all actions. -/
def empty : CodeActionKind := ⟨""⟩

/-- A fix of a problem. -/
def quickFix : CodeActionKind := ⟨"quickfix"⟩

/-- A refactoring. -/
def refactor : CodeActionKind := ⟨"refactor"⟩

/-- A refactoring that takes something out. -/
def refactorExtract : CodeActionKind := ⟨"refactor.extract"⟩

/-- A refactoring that puts something in place of its name. -/
def refactorInline : CodeActionKind := ⟨"refactor.inline"⟩

/-- A refactoring that writes something anew. -/
def refactorRewrite : CodeActionKind := ⟨"refactor.rewrite"⟩

/-- An action on a whole file. -/
def source : CodeActionKind := ⟨"source"⟩

/-- The imports of a file are put in order. -/
def sourceOrganizeImports : CodeActionKind := ⟨"source.organizeImports"⟩

/-- All that can be fixed without asking is fixed. -/
def sourceFixAll : CodeActionKind := ⟨"source.fixAll"⟩

/-- The kinds with a known meaning. -/
def wellKnown : List CodeActionKind :=
  [empty, quickFix, refactor, refactorExtract, refactorInline, refactorRewrite, source,
    sourceOrganizeImports, sourceFixAll]

def codec : Codec CodeActionKind := Codec.string.map .mk (·.value)

end CodeActionKind

/-- Which code actions a server has. -/
structure CodeActionOptions where
  workDoneProgress : Option Bool := none
  codeActionKinds : Option (List CodeActionKind) := none
  resolveProvider : Option Bool := none

def CodeActionOptions.record : Record CodeActionOptions :=
  ⟨"CodeActionOptions", CodeActionOptions.mk,
    .own "workDoneProgress" (·.workDoneProgress) (.optional Codec.bool) <|
    .own "codeActionKinds" (·.codeActionKinds) (.optional CodeActionKind.codec.list) <|
    .own "resolveProvider" (·.resolveProvider) (.optional Codec.bool) .done⟩

def CodeActionOptions.codec : Codec CodeActionOptions := CodeActionOptions.record.codec

/-- What made the client ask. -/
inductive CodeActionTriggerKind where
  | invoked
  | automatic
deriving DecidableEq, Repr

/-- The number of a `CodeActionTriggerKind` in documents. -/
def CodeActionTriggerKind.toNat : CodeActionTriggerKind → Nat
  | .invoked => 1
  | .automatic => 2

def CodeActionTriggerKind.numbering : Numbering CodeActionTriggerKind :=
  ⟨"CodeActionTriggerKind", [.invoked, .automatic], CodeActionTriggerKind.toNat⟩

def CodeActionTriggerKind.codec : Codec CodeActionTriggerKind :=
  CodeActionTriggerKind.numbering.codec

/-- The problems at hand, and the kinds of actions that are wanted. -/
structure CodeActionContext where
  diagnostics : List Diagnostic := []
  kinds : Option (List CodeActionKind) := none
  triggerKind : Option CodeActionTriggerKind := none
deriving BEq

def CodeActionContext.record : Record CodeActionContext :=
  ⟨"CodeActionContext", CodeActionContext.mk,
    .own "diagnostics" (·.diagnostics) (.required Diagnostic.codec.list) <|
    .own "only" (·.kinds) (.trailing CodeActionKind.codec.list) <|
    .own "triggerKind" (·.triggerKind) (.trailing CodeActionTriggerKind.codec) .done⟩

def CodeActionContext.codec : Codec CodeActionContext := CodeActionContext.record.codec

/-- The client asks for the actions on a range. -/
structure CodeActionParams where
  textDocument : TextDocumentIdentifier
  range : Range
  context : CodeActionContext
  workDone : WorkDoneProgressParams := {}
  partialResult : PartialResultParams := {}
deriving BEq

def CodeActionParams.record : Record CodeActionParams :=
  ⟨"CodeActionParams", CodeActionParams.mk,
    .own "textDocument" (·.textDocument) (.required TextDocumentIdentifier.codec) <|
    .own "range" (·.range) (.required Range.codec) <|
    .own "context" (·.context) (.required CodeActionContext.codec) <|
    .part (·.workDone) WorkDoneProgressParams.record.part <|
    .part (·.partialResult) PartialResultParams.record.part .done⟩

def CodeActionParams.codec : Codec CodeActionParams := CodeActionParams.record.codec

/-- Why an action cannot be taken. -/
structure CodeActionDisabled where
  reason : String
deriving DecidableEq

def CodeActionDisabled.record : Record CodeActionDisabled :=
  ⟨"CodeActionDisabled", CodeActionDisabled.mk,
    .own "reason" (·.reason) (.required Codec.string) .done⟩

def CodeActionDisabled.codec : Codec CodeActionDisabled := CodeActionDisabled.record.codec

/-- An action on code. -/
structure CodeAction where
  title : String := ""
  kind : Option CodeActionKind := none
  diagnostics : Option (List Diagnostic) := none
  isPreferred : Option Bool := none
  disabled : Option CodeActionDisabled := none
  edit : Option WorkspaceEdit := none
  command : Option Command := none
  data : Option LspAny := none
deriving BEq

def CodeAction.record : Record CodeAction :=
  ⟨"CodeAction", CodeAction.mk,
    .own "title" (·.title) (.required Codec.string) <|
    .own "kind" (·.kind) (.trailing CodeActionKind.codec) <|
    .own "diagnostics" (·.diagnostics) (.trailing Diagnostic.codec.list) <|
    .own "isPreferred" (·.isPreferred) (.trailing Codec.bool) <|
    .own "disabled" (·.disabled) (.trailing CodeActionDisabled.codec) <|
    .own "edit" (·.edit) (.trailing WorkspaceEdit.codec) <|
    .own "command" (·.command) (.trailing Command.codec) <|
    .own "data" (·.data) (.trailing LspAny.codec) .done⟩

def CodeAction.codec : Codec CodeAction := CodeAction.record.codec

/-- A bare command, or an action. -/
inductive CodeActionOrCommand where
  | command (command : Command)
  | action (action : CodeAction)
deriving BEq

/-- Whether the member `command` is a name, as in a bare command. -/
def CodeActionOrCommand.isCommand (j : Json) : Bool :=
  match j.member? "command" with
  | some (.string _) => true
  | _ => false

def CodeActionOrCommand.codec : Codec CodeActionOrCommand :=
  .byValue
    (fun
      | .command c => Command.codec.encode c
      | .action a => CodeAction.codec.encode a)
    (fun j =>
      if isCommand j then (Command.codec.ofJson j).map .command
      else (CodeAction.codec.ofJson j).map .action)

/-- A command shown at a range. -/
structure CodeLens where
  range : Range
  command : Option Command := none
  data : Option LspAny := none

def CodeLens.record : Record CodeLens :=
  ⟨"CodeLens", CodeLens.mk,
    .own "range" (·.range) (.required Range.codec) <|
    .own "command" (·.command) (.trailing Command.codec) <|
    .own "data" (·.data) (.trailing LspAny.codec) .done⟩

def CodeLens.codec : Codec CodeLens := CodeLens.record.codec

/-- The kinds of actions that a client knows. -/
structure CodeActionKindValueSet where
  valueSet : List CodeActionKind := []

def CodeActionKindValueSet.record : Record CodeActionKindValueSet :=
  ⟨"CodeActionKindValueSet", CodeActionKindValueSet.mk,
    .own "valueSet" (·.valueSet) (.required CodeActionKind.codec.list) .done⟩

def CodeActionKindValueSet.codec : Codec CodeActionKindValueSet :=
  CodeActionKindValueSet.record.codec

/-- Whether a client takes actions, and not commands alone. -/
structure CodeActionLiteralSupport where
  codeActionKind : CodeActionKindValueSet := {}

def CodeActionLiteralSupport.record : Record CodeActionLiteralSupport :=
  ⟨"CodeActionLiteralSupport", CodeActionLiteralSupport.mk,
    .own "codeActionKind" (·.codeActionKind) (.required CodeActionKindValueSet.codec) .done⟩

def CodeActionLiteralSupport.codec : Codec CodeActionLiteralSupport :=
  CodeActionLiteralSupport.record.codec

/-- What a client can do with actions. -/
structure CodeActionClientCapabilities where
  dynamicRegistration : Option Bool := none
  codeActionLiteralSupport : Option CodeActionLiteralSupport := none
  isPreferredSupport : Option Bool := none
  dataSupport : Option Bool := none

def CodeActionClientCapabilities.record : Record CodeActionClientCapabilities :=
  ⟨"CodeActionClientCapabilities", CodeActionClientCapabilities.mk,
    .own "dynamicRegistration" (·.dynamicRegistration) (.trailing Codec.bool) <|
    .own "codeActionLiteralSupport" (·.codeActionLiteralSupport)
      (.trailing CodeActionLiteralSupport.codec) <|
    .own "isPreferredSupport" (·.isPreferredSupport) (.trailing Codec.bool) <|
    .own "dataSupport" (·.dataSupport) (.trailing Codec.bool) .done⟩

def CodeActionClientCapabilities.codec : Codec CodeActionClientCapabilities :=
  CodeActionClientCapabilities.record.codec

end LanguageServer
