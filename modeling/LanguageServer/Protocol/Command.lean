import LanguageServer.Protocol.Provider

/-!
# Commands

A command has a title for the user and a name for the server, and takes arguments of any kind.
-/

namespace LanguageServer

/-- A command as it is offered to the user. -/
structure Command where
  title : String
  command : String
  arguments : Option (List LspAny) := none
deriving BEq

def Command.record : Record Command :=
  ⟨"Command", Command.mk,
    .own "title" (·.title) (.required Codec.string) <|
    .own "command" (·.command) (.required Codec.string) <|
    .own "arguments" (·.arguments) (.optional LspAny.codec.list) .done⟩

def Command.codec : Codec Command := Command.record.codec

/-- A command without arguments. -/
def Command.new (title command : String) : Command := { title, command }

/-- The commands that a server executes. -/
structure ExecuteCommandOptions where
  workDoneProgress : Option Bool := none
  commands : List String := []

def ExecuteCommandOptions.record : Record ExecuteCommandOptions :=
  ⟨"ExecuteCommandOptions", ExecuteCommandOptions.mk,
    .own "workDoneProgress" (·.workDoneProgress) (.optional Codec.bool) <|
    .own "commands" (·.commands) (.required Codec.string.list) .done⟩

def ExecuteCommandOptions.codec : Codec ExecuteCommandOptions :=
  ExecuteCommandOptions.record.codec

/-- The client asks for a command to be executed. -/
structure ExecuteCommandParams where
  command : String
  arguments : Option (List LspAny) := none
  workDone : WorkDoneProgressParams := {}
deriving BEq

def ExecuteCommandParams.record : Record ExecuteCommandParams :=
  ⟨"ExecuteCommandParams", ExecuteCommandParams.mk,
    .own "command" (·.command) (.required Codec.string) <|
    .own "arguments" (·.arguments) (.trailing LspAny.codec.list) <|
    .part (·.workDone) WorkDoneProgressParams.record.part .done⟩

def ExecuteCommandParams.codec : Codec ExecuteCommandParams := ExecuteCommandParams.record.codec

end LanguageServer
