import LanguageServer.Protocol.Provider

/-!
# The workspace

Folders, settings and files of the workspace, and how the server hears about their changes.
-/

namespace LanguageServer

open Json (Source)

/-- A folder of the workspace. -/
structure WorkspaceFolder where
  uri : Uri
  name : String

def WorkspaceFolder.record : Record WorkspaceFolder :=
  ⟨"WorkspaceFolder", WorkspaceFolder.mk,
    .own "uri" (·.uri) (.required Codec.string) <|
    .own "name" (·.name) (.required Codec.string) .done⟩

def WorkspaceFolder.codec : Codec WorkspaceFolder := WorkspaceFolder.record.codec

/-- Whether the server deals with many folders. -/
structure WorkspaceFoldersServerCapabilities where
  supported : Option Bool := none
  changeNotifications : Option BoolOrString := none

def WorkspaceFoldersServerCapabilities.record : Record WorkspaceFoldersServerCapabilities :=
  ⟨"WorkspaceFoldersServerCapabilities", WorkspaceFoldersServerCapabilities.mk,
    .own "supported" (·.supported) (.optional Codec.bool) <|
    .own "changeNotifications" (·.changeNotifications) (.optional BoolOrString.codec) .done⟩

def WorkspaceFoldersServerCapabilities.codec : Codec WorkspaceFoldersServerCapabilities :=
  WorkspaceFoldersServerCapabilities.record.codec

/-- Folders that came and went. -/
structure WorkspaceFoldersChangeEvent where
  added : List WorkspaceFolder := []
  removed : List WorkspaceFolder := []

def WorkspaceFoldersChangeEvent.record : Record WorkspaceFoldersChangeEvent :=
  ⟨"WorkspaceFoldersChangeEvent", WorkspaceFoldersChangeEvent.mk,
    .own "added" (·.added) (.required WorkspaceFolder.codec.list) <|
    .own "removed" (·.removed) (.required WorkspaceFolder.codec.list) .done⟩

def WorkspaceFoldersChangeEvent.codec : Codec WorkspaceFoldersChangeEvent :=
  WorkspaceFoldersChangeEvent.record.codec

/-- Folders came and went. -/
structure DidChangeWorkspaceFoldersParams where
  event : WorkspaceFoldersChangeEvent

def DidChangeWorkspaceFoldersParams.record : Record DidChangeWorkspaceFoldersParams :=
  ⟨"DidChangeWorkspaceFoldersParams", DidChangeWorkspaceFoldersParams.mk,
    .own "event" (·.event) (.required WorkspaceFoldersChangeEvent.codec) .done⟩

def DidChangeWorkspaceFoldersParams.codec : Codec DidChangeWorkspaceFoldersParams :=
  DidChangeWorkspaceFoldersParams.record.codec

/-- The settings were changed. -/
structure DidChangeConfigurationParams where
  settings : LspAny

def DidChangeConfigurationParams.record : Record DidChangeConfigurationParams :=
  ⟨"DidChangeConfigurationParams", DidChangeConfigurationParams.mk,
    .own "settings" (·.settings) (.required LspAny.codec) .done⟩

def DidChangeConfigurationParams.codec : Codec DidChangeConfigurationParams :=
  DidChangeConfigurationParams.record.codec

/-- A group of settings, for a resource. -/
structure ConfigurationItem where
  scopeUri : Option Uri := none
  sectionName : Option String := none

def ConfigurationItem.record : Record ConfigurationItem :=
  ⟨"ConfigurationItem", ConfigurationItem.mk,
    .own "scopeUri" (·.scopeUri) (.trailing Codec.string) <|
    .own "section" (·.sectionName) (.trailing Codec.string) .done⟩

def ConfigurationItem.codec : Codec ConfigurationItem := ConfigurationItem.record.codec

/-- A group of settings, for no resource in particular. -/
def ConfigurationItem.ofSection (name : String) : ConfigurationItem := { sectionName := some name }

/-- The server asks for settings. -/
structure ConfigurationParams where
  items : List ConfigurationItem

def ConfigurationParams.record : Record ConfigurationParams :=
  ⟨"ConfigurationParams", ConfigurationParams.mk,
    .own "items" (·.items) (.required ConfigurationItem.codec.list) .done⟩

def ConfigurationParams.codec : Codec ConfigurationParams := ConfigurationParams.record.codec

/-- What happened to a file. -/
inductive FileChangeType where
  | created
  | changed
  | deleted
deriving DecidableEq, Repr

/-- The number of a `FileChangeType` in documents. -/
def FileChangeType.toNat : FileChangeType → Nat
  | .created => 1
  | .changed => 2
  | .deleted => 3

def FileChangeType.numbering : Numbering FileChangeType :=
  ⟨"FileChangeType", [.created, .changed, .deleted], FileChangeType.toNat⟩

def FileChangeType.codec : Codec FileChangeType := FileChangeType.numbering.codec

/-- What happened to which file. -/
structure FileEvent where
  uri : DocumentUri
  type : FileChangeType

def FileEvent.record : Record FileEvent :=
  ⟨"FileEvent", FileEvent.mk,
    .own "uri" (·.uri) (.required Codec.string) <|
    .own "type" (·.type) (.required FileChangeType.codec) .done⟩

def FileEvent.codec : Codec FileEvent := FileEvent.record.codec

/-- Something happened to watched files. -/
structure DidChangeWatchedFilesParams where
  changes : List FileEvent

def DidChangeWatchedFilesParams.record : Record DidChangeWatchedFilesParams :=
  ⟨"DidChangeWatchedFilesParams", DidChangeWatchedFilesParams.mk,
    .own "changes" (·.changes) (.required FileEvent.codec.list) .done⟩

def DidChangeWatchedFilesParams.codec : Codec DidChangeWatchedFilesParams :=
  DidChangeWatchedFilesParams.record.codec

/-- The events that a watcher waits for, as the bits of a word. -/
structure WatchKind where
  bits : UInt32
deriving DecidableEq, Repr

namespace WatchKind

/-- A file is created. -/
def create : WatchKind := ⟨1⟩

/-- A file is changed. -/
def change : WatchKind := ⟨2⟩

/-- A file is deleted. -/
def delete : WatchKind := ⟨4⟩

/-- All events. -/
def all : WatchKind := ⟨7⟩

/-- The events of both. -/
def union (a b : WatchKind) : WatchKind := ⟨a.bits ||| b.bits⟩

/-- Whether all events of `b` are among those of `a`. -/
def contains (a b : WatchKind) : Bool := a.bits &&& b.bits == b.bits

def codec : Codec WatchKind := Codec.uint32.map .mk (·.bits)

end WatchKind

/-- The files to be watched by a pattern. -/
structure FileSystemWatcher where
  globPattern : String
  kind : Option WatchKind := none

def FileSystemWatcher.record : Record FileSystemWatcher :=
  ⟨"FileSystemWatcher", FileSystemWatcher.mk,
    .own "globPattern" (·.globPattern) (.required Codec.string) <|
    .own "kind" (·.kind) (.trailing WatchKind.codec) .done⟩

def FileSystemWatcher.codec : Codec FileSystemWatcher := FileSystemWatcher.record.codec

/-- All the files to be watched. -/
structure DidChangeWatchedFilesRegistrationOptions where
  watchers : List FileSystemWatcher

def DidChangeWatchedFilesRegistrationOptions.record :
    Record DidChangeWatchedFilesRegistrationOptions :=
  ⟨"DidChangeWatchedFilesRegistrationOptions", DidChangeWatchedFilesRegistrationOptions.mk,
    .own "watchers" (·.watchers) (.required FileSystemWatcher.codec.list) .done⟩

def DidChangeWatchedFilesRegistrationOptions.codec :
    Codec DidChangeWatchedFilesRegistrationOptions :=
  DidChangeWatchedFilesRegistrationOptions.record.codec

/-- How a client can watch files. -/
structure DidChangeWatchedFilesClientCapabilities where
  dynamicRegistration : Option Bool := none
  relativePatternSupport : Option Bool := none

def DidChangeWatchedFilesClientCapabilities.record :
    Record DidChangeWatchedFilesClientCapabilities :=
  ⟨"DidChangeWatchedFilesClientCapabilities", DidChangeWatchedFilesClientCapabilities.mk,
    .own "dynamicRegistration" (·.dynamicRegistration) (.trailing Codec.bool) <|
    .own "relativePatternSupport" (·.relativePatternSupport) (.trailing Codec.bool) .done⟩

def DidChangeWatchedFilesClientCapabilities.codec : Codec DidChangeWatchedFilesClientCapabilities :=
  DidChangeWatchedFilesClientCapabilities.record.codec

end LanguageServer
