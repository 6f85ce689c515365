import LanguageServer.Protocol.Provider

/-!
# File operations

Files created, renamed and deleted by the user.
-/

namespace LanguageServer

/-- What a pattern applies to. -/
inductive FileOperationPatternKind where
  | file
  | folder
deriving DecidableEq, Repr

/-- The name of a `FileOperationPatternKind` in documents. -/
def FileOperationPatternKind.name : FileOperationPatternKind → String
  | .file => "file"
  | .folder => "folder"

def FileOperationPatternKind.enumeration : Enumeration FileOperationPatternKind :=
  ⟨[.file, .folder], FileOperationPatternKind.name⟩

def FileOperationPatternKind.codec : Codec FileOperationPatternKind :=
  FileOperationPatternKind.enumeration.codec

/-- How a pattern is matched. -/
structure FileOperationPatternOptions where
  ignoreCase : Option Bool := none

def FileOperationPatternOptions.record : Record FileOperationPatternOptions :=
  ⟨"FileOperationPatternOptions", FileOperationPatternOptions.mk,
    .own "ignoreCase" (·.ignoreCase) (.optional Codec.bool) .done⟩

def FileOperationPatternOptions.codec : Codec FileOperationPatternOptions :=
  FileOperationPatternOptions.record.codec

/-- Names of files by a pattern. -/
structure FileOperationPattern where
  glob : String
  appliesTo : Option FileOperationPatternKind := none
  options : Option FileOperationPatternOptions := none

def FileOperationPattern.record : Record FileOperationPattern :=
  ⟨"FileOperationPattern", FileOperationPattern.mk,
    .own "glob" (·.glob) (.required Codec.string) <|
    .own "matches" (·.appliesTo) (.optional FileOperationPatternKind.codec) <|
    .own "options" (·.options) (.optional FileOperationPatternOptions.codec) .done⟩

def FileOperationPattern.codec : Codec FileOperationPattern := FileOperationPattern.record.codec

/-- Files of a scheme by their names. -/
structure FileOperationFilter where
  scheme : Option String := none
  pattern : FileOperationPattern

def FileOperationFilter.record : Record FileOperationFilter :=
  ⟨"FileOperationFilter", FileOperationFilter.mk,
    .own "scheme" (·.scheme) (.optional Codec.string) <|
    .own "pattern" (·.pattern) (.required FileOperationPattern.codec) .done⟩

def FileOperationFilter.codec : Codec FileOperationFilter := FileOperationFilter.record.codec

/-- The files that the server wants to hear about. -/
structure FileOperationRegistrationOptions where
  filters : List FileOperationFilter := []

def FileOperationRegistrationOptions.record : Record FileOperationRegistrationOptions :=
  ⟨"FileOperationRegistrationOptions", FileOperationRegistrationOptions.mk,
    .own "filters" (·.filters) (.required FileOperationFilter.codec.list) .done⟩

def FileOperationRegistrationOptions.codec : Codec FileOperationRegistrationOptions :=
  FileOperationRegistrationOptions.record.codec

/-- The operations that the server wants to hear about. -/
structure FileOperationOptions where
  didCreate : Option FileOperationRegistrationOptions := none
  willCreate : Option FileOperationRegistrationOptions := none
  didRename : Option FileOperationRegistrationOptions := none
  willRename : Option FileOperationRegistrationOptions := none
  didDelete : Option FileOperationRegistrationOptions := none
  willDelete : Option FileOperationRegistrationOptions := none

def FileOperationOptions.record : Record FileOperationOptions :=
  ⟨"FileOperationOptions", FileOperationOptions.mk,
    .own "didCreate" (·.didCreate) (.optional FileOperationRegistrationOptions.codec) <|
    .own "willCreate" (·.willCreate) (.optional FileOperationRegistrationOptions.codec) <|
    .own "didRename" (·.didRename) (.optional FileOperationRegistrationOptions.codec) <|
    .own "willRename" (·.willRename) (.optional FileOperationRegistrationOptions.codec) <|
    .own "didDelete" (·.didDelete) (.optional FileOperationRegistrationOptions.codec) <|
    .own "willDelete" (·.willDelete) (.optional FileOperationRegistrationOptions.codec) .done⟩

def FileOperationOptions.codec : Codec FileOperationOptions := FileOperationOptions.record.codec

/-- The operations that a client tells about. -/
structure FileOperationClientCapabilities where
  dynamicRegistration : Option Bool := none
  didCreate : Option Bool := none
  willCreate : Option Bool := none
  didRename : Option Bool := none
  willRename : Option Bool := none
  didDelete : Option Bool := none
  willDelete : Option Bool := none

def FileOperationClientCapabilities.record : Record FileOperationClientCapabilities :=
  ⟨"FileOperationClientCapabilities", FileOperationClientCapabilities.mk,
    .own "dynamicRegistration" (·.dynamicRegistration) (.trailing Codec.bool) <|
    .own "didCreate" (·.didCreate) (.trailing Codec.bool) <|
    .own "willCreate" (·.willCreate) (.trailing Codec.bool) <|
    .own "didRename" (·.didRename) (.trailing Codec.bool) <|
    .own "willRename" (·.willRename) (.trailing Codec.bool) <|
    .own "didDelete" (·.didDelete) (.trailing Codec.bool) <|
    .own "willDelete" (·.willDelete) (.trailing Codec.bool) .done⟩

def FileOperationClientCapabilities.codec : Codec FileOperationClientCapabilities :=
  FileOperationClientCapabilities.record.codec

/-- A file that is created. -/
structure FileCreate where
  uri : String

def FileCreate.record : Record FileCreate :=
  ⟨"FileCreate", FileCreate.mk,
    .own "uri" (·.uri) (.required Codec.string) .done⟩

def FileCreate.codec : Codec FileCreate := FileCreate.record.codec

/-- A file that is renamed. -/
structure FileRename where
  oldUri : String
  newUri : String

def FileRename.record : Record FileRename :=
  ⟨"FileRename", FileRename.mk,
    .own "oldUri" (·.oldUri) (.required Codec.string) <|
    .own "newUri" (·.newUri) (.required Codec.string) .done⟩

def FileRename.codec : Codec FileRename := FileRename.record.codec

/-- A file that is deleted. -/
structure FileDelete where
  uri : String

def FileDelete.record : Record FileDelete :=
  ⟨"FileDelete", FileDelete.mk,
    .own "uri" (·.uri) (.required Codec.string) .done⟩

def FileDelete.codec : Codec FileDelete := FileDelete.record.codec

/-- Files are created. -/
structure CreateFilesParams where
  files : List FileCreate

def CreateFilesParams.record : Record CreateFilesParams :=
  ⟨"CreateFilesParams", CreateFilesParams.mk,
    .own "files" (·.files) (.required FileCreate.codec.list) .done⟩

def CreateFilesParams.codec : Codec CreateFilesParams := CreateFilesParams.record.codec

/-- Files are renamed. -/
structure RenameFilesParams where
  files : List FileRename

def RenameFilesParams.record : Record RenameFilesParams :=
  ⟨"RenameFilesParams", RenameFilesParams.mk,
    .own "files" (·.files) (.required FileRename.codec.list) .done⟩

def RenameFilesParams.codec : Codec RenameFilesParams := RenameFilesParams.record.codec

/-- Files are deleted. -/
structure DeleteFilesParams where
  files : List FileDelete

def DeleteFilesParams.record : Record DeleteFilesParams :=
  ⟨"DeleteFilesParams", DeleteFilesParams.mk,
    .own "files" (·.files) (.required FileDelete.codec.list) .done⟩

def DeleteFilesParams.codec : Codec DeleteFilesParams := DeleteFilesParams.record.codec

end LanguageServer
