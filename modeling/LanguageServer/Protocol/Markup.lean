import LanguageServer.Protocol.Identifier

/-!
# Text for people

Text shown to a user is plain or Markdown; some places also take a bare string.
-/

namespace LanguageServer

/-- How a text is to be read. -/
inductive MarkupKind where
  | plainText
  | markdown
deriving DecidableEq, Repr

/-- The name of a `MarkupKind` in documents. -/
def MarkupKind.name : MarkupKind → String
  | .plainText => "plaintext"
  | .markdown => "markdown"

def MarkupKind.enumeration : Enumeration MarkupKind :=
  ⟨[.plainText, .markdown], MarkupKind.name⟩

def MarkupKind.codec : Codec MarkupKind := MarkupKind.enumeration.codec

/-- A text and how it is to be read. -/
structure MarkupContent where
  kind : MarkupKind
  value : String
deriving DecidableEq

def MarkupContent.record : Record MarkupContent :=
  ⟨"MarkupContent", MarkupContent.mk,
    .own "kind" (·.kind) (.required MarkupKind.codec) <|
    .own "value" (·.value) (.required Codec.string) .done⟩

def MarkupContent.codec : Codec MarkupContent := MarkupContent.record.codec

/-- A Markdown text. -/
def MarkupContent.ofMarkdown (value : String) : MarkupContent := ⟨.markdown, value⟩

/-- A plain text. -/
def MarkupContent.ofPlainText (value : String) : MarkupContent := ⟨.plainText, value⟩

/-- A bare string, or a text that says how it is to be read. -/
inductive StringOrMarkupContent where
  | string (value : String)
  | markup (content : MarkupContent)
deriving DecidableEq

def StringOrMarkupContent.codec : Codec StringOrMarkupContent :=
  .untagged "StringOrMarkupContent"
    (fun
      | .string s => .string s
      | .markup m => MarkupContent.codec.encode m)
    [fun s => (Codec.string.decode s).map .string,
      fun s => (MarkupContent.codec.decode s).map .markup]

end LanguageServer
