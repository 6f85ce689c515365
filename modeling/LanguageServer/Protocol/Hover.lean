import LanguageServer.Protocol.Markup
import LanguageServer.Protocol.Progress
import LanguageServer.Protocol.Provider

/-!
# Hovers

The client asks what there is to say about a position.
-/

namespace LanguageServer

/-- A text in a language. -/
structure LanguageString where
  language : String
  value : String

def LanguageString.record : Record LanguageString :=
  ⟨"LanguageString", LanguageString.mk,
    .own "language" (·.language) (.required Codec.string) <|
    .own "value" (·.value) (.required Codec.string) .done⟩

def LanguageString.codec : Codec LanguageString := LanguageString.record.codec

/-- A Markdown text, or a text in a language. -/
inductive MarkedString where
  | string (value : String)
  | language (value : LanguageString)

def MarkedString.codec : Codec MarkedString :=
  .untagged "MarkedString"
    (fun
      | .string s => .string s
      | .language l => LanguageString.codec.encode l)
    [fun s => (Codec.string.decode s).map .string,
      fun s => (LanguageString.codec.decode s).map .language]

/-- What a hover says. -/
inductive HoverContents where
  | markup (content : MarkupContent)
  | scalar (text : MarkedString)
  | array (texts : List MarkedString)

/-- A text that says how it is to be read has a kind. -/
def HoverContents.codec : Codec HoverContents :=
  .byValue
    (fun
      | .markup m => MarkupContent.codec.encode m
      | .scalar t => MarkedString.codec.encode t
      | .array ts => MarkedString.codec.list.encode ts)
    (fun
      | .array is => (MarkedString.codec.list.ofJson (.array is)).map .array
      | .object ms =>
        if Members.contains "kind" ms then (MarkupContent.codec.ofJson (.object ms)).map .markup
        else (MarkedString.codec.ofJson (.object ms)).map .scalar
      | .string s => (MarkedString.codec.ofJson (.string s)).map .scalar
      | j => Codec.unfit "hover contents" j)

/-- What there is to say about a position. -/
structure Hover where
  contents : HoverContents
  range : Option Range := none

def Hover.record : Record Hover :=
  ⟨"Hover", Hover.mk,
    .own "contents" (·.contents) (.required HoverContents.codec) <|
    .own "range" (·.range) (.trailing Range.codec) .done⟩

def Hover.codec : Codec Hover := Hover.record.codec

/-- A hover of a Markdown text. -/
def Hover.ofMarkdown (value : String) : Hover := { contents := .markup (.ofMarkdown value) }

/-- Which hovers a client can show. -/
structure HoverClientCapabilities where
  dynamicRegistration : Option Bool := none
  contentFormat : Option (List MarkupKind) := none

def HoverClientCapabilities.record : Record HoverClientCapabilities :=
  ⟨"HoverClientCapabilities", HoverClientCapabilities.mk,
    .own "dynamicRegistration" (·.dynamicRegistration) (.trailing Codec.bool) <|
    .own "contentFormat" (·.contentFormat) (.known MarkupKind.codec) .done⟩

def HoverClientCapabilities.codec : Codec HoverClientCapabilities :=
  HoverClientCapabilities.record.codec

end LanguageServer
