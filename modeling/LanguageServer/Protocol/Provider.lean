import LanguageServer.Protocol.Progress

/-!
# How features are announced

A server announces a feature by a boolean, by options, or by options together with the documents
they apply to and an identifier under which they can be withdrawn. Which of these a document is
depends on its shape and on its keys alone.
-/

namespace LanguageServer

/-- Refuse a document that none of a union's rules admits. -/
def Codec.unfit {α : Type} (wanted : String) (j : Json) : Decoded α :=
  .error (.unplaced (.unfit wanted j))

/-- A feature switched by a boolean or described by options. -/
inductive BoolOrOptions (α : Type) where
  | bool (value : Bool)
  | options (options : α)

def BoolOrOptions.codec {α : Type} (c : Codec α) : Codec (BoolOrOptions α) :=
  .byValue
    (fun
      | .bool b => .bool b
      | .options o => c.encode o)
    (fun
      | .bool b => .ok (.bool b)
      | .object ms => (c.ofJson (.object ms)).map .options
      | j => Codec.unfit "a boolean or an options object" j)

/-- Options with the documents they apply to and the identifier of the registration. -/
structure RegistrationOptions (α : Type) where
  documentSelector : Option DocumentSelector := none
  options : α
  id : Option String := none

def RegistrationOptions.record {α : Type} (r : Record α) : Record (RegistrationOptions α) :=
  ⟨"RegistrationOptions", RegistrationOptions.mk,
    .own "documentSelector" (·.documentSelector) (.nullableTrailing DocumentFilter.codec.list) <|
    .part (·.options) r.part <|
    .own "id" (·.id) (.trailing Codec.string) .done⟩

def RegistrationOptions.codec {α : Type} (r : Record α) : Codec (RegistrationOptions α) :=
  (RegistrationOptions.record r).codec

/-- Whether an object is read as a registration. -/
def RegistrationOptions.admits (members : Members Json) : Bool :=
  members.contains "documentSelector" || members.contains "id"

/-- Options, with or without a registration. -/
inductive OptionsOrRegistration (α : Type) where
  | options (options : α)
  | registration (options : RegistrationOptions α)

namespace OptionsOrRegistration

variable {α : Type}

def codec (r : Record α) : Codec (OptionsOrRegistration α) :=
  .byValue
    (fun
      | .options o => r.codec.encode o
      | .registration o => (RegistrationOptions.codec r).encode o)
    (fun
      | .object ms =>
        if RegistrationOptions.admits ms then
          ((RegistrationOptions.codec r).ofJson (.object ms)).map .registration
        else (r.codec.ofJson (.object ms)).map .options
      | j => Codec.unfit "options or registration options" j)

/-- The options, in a registration or not. -/
def get : OptionsOrRegistration α → α
  | .options o => o
  | .registration o => o.options

/-- Change the options where they are. -/
def modify (f : α → α) : OptionsOrRegistration α → OptionsOrRegistration α
  | .options o => .options (f o)
  | .registration o => .registration { o with options := f o.options }

end OptionsOrRegistration

/-- A feature switched by a boolean or described by options, with or without a registration. -/
inductive ProviderCapability (α : Type) where
  | bool (value : Bool)
  | options (options : α)
  | registration (options : RegistrationOptions α)

def ProviderCapability.codec {α : Type} (r : Record α) : Codec (ProviderCapability α) :=
  .byValue
    (fun
      | .bool b => .bool b
      | .options o => r.codec.encode o
      | .registration o => (RegistrationOptions.codec r).encode o)
    (fun
      | .bool b => .ok (.bool b)
      | .object ms =>
        if RegistrationOptions.admits ms then
          ((RegistrationOptions.codec r).ofJson (.object ms)).map .registration
        else (r.codec.ofJson (.object ms)).map .options
      | j => Codec.unfit "a boolean, options or registration options" j)

/-- Whether the client lets a feature be announced later. -/
structure DynamicRegistrationClientCapabilities where
  dynamicRegistration : Option Bool := none

def DynamicRegistrationClientCapabilities.record : Record DynamicRegistrationClientCapabilities :=
  ⟨"DynamicRegistrationClientCapabilities", DynamicRegistrationClientCapabilities.mk,
    .own "dynamicRegistration" (·.dynamicRegistration) (.trailing Codec.bool) .done⟩

def DynamicRegistrationClientCapabilities.codec : Codec DynamicRegistrationClientCapabilities :=
  DynamicRegistrationClientCapabilities.record.codec

/-- Whether the client can be asked to ask again. -/
structure RefreshClientCapabilities where
  refreshSupport : Option Bool := none

def RefreshClientCapabilities.record : Record RefreshClientCapabilities :=
  ⟨"RefreshClientCapabilities", RefreshClientCapabilities.mk,
    .own "refreshSupport" (·.refreshSupport) (.trailing Codec.bool) .done⟩

def RefreshClientCapabilities.codec : Codec RefreshClientCapabilities :=
  RefreshClientCapabilities.record.codec

end LanguageServer
