import LanguageServer.Protocol.Provider

/-!
# Registrations

A server may announce features after the start, and withdraw them.
-/

namespace LanguageServer

/-- A feature announced under an identifier. -/
structure Registration where
  id : String
  method : String
  registerOptions : Option LspAny := none

def Registration.record : Record Registration :=
  ⟨"Registration", Registration.mk,
    .own "id" (·.id) (.required Codec.string) <|
    .own "method" (·.method) (.required Codec.string) <|
    .own "registerOptions" (·.registerOptions) (.trailing LspAny.codec) .done⟩

def Registration.codec : Codec Registration := Registration.record.codec

/-- Features are announced. -/
structure RegistrationParams where
  registrations : List Registration

def RegistrationParams.record : Record RegistrationParams :=
  ⟨"RegistrationParams", RegistrationParams.mk,
    .own "registrations" (·.registrations) (.required Registration.codec.list) .done⟩

def RegistrationParams.codec : Codec RegistrationParams := RegistrationParams.record.codec

/-- A feature withdrawn. -/
structure Unregistration where
  id : String
  method : String

def Unregistration.record : Record Unregistration :=
  ⟨"Unregistration", Unregistration.mk,
    .own "id" (·.id) (.required Codec.string) <|
    .own "method" (·.method) (.required Codec.string) .done⟩

def Unregistration.codec : Codec Unregistration := Unregistration.record.codec

/-- Features are withdrawn. -/
structure UnregistrationParams where
  unregistrations : List Unregistration

def UnregistrationParams.record : Record UnregistrationParams :=
  ⟨"UnregistrationParams", UnregistrationParams.mk,
    .own "unregisterations" (·.unregistrations) (.required Unregistration.codec.list) .done⟩

def UnregistrationParams.codec : Codec UnregistrationParams := UnregistrationParams.record.codec

end LanguageServer
