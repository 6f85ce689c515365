import LanguageServer.Proofs.Codec.Recovers
import LanguageServer.Proofs.Protocol.Edit
import LanguageServer.Proofs.Protocol.Message
import LanguageServer.Protocol.Command
import LanguageServer.Protocol.Diagnostic
import LanguageServer.Protocol.Markup

/-!
# Texts, commands and diagnostics are read back

What other results are made of.  A command and a diagnostic carry values of any kind, so that they
come back as equal ones: `Command.recovers`, `Diagnostic.recovers`.  `Command.WellFormed` and
`Diagnostic.WellFormed` say what their values have to be like for that.
-/

namespace LanguageServer

open Field.IsFaithful (required optional)

/-- Locations are read back. -/
theorem Location.isFaithful : Location.record.IsFaithful where
  nodup := by decide
  build_make _ := rfl
  fields := ⟨.required .string, .required Range.isFaithful.codec, trivial⟩

/-! ## Texts -/

/-- Kinds of markup are read back by their names. -/
theorem MarkupKind.isFaithful : MarkupKind.codec.IsFaithful :=
  Enumeration.isFaithful fun k => by cases k <;> rfl

/-- Markup is read back with its kind. -/
theorem MarkupContent.isFaithful : MarkupContent.record.IsFaithful where
  nodup := by decide
  build_make _ := rfl
  fields := ⟨.required MarkupKind.isFaithful, .required .string, trivial⟩

/-- A text is read back as a text, and markup as markup: one is a string and the other an object. -/
theorem StringOrMarkupContent.isFaithful : StringOrMarkupContent.codec.IsFaithful where
  readsBack
    | .string _ => .bare rfl
    | .markup m => .notBare (MarkupContent.isFaithful.codec.readsBack m) (fun _ => nofun) rfl
  ne_null
    | .string _ | .markup _ => nofun

/-! ## Commands -/

/-- The arguments of a command can be written and read. -/
def Command.WellFormed (c : Command) : Prop := ∀ vs ∈ c.arguments, ∀ v ∈ vs, v.WellFormed

/-- The fields of a command are read back as those of an equal one. -/
theorem Command.exists_readsBack {c : Command} (h : c.WellFormed) :
    ∃ c', record.fields.ReadsBack c c' ∧ (c' == c) = true := by
  obtain ⟨arguments, hread, heq⟩ := LspAny.list_recovers h
  refine ⟨{ c with arguments }, ⟨required .string _, required .string _, hread, trivial⟩, ?_⟩
  show instBEqCommand.beq _ _ = true
  simp only [instBEqCommand.beq, beq_self_eq_true, heq, Bool.and_self]

/-- A command is recovered. -/
theorem Command.recovers {c : Command} (h : c.WellFormed) : codec.Recovers c :=
  have ⟨c', hread, heq⟩ := exists_readsBack h
  ⟨c', Record.readsBack (by decide) rfl hread, heq⟩

/-- A command comes back from a member that may be missing. -/
theorem Command.member_recovers {o : Option Command} (h : ∀ c ∈ o, c.WellFormed) :
    (Field.trailing codec).Recovers o :=
  .trailing (.optional (fun c hc => recovers (h c hc)) fun _ _ => nofun)

/-! ## Diagnostics -/

/-- Severities are read back by their numbers. -/
theorem DiagnosticSeverity.isFaithful : DiagnosticSeverity.codec.IsFaithful :=
  Numbering.isFaithful fun k => by cases k <;> exact ⟨by decide, rfl⟩

/-- Tags of diagnostics are read back by their numbers. -/
theorem DiagnosticTag.isFaithful : DiagnosticTag.codec.IsFaithful :=
  Numbering.isFaithful fun k => by cases k <;> exact ⟨by decide, rfl⟩

/-- Descriptions of codes are read back. -/
theorem CodeDescription.isFaithful : CodeDescription.record.IsFaithful where
  nodup := by decide
  build_make _ := rfl
  fields := ⟨.required .string, trivial⟩

/-- Related information is read back. -/
theorem DiagnosticRelatedInformation.isFaithful :
    DiagnosticRelatedInformation.record.IsFaithful where
  nodup := by decide
  build_make _ := rfl
  fields := ⟨.required Location.isFaithful.codec, .required .string, trivial⟩

/-- The data of a diagnostic can be written and read. -/
def Diagnostic.WellFormed (d : Diagnostic) : Prop := ∀ v ∈ d.data, v.IsData

/-- A diagnostic is recovered if its data can be written. -/
theorem Diagnostic.recovers {d : Diagnostic} (h : d.WellFormed) : codec.Recovers d := by
  obtain ⟨data, hread, heq⟩ := LspAny.data_recovers h
  refine ⟨{ d with data }, Record.readsBack (by decide) rfl ?_, ?_⟩
  · exact ⟨required Range.isFaithful.codec _, optional DiagnosticSeverity.isFaithful _,
      optional IntOrString.isFaithful _, optional CodeDescription.isFaithful.codec _,
      optional .string _, required .string _, optional DiagnosticTag.isFaithful.list _,
      optional DiagnosticRelatedInformation.isFaithful.codec.list _, hread, trivial⟩
  · show instBEqDiagnostic.beq _ _ = true
    simp only [instBEqDiagnostic.beq, beq_self_eq_true, heq, Bool.and_self]

end LanguageServer
