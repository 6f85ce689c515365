import LanguageServer.Proofs.Codec.Record
import LanguageServer.Protocol.Provider

/-!
# Announcements of features are read back

Options and registrations are told apart by two keys.  Options that have neither of them, which is
what `Record.IsRegistrable` asks, are read back as options and as part of a registration, and the
three unions built on them are faithful: `BoolOrOptions.isFaithful`,
`OptionsOrRegistration.isFaithful` and `ProviderCapability.isFaithful`.
-/

namespace LanguageServer

open Json (Source Place)

theorem WorkDoneProgressOptions.isFaithful : WorkDoneProgressOptions.record.IsFaithful where
  nodup := by decide
  build_make _ := rfl
  fields := ⟨.optional .bool, trivial⟩

theorem ResolveOptions.isFaithful : ResolveOptions.record.IsFaithful where
  nodup := by decide
  build_make _ := rfl
  fields := ⟨.optional .bool, .optional .bool, trivial⟩

theorem DocumentFilter.isFaithful : DocumentFilter.record.IsFaithful where
  nodup := by decide
  build_make _ := rfl
  fields := ⟨.optional .string, .optional .string, .optional .string, trivial⟩

variable {α : Type} {r : Record α}

/-- A switch or options are told apart by the kind of their document. -/
theorem BoolOrOptions.isFaithful (h : r.IsFaithful) : (BoolOrOptions.codec r.codec).IsFaithful where
  readsBack
    | .bool b => .byValue (.bool b) rfl
    | .options o => .alternative (h.codec.readsBack o) rfl rfl
  ne_null
    | .bool _ => nofun
    | .options o => h.codec.ne_null o

/-- Options that no registration is taken for. -/
structure Record.IsRegistrable (r : Record α) : Prop extends r.IsFaithful where
  noParts : r.fields.hasParts = false
  noSelector : "documentSelector" ∉ r.fields.keys
  noId : "id" ∉ r.fields.keys

namespace RegistrationOptions

/-- What registers a provider comes back, if its options do. -/
theorem isFaithful (h : r.IsRegistrable) : (RegistrationOptions.record r).IsFaithful where
  nodup := by
    have := h.nodup
    rw [Fields.partKeys_eq_nil h.noParts, List.append_nil] at this
    have hpart : r.part.keys = some r.fields.keys := rfl
    simp [RegistrationOptions.record, Fields.keys, Fields.partKeys, hpart, this, h.noSelector,
      h.noId]
  build_make _ := rfl
  fields := ⟨.nullableTrailing DocumentFilter.isFaithful.codec.list, h.part h.noParts,
    .trailing .string, trivial⟩

/-- Options alone do not pass as a registration. -/
theorem admits_options (h : r.IsRegistrable) (o : α) :
    admits (Members.ofList (r.fields.encode o)) = false := by
  have hnone {k : String} (hk : k ∉ r.fields.keys) :
      Members.get? k (Members.ofList (r.fields.encode o)) = none :=
    h.member?_eq_none o k (by rwa [Fields.partKeys_eq_nil h.noParts, List.append_nil])
  simp only [admits, Members.contains, hnone h.noSelector, hnone h.noId]
  rfl

/-- A registration is known by its selector, which is written even when it is missing. -/
theorem admits_registration (h : r.IsRegistrable) (o : RegistrationOptions α) :
    admits (Members.ofList ((RegistrationOptions.record r).fields.encode o)) = true := by
  simp only [admits, Members.contains, (isFaithful h).get?_encode]
  rfl

end RegistrationOptions

/-- Options and registrations are told apart. -/
theorem OptionsOrRegistration.isFaithful (h : r.IsRegistrable) :
    (OptionsOrRegistration.codec r).IsFaithful where
  readsBack
    | .options o => by
      refine .alternative (h.codec.readsBack o) rfl (if_neg ?_)
      simp [RegistrationOptions.admits_options h o]
    | .registration o =>
      .alternative ((RegistrationOptions.isFaithful h).codec.readsBack o) rfl
        (if_pos (RegistrationOptions.admits_registration h o))
  ne_null
    | .options _ | .registration _ => nofun

/-- A truth value, options and a registration are told apart. -/
theorem ProviderCapability.isFaithful (h : r.IsRegistrable) :
    (ProviderCapability.codec r).IsFaithful where
  readsBack
    | .bool b => .byValue (.bool b) rfl
    | .options o => by
      refine .alternative (h.codec.readsBack o) rfl (if_neg ?_)
      simp [RegistrationOptions.admits_options h o]
    | .registration o =>
      .alternative ((RegistrationOptions.isFaithful h).codec.readsBack o) rfl
        (if_pos (RegistrationOptions.admits_registration h o))
  ne_null
    | .bool _ | .options _ | .registration _ => nofun

end LanguageServer
