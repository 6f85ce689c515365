import LanguageServer.Proofs.Any
import LanguageServer.Proofs.Codec.Record

/-!
# Values are read back as equal ones

A value of any kind may come back with a word of the other type.  What holds such values is
therefore read back as an equal value (`==`) and not as the same one: `Codec.Recovers` says that of
one value, and `Field.Recovers` of a member.  Both lift through lists, options and unions.

A member that may be missing cannot hold null, which is `LspAny.IsData`.
-/

namespace LanguageServer

open Json (Source)

/-- Written and read again, `a` comes back as an equal value. -/
def Codec.Recovers {α : Type} [BEq α] (c : Codec α) (a : α) : Prop :=
  ∃ b, c.ReadsBack a b ∧ (b == a) = true

/-- Written as a member and read again, `a` comes back as an equal value. -/
def Field.Recovers {α : Type} [BEq α] (f : Field α) (a : α) : Prop :=
  ∃ b, f.ReadsBack a b ∧ (b == a) = true

namespace Codec

variable {α β : Type} [BEq α] [BEq β] {c : Codec α}

/-- What is read back as it was is recovered. -/
theorem IsFaithful.recovers [ReflBEq α] (h : c.IsFaithful) (a : α) : c.Recovers a :=
  ⟨a, h.readsBack a, BEq.rfl⟩

/-- What is recovered is an equal value. -/
theorem Recovers.exists_ofJson {a : α} (h : c.Recovers a) :
    ∃ b, c.ofJson (c.encode a) = .ok b ∧ (b == a) = true :=
  have ⟨b, hb, heq⟩ := h
  ⟨b, hb.ofJson_eq, heq⟩

/-- Items come back one by one. -/
theorem Recovers.list {as : List α} (h : ∀ a ∈ as, c.Recovers a) : c.list.Recovers as := by
  -- The items that come back make the list that comes back, one for one.
  suffices hitems : ∃ bs, List.Forall₂ c.ReadsBack as bs ∧ (bs == as) = true from
    have ⟨bs, hbs, heq⟩ := hitems
    ⟨bs, .list hbs, heq⟩
  induction as with
  | nil => exact ⟨[], .nil, rfl⟩
  | cons a rest ih =>
    obtain ⟨⟨b, hb, hba⟩, hrest⟩ := List.forall_mem_cons.1 h
    obtain ⟨bs, hbs, heq⟩ := ih hrest
    exact ⟨b :: bs, .cons hb hbs, by rw [List.cons_beq_cons, hba, heq, Bool.and_self]⟩

/-- An alternative that is written and read by a codec of its own comes back as that alternative. -/
theorem Recovers.alternative {encode : β → Json} {read : Json → Decoded β} {wrap : α → β} {a : α}
    (h : c.Recovers a) (he : encode (wrap a) = c.encode a)
    (hr : read (c.encode a) = (c.ofJson (c.encode a)).map wrap)
    (hw : ∀ b, (wrap b == wrap a) = (b == a)) : (Codec.byValue encode read).Recovers (wrap a) :=
  have ⟨b, hb, heq⟩ := h
  ⟨wrap b, .alternative hb he hr, (hw b).trans heq⟩

end Codec

namespace Field.Recovers

variable {α : Type} [BEq α] {c : Codec α}

/-- A field that is always written is recovered when its value is. -/
theorem required {a : α} (h : c.Recovers a) : (Field.required c).Recovers a :=
  have ⟨b, hb, heq⟩ := h
  ⟨b, .required hb, heq⟩

/-- What is not written as null comes back from a member that may be missing. -/
theorem optional {o : Option α} (h : ∀ a ∈ o, c.Recovers a) (hn : ∀ a ∈ o, c.encode a ≠ .null) :
    (Field.optional c).Recovers o := by
  cases o with
  | none => exact ⟨none, .omitted rfl rfl, rfl⟩
  | some a =>
    obtain ⟨b, hb, heq⟩ := h a rfl
    exact ⟨some b, .some hb (hn a rfl), heq⟩

/-- A field that may be null as well is recovered when one that may be missing is. -/
theorem trailing {o : Option α} (h : (Field.optional c).Recovers o) :
    (Field.trailing c).Recovers o :=
  have ⟨b, hb, heq⟩ := h
  ⟨b, .trailing hb, heq⟩

end Field.Recovers

/-! ## Values of any kind -/

namespace LspAny

/-- What a member that may be missing can hold: its decimals are finite, and it is not null. -/
structure IsData (v : LspAny) : Prop where
  wellFormed : v.WellFormed
  ne_null : v ≠ .null

/-- A value that can be written is recovered. -/
theorem recovers {v : LspAny} (h : v.WellFormed) : codec.Recovers v :=
  ⟨_, readsBack h, beq_ofJson_toJson h⟩

/-- Data come back from a member that may be missing, in the first words that hold them. -/
theorem data_readsBack {o : Option LspAny} (h : ∀ v ∈ o, v.IsData) :
    (Field.optional codec).ReadsBack o (o.map fun v => ofJson v.toJson) := by
  cases o with
  | none => exact .omitted rfl rfl
  | some v =>
    have hv := h v rfl
    exact .some (readsBack hv.wellFormed) (encode_ne_null hv.wellFormed hv.ne_null)

/-- Data that may be missing are recovered: there is no null that could be taken for nothing. -/
theorem data_recovers {o : Option LspAny} (h : ∀ v ∈ o, v.IsData) :
    (Field.optional codec).Recovers o := by
  refine ⟨_, data_readsBack h, ?_⟩
  cases o with
  | none => rfl
  | some v => exact beq_ofJson_toJson (h v rfl).wellFormed

/-- A list comes back from a member that may be missing, whether or not some of its items are
null. -/
theorem list_recovers {o : Option (List LspAny)} (h : ∀ vs ∈ o, ∀ v ∈ vs, v.WellFormed) :
    (Field.optional codec.list).Recovers o :=
  .optional (fun vs hvs => .list fun v hv => recovers (h vs hvs v hv)) fun _ _ => nofun

end LspAny

end LanguageServer
