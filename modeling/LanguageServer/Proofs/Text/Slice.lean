import LanguageServer.Proofs.Text.Line

/-!
# Ranges cut slices out of texts

Offsets are in the order of their positions, as long as the later position is a place in the text:
`Position.IsWithin` leaves out those that run past its end, whose offset is zero.

* `Position.Denotes.mono`: a position denotes no offset behind that of a later one.
* `Position.toOffset_le_toOffset`: the offsets of a range that is well-formed have a slice of the
  text between them.
-/

namespace LanguageServer

open String (utf8Len)

namespace Position

variable {e : PositionEncodingKind} {text before line after : List Char} {p q : Position}
  {a b : Nat}

/-- A position is not behind another one when its line is before, or its character is not behind. -/
theorem le_iff :
    p.le q = true ↔ p.line < q.line ∨ p.line = q.line ∧ p.character ≤ q.character := by
  rw [le, bne_iff_ne, ne_eq, compare, Ordering.then_eq_gt, Std.compare_eq_gt, Std.compare_eq_gt,
    Std.LawfulEqOrd.compare_eq_iff_eq]
  grind

/-- A position does not run past the end of a text. -/
inductive IsWithin (text : List Char) (e : PositionEncodingKind) (p : Position) : Prop
  /-- Any position in a line that is ended by a line feed. -/
  | ended {before line rest : List Char} :
    IsLine text p.line.toNat before line ('\n' :: rest) → IsWithin text e p
  /-- In the last line there are as many places as it has units. -/
  | last {before line : List Char} : IsLine text p.line.toNat before line [] →
    p.character.toNat ≤ e.unitsOf line → IsWithin text e p
  /-- The first place of a line behind the last one. -/
  | behind : text.count '\n' < p.line.toNat → p.character = 0 → IsWithin text e p

/-- A line and the line feed that ends it stand before every later line. -/
theorem IsLine.lt_of_lt {before' line' after' : List Char} {m n : Nat}
    (h : IsLine text m before line after) (h' : IsLine text n before' line' after') (hlt : m < n) :
    utf8Len before + utf8Len line < utf8Len before' := by
  have hstart : before ++ line <+: text := ⟨after, by rw [h.text_eq, List.append_assoc]⟩
  have hstart' : before' <+: text := ⟨line' ++ after', h'.text_eq.symm⟩
  -- Up to the end of the line there are not enough line feeds.
  have hnot : ¬ before' <+: before ++ line := fun hle => by
    have hcount := hle.sublist.count_le '\n'
    rw [h'.count_eq, List.count_append, h.count_eq, List.count_eq_zero_of_not_mem h.not_mem]
      at hcount
    omega
  obtain ⟨more, rfl⟩ := (List.prefix_or_prefix_of_prefix hstart hstart').resolve_right hnot
  cases more with
  | nil => simp at hnot
  | cons c more =>
    have hpos := c.utf8Size_pos
    simp only [String.utf8Len_append, String.utf8Len_cons]
    omega

/-- Unless it runs past the end of the text, it denotes a place in the line. -/
theorem IsWithin.cases_of_isLine (hw : IsWithin text e p) (h : Denotes text e p b)
    (hl : IsLine text p.line.toNat before line after) :
    (∃ cs, IsShortest e line p.character.toNat cs ∧ b = utf8Len before + utf8Len cs) ∨
      b = utf8Len before + utf8Len line := by
  rcases h.cases_of_isLine hl with hcs | ⟨-, -, hb⟩ | ⟨hlt, rfl, -⟩
  · exact .inl hcs
  · exact .inr hb
  · -- In the last line it would have to take more units than there are.
    cases hw with
    | ended hl' => exact absurd (hl.unique hl').2.2 (by simp)
    | last hl' hle =>
      obtain ⟨-, rfl, -⟩ := hl.unique hl'
      omega
    | behind hn _ =>
      have := hl.count_text
      omega

/-- In one line more units lead farther. -/
theorem IsWithin.le_of_character_le (hw : IsWithin text e q) (hline : p.line = q.line)
    (hle : p.character ≤ q.character) (hl : IsLine text q.line.toNat before line after)
    (hp : Denotes text e p a) (hq : Denotes text e q b) : a ≤ b := by
  have hlp : IsLine text p.line.toNat before line after := hline ▸ hl
  rw [UInt32.le_iff_toNat_le] at hle
  rcases hw.cases_of_isLine hq hl with ⟨cs', hcs', rfl⟩ | rfl
  · rcases hp.cases_of_isLine hlp with ⟨cs, hcs, rfl⟩ | ⟨hlt, -, -⟩ | ⟨-, -, rfl⟩
    · -- What takes enough units for the later position does so for the earlier one.
      have hlen := hcs.length_le cs' hcs'.start (Nat.le_trans hle hcs'.le_units)
      have hstart := List.prefix_of_prefix_length_le hcs.start hcs'.start hlen
      have := String.utf8Len_le_of_prefix hstart
      omega
    · obtain ⟨more, rfl⟩ := hcs'.start
      have := hcs'.le_units
      rw [unitsOf_append] at hlt
      omega
    · exact Nat.zero_le _
  · exact hp.le_end hlp

/-- A position denotes no offset behind that of a later one, unless the later one runs past the end
of the text. -/
theorem Denotes.mono (hp : Denotes text e p a) (hq : Denotes text e q b) (hle : p.le q = true)
    (hw : IsWithin text e q) : a ≤ b := by
  rcases Nat.lt_or_ge (text.count '\n') q.line.toNat with hn | hn
  · -- The later position is the end of the text.
    have hb : b = utf8Len text := by
      cases hw with
      | ended hl | last hl _ =>
        have := hl.count_text
        omega
      | behind _ hc =>
        cases hq with
        | textEnd _ _ => rfl
        | offLines _ hc' => exact absurd hc hc'
        | inLine hl _ | lineFeed hl _ | offEnd hl _ =>
          have := hl.count_text
          omega
    obtain ⟨before, after, rfl, rfl⟩ := hp.exists_append
    rw [hb, String.utf8Len_append]
    exact Nat.le_add_right ..
  · obtain ⟨before, line, after, hl⟩ := exists_isLine hn
    rcases le_iff.1 hle with hlt | ⟨hline, hchar⟩
    · -- An earlier line ends before the later one begins.
      rw [UInt32.lt_iff_toNat_lt] at hlt
      have hn' : p.line.toNat ≤ text.count '\n' := by omega
      obtain ⟨before', line', after', hl'⟩ := exists_isLine hn'
      have hend := hp.le_end hl'
      have hbetween := hl'.lt_of_lt hl hlt
      rcases hw.cases_of_isLine hq hl with ⟨cs, -, rfl⟩ | rfl <;> omega
    · exact hw.le_of_character_le hline hchar hl hp hq

/-- Two boundaries of a text have a slice between them. -/
theorem exists_slice {text : String} (ha : String.Pos.Raw.IsValid text ⟨a⟩)
    (hb : String.Pos.Raw.IsValid text ⟨b⟩) (hab : a ≤ b) :
    ∃ before slice after, text.toList = before ++ (slice ++ after) ∧ utf8Len before = a ∧
      utf8Len before + utf8Len slice = b := by
  obtain ⟨before, after, ht, rfl⟩ := isValid_iff.1 ha
  obtain ⟨before', after', ht', rfl⟩ := isValid_iff.1 hb
  rcases List.append_eq_append_iff.1 (ht.symm.trans ht') with
    ⟨slice, rfl, rfl⟩ | ⟨more, rfl, rfl⟩
  · exact ⟨before, slice, after', ht, rfl, (String.utf8Len_append ..).symm⟩
  · -- The second boundary is not before the first one.
    rw [String.utf8Len_append] at hab
    obtain rfl : more = [] := String.utf8Len_eq_zero.1 (by omega)
    exact ⟨before', [], after, by simpa using ht, by simp, by simp⟩

/-- The offsets of two positions are in the order of the positions, unless the later one runs past
the end of the text; so those of a well-formed range are boundaries with a slice of the text between
them. -/
theorem toOffset_le_toOffset (text : String) (e : PositionEncodingKind) {p q : Position}
    (hle : p.le q = true) (hq : IsWithin text.toList e q) :
    toOffset text p e ≤ toOffset text q e ∧
      ∃ a b, (Range.mk p q).toOffsets text e = (a, b) ∧ a ≤ b ∧ b ≤ text.utf8ByteSize ∧
        String.Pos.Raw.IsValid text ⟨a⟩ ∧ String.Pos.Raw.IsValid text ⟨b⟩ ∧
        ∃ before slice after, text.toList = before ++ (slice ++ after) ∧ utf8Len before = a ∧
          utf8Len before + utf8Len slice = b := by
  -- Both positions denote offsets, which keep their order.
  have hmono : toOffset text p e ≤ toOffset text q e := by
    obtain ⟨a, ha⟩ := exists_denotes text.toList e p
    obtain ⟨b, hb⟩ := exists_denotes text.toList e q
    rw [ha.toOffset_eq, hb.toOffset_eq]
    exact ha.mono hb hle hq
  have hp := isValid_toOffset text p e
  have hq := isValid_toOffset text q e
  exact ⟨hmono, _, _, rfl, hmono, hq.le_rawEndPos, hp, hq, exists_slice hp hq hmono⟩

/-- A text whose last line has no line feed. -/
def exampleSlice : String := "a𒀃\nb"

/-- A range from inside a character to the end of the text. -/
theorem toOffset_le_toOffset_exampleSlice :
    (Range.mk ⟨0, 2⟩ ⟨1, 1⟩).isWellFormed = true ∧
      IsWithin exampleSlice.toList .utf16 ⟨1, 1⟩ ∧
      toOffset exampleSlice ⟨0, 2⟩ .utf16 ≤ toOffset exampleSlice ⟨1, 1⟩ .utf16 ∧
      (Range.mk ⟨0, 2⟩ ⟨1, 1⟩).toOffsets exampleSlice .utf16 = (5, 7) := by
  have hl : IsLine exampleSlice.toList 1 ['a', '𒀃', '\n'] ['b'] [] :=
    ⟨by decide, by decide, .inr ⟨['a', '𒀃'], rfl⟩, by decide, .inl rfl⟩
  have hwithin : IsWithin exampleSlice.toList .utf16 ⟨1, 1⟩ := .last hl (by decide)
  exact ⟨by decide, hwithin, (toOffset_le_toOffset exampleSlice .utf16 (by decide) hwithin).1,
    by decide⟩

end Position

end LanguageServer
