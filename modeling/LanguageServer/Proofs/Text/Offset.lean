import LanguageServer.Text.Offset
import Mathlib.Data.Prod.Lex
import Mathlib.Data.String.Basic
import Mathlib.Order.Bounds.Defs

/-!
# Byte offsets survive the trip through positions

An offset cuts a text in two, before the character that it lies in.  `Position.advance` counts lines
and units over the characters before the cut, as pairs of natural numbers.

* `PositionEncodingKind.unitsOf_eq_length`: units are those of the text in the encoding.
* `Position.ofOffset_eq`: the position of an offset holds the counts up to its cut.
* `Position.toOffset_eq`: a position that holds the counts of some characters lies behind them.
* `Position.toOffset_ofOffset`: going to a position and back gives the last character boundary that
  is not behind the offset, and the boundaries of a text are ordered like their positions.
-/

namespace LanguageServer

open String (utf8Len)

/-! ## Units -/

namespace PositionEncodingKind

/-- The UTF-16 form of a character: its number, or a surrogate for each half of what its number is
above the numbers of 16 bits. -/
def utf16Encode (c : Char) : List UInt16 :=
  if c.toNat < 0x10000 then [.ofNat c.toNat]
  else
    [.ofNat (0xD800 + (c.toNat - 0x10000) / 0x400), .ofNat (0xDC00 + (c.toNat - 0x10000) % 0x400)]

/-- The number that is written in UTF-16; surrogates come in pairs, the high one first. -/
def utf16Decode : List UInt16 → Option Nat
  | [u] => if 0xD800 ≤ u.toNat ∧ u.toNat ≤ 0xDFFF then none else some u.toNat
  | [hi, lo] =>
    if 0xD800 ≤ hi.toNat ∧ hi.toNat < 0xDC00 ∧ 0xDC00 ≤ lo.toNat ∧ lo.toNat ≤ 0xDFFF then
      some (0x10000 + (hi.toNat - 0xD800) * 0x400 + (lo.toNat - 0xDC00))
    else none
  | _ => none

/-- A character can be told from its UTF-16 form. -/
theorem utf16Decode_encode (c : Char) : utf16Decode (utf16Encode c) = some c.toNat := by
  have hvalid : c.toNat < 0xD800 ∨ 0xDFFF < c.toNat ∧ c.toNat < 0x110000 := c.valid
  have htoNat {n : Nat} (hn : n < 0x10000) : (UInt16.ofNat n).toNat = n := by
    rw [UInt16.toNat_ofNat']
    omega
  unfold utf16Encode
  by_cases h : c.toNat < 0x10000
  · -- No character has the number of a surrogate.
    rw [if_pos h, utf16Decode, htoNat h, if_neg (by omega)]
  · have hhi := htoNat (n := 0xD800 + (c.toNat - 0x10000) / 0x400) (by omega)
    have hlo := htoNat (n := 0xDC00 + (c.toNat - 0x10000) % 0x400) (by omega)
    simp only [if_neg h, utf16Decode, hhi, hlo]
    refine (if_pos (by omega)).trans (congrArg some ?_)
    omega

/-- The code units of a character, as numbers. -/
def codeUnits : PositionEncodingKind → Char → List Nat
  | .utf8, c => (String.utf8EncodeChar c).map UInt8.toNat
  | .utf16, c => (utf16Encode c).map UInt16.toNat
  | .utf32, c => [c.toNat]

variable (e : PositionEncodingKind) (c : Char)

/-- A character takes as many units as its form in the encoding has. -/
theorem units_eq_length : e.units c = (e.codeUnits c).length := by
  cases e with
  | utf8 => rw [codeUnits, List.length_map, String.length_utf8EncodeChar, units]
  | utf16 =>
    rw [codeUnits, List.length_map, utf16Encode, units]
    split <;> rfl
  | utf32 => rfl

/-- Characters take as many units as the text that they make has in the encoding. -/
theorem unitsOf_eq_length (cs : List Char) : e.unitsOf cs = (cs.flatMap e.codeUnits).length := by
  induction cs with
  | nil => rfl
  | cons c cs ih => rw [unitsOf, ih, units_eq_length, List.flatMap_cons, List.length_append]

/-- Every character takes a unit. -/
theorem units_pos : 0 < e.units c := by
  have := c.utf8Size_pos
  unfold units
  cases e with
  | utf8 => assumption
  | utf16 => dsimp only; split <;> omega
  | utf32 => exact Nat.one_pos

/-- No encoding takes more units than there are bytes. -/
theorem units_le : e.units c ≤ c.utf8Size := by
  have hpos := c.utf8Size_pos
  unfold units
  cases e with
  | utf8 => exact Nat.le_refl _
  | utf32 => exact hpos
  | utf16 =>
    dsimp only
    split
    · exact hpos
    · -- Two units are taken only by characters of four bytes.
      rename_i h
      have hval : (65535 : UInt32) < c.val := by
        rw [UInt32.lt_iff_toNat_lt]
        exact Nat.lt_of_lt_of_le (by decide) (Nat.not_lt.1 h)
      rw [Char.utf8Size_eq_four_iff.2 hval]
      decide

end PositionEncodingKind

namespace Position

variable {e : PositionEncodingKind}

/-! ## Counting lines and units -/

/-- The line and the units in it after one more character. -/
def advance (e : PositionEncodingKind) (p : Nat × Nat) (c : Char) : Nat × Nat :=
  if c = '\n' then (p.1 + 1, 0) else (p.1, p.2 + e.units c)

/-- The position of two counts. -/
def ofCounts (p : Nat × Nat) : Position := ⟨UInt32.ofNat p.1, UInt32.ofNat p.2⟩

/-- Each line feed leads to the next line. -/
theorem foldl_advance_fst (cs : List Char) (p : Nat × Nat) :
    (cs.foldl (advance e) p).1 = p.1 + cs.count '\n' := by
  induction cs generalizing p with
  | nil => rfl
  | cons c cs ih =>
    rw [List.foldl_cons, ih, List.count_cons]
    by_cases h : c = '\n' <;> simp [advance, h]
    omega

/-- Inside a line only units are counted. -/
theorem foldl_advance_of_not_mem {cs : List Char} (h : '\n' ∉ cs) (p : Nat × Nat) :
    cs.foldl (advance e) p = (p.1, p.2 + e.unitsOf cs) := by
  induction cs generalizing p with
  | nil => rfl
  | cons c cs ih =>
    rw [List.mem_cons, not_or] at h
    rw [List.foldl_cons, ih h.2, advance, if_neg fun hc => h.1 hc.symm]
    simp only [PositionEncodingKind.unitsOf, Nat.add_assoc]

/-- Neither count exceeds the number of bytes. -/
theorem foldl_advance_le (cs : List Char) (p : Nat × Nat) :
    (cs.foldl (advance e) p).1 ≤ p.1 + utf8Len cs ∧
      (cs.foldl (advance e) p).2 ≤ p.2 + utf8Len cs := by
  induction cs generalizing p with
  | nil => exact ⟨Nat.le_refl _, Nat.le_refl _⟩
  | cons c cs ih =>
    have hpos := c.utf8Size_pos
    have hle := e.units_le c
    have ⟨h₁, h₂⟩ := ih (advance e p c)
    rw [List.foldl_cons, String.utf8Len_cons]
    by_cases hc : c = '\n' <;> simp only [advance, hc, if_true, if_false] at h₁ h₂ hpos ⊢ <;> omega

/-- Each character leads to a later line, or to more units in the same line. -/
theorem lt_advance (p : Nat × Nat) (c : Char) : toLex p < toLex (advance e p c) := by
  have hpos := e.units_pos c
  rw [Prod.Lex.toLex_lt_toLex]
  unfold advance
  split
  · exact .inl (Nat.lt_succ_self _)
  · exact .inr ⟨rfl, Nat.lt_add_of_pos_right hpos⟩

/-- Characters lead forward. -/
theorem lt_foldl_advance {cs : List Char} (h : cs ≠ []) (p : Nat × Nat) :
    toLex p < toLex (cs.foldl (advance e) p) := by
  induction cs generalizing p with
  | nil => exact absurd rfl h
  | cons c cs ih =>
    rw [List.foldl_cons]
    by_cases hcs : cs = []
    · subst hcs
      exact lt_advance p c
    · exact (lt_advance p c).trans (ih hcs _)

/-! ## From an offset to its position -/

/-- An offset lies between two parts of a text, or in the first character of the second one. -/
structure Cuts (offset : Nat) (before after : List Char) : Prop where
  le : utf8Len before ≤ offset
  lt : ∀ c ∈ after.head?, offset < utf8Len before + c.utf8Size

/-- Every offset cuts a text. -/
theorem exists_cuts (offset : Nat) (cs : List Char) :
    ∃ before after, cs = before ++ after ∧ Cuts offset before after := by
  induction cs generalizing offset with
  | nil => exact ⟨[], [], rfl, Nat.zero_le _, by simp⟩
  | cons c cs ih =>
    by_cases hc : c.utf8Size ≤ offset
    · -- The first character fits before the offset.
      obtain ⟨before, after, rfl, hle, hlt⟩ := ih (offset - c.utf8Size)
      refine ⟨c :: before, after, rfl, ?_, fun d hd => ?_⟩
      · rw [String.utf8Len_cons]; omega
      · have := hlt d hd
        rw [String.utf8Len_cons]; omega
    · exact ⟨[], c :: cs, rfl, Nat.zero_le _, by simpa using hc⟩

/-- Counting stops at the cut. -/
theorem count_append {target offset : Nat} {before after : List Char}
    (h : Cuts (target - offset) before after) (ho : offset ≤ target) (line units : Nat) :
    count e target (before ++ after) offset line units =
      ofCounts (before.foldl (advance e) (line, units)) := by
  induction before generalizing offset line units with
  | nil =>
    cases after with
    | nil => rfl
    | cons c cs =>
      have := h.lt c rfl
      simp only [String.utf8Len_nil] at this
      rw [List.nil_append, count, if_neg (by omega)]
      rfl
  | cons c before ih =>
    have hle := h.le
    rw [String.utf8Len_cons] at hle
    -- Behind the first character the same cut is that much closer.
    have hcuts : Cuts (target - (offset + c.utf8Size)) before after := by
      refine ⟨by omega, fun d hd => ?_⟩
      have := h.lt d hd
      rw [String.utf8Len_cons] at this
      omega
    have hcs := ih hcuts (by omega)
    rw [List.cons_append, count, if_pos (by omega), List.foldl_cons, advance]
    split <;> exact hcs ..

/-- The position of an offset counts the characters before its cut. -/
theorem ofOffset_eq {text : String} {offset : Nat} {before after : List Char}
    (ht : text.toList = before ++ after) (h : Cuts offset before after) :
    ofOffset text offset e = ofCounts (before.foldl (advance e) (0, 0)) := by
  rw [ofOffset, ht]
  exact count_append (by simpa using h) (Nat.zero_le _) 0 0

/-! ## From a position to its offset -/

/-- The line behind some line feeds. -/
theorem lineAt_append (ls rest : List Char) (offset : Nat) :
    lineAt (ls.count '\n' + 1) (ls ++ '\n' :: rest) offset = (offset + utf8Len ls + 1, rest) := by
  induction ls generalizing offset with
  | nil => simp [lineAt, show '\n'.utf8Size = 1 from rfl]
  | cons c ls ih =>
    -- Whether or not the character is a line feed, the same number of them is left to pass.
    have hn : (if c = '\n' then (c :: ls).count '\n' else (c :: ls).count '\n' + 1) =
        ls.count '\n' + 1 := by
      rw [List.count_cons]
      by_cases h : c = '\n' <;> simp [h]
    rw [List.cons_append, lineAt, hn, ih, String.utf8Len_cons]
    congr 1
    omega

/-- As many units as some characters of a line take lead behind them. -/
theorem walk_append {cs : List Char} (h : '\n' ∉ cs) (after : List Char) (count offset : Nat) :
    walk e (count + e.unitsOf cs) (cs ++ after) count offset = offset + utf8Len cs := by
  induction cs generalizing count offset with
  | nil => cases after <;> simp [walk, PositionEncodingKind.unitsOf]
  | cons c cs ih =>
    have hpos := e.units_pos c
    rw [List.mem_cons, not_or] at h
    rw [List.cons_append, walk, PositionEncodingKind.unitsOf, if_pos (by omega),
      if_neg fun hc => h.1 hc.symm, ← Nat.add_assoc, ih h.2, String.utf8Len_cons]
    omega

/-- Characters are in one line, or they have a last line feed. -/
theorem not_mem_or_exists_last (cs : List Char) :
    '\n' ∉ cs ∨ ∃ ls line, cs = ls ++ '\n' :: line ∧ '\n' ∉ line := by
  by_cases h : '\n' ∈ cs
  · right
    obtain ⟨line, ls, hcs, hline⟩ := List.eq_append_cons_of_mem (List.mem_reverse.2 h)
    refine ⟨ls.reverse, line.reverse, ?_, by rwa [List.mem_reverse]⟩
    rw [← List.reverse_reverse cs, hcs]
    simp
  · exact .inl h

/-- The counts of characters lead behind them, whatever follows. -/
theorem walk_lineAt (before after : List Char) :
    walk e (before.foldl (advance e) (0, 0)).2
      (lineAt (before.foldl (advance e) (0, 0)).1 (before ++ after) 0).2 0
      (lineAt (before.foldl (advance e) (0, 0)).1 (before ++ after) 0).1 = utf8Len before := by
  rcases not_mem_or_exists_last before with h | ⟨ls, line, rfl, h⟩
  · rw [foldl_advance_of_not_mem h, lineAt]
    simpa using walk_append h after 0 0
  · -- The line feeds lead to the line, and the units along it.
    have hp : (ls ++ '\n' :: line).foldl (advance e) (0, 0) =
        (ls.count '\n' + 1, 0 + e.unitsOf line) := by
      rw [List.foldl_append, List.foldl_cons, foldl_advance_of_not_mem h, advance, if_pos rfl,
        foldl_advance_fst, Nat.zero_add]
    have hl : (ls ++ '\n' :: line) ++ after = ls ++ '\n' :: (line ++ after) := by simp
    rw [hp, hl, lineAt_append, walk_append h, String.utf8Len_append, String.utf8Len_cons]
    have hsize : '\n'.utf8Size = 1 := rfl
    omega

/-- A position that counts the characters before some place of a text leads there. -/
theorem toOffset_eq {text : String} (hsize : text.utf8ByteSize < 2 ^ 32)
    {before after : List Char} (ht : text.toList = before ++ after) :
    toOffset text (ofCounts (before.foldl (advance e) (0, 0))) e = utf8Len before := by
  obtain ⟨h₁, h₂⟩ := foldl_advance_le (e := e) before (0, 0)
  -- The text is short enough for its counts to be words.
  have hlen : utf8Len before < UInt32.size := by
    have : text.utf8ByteSize = utf8Len (before ++ after) := by
      rw [← ht, ← String.utf8ByteSize_ofList, String.ofList_toList]
    rw [String.utf8Len_append] at this
    exact Nat.lt_of_le_of_lt (by omega) hsize
  simp only [Nat.zero_add] at h₁ h₂
  simp only [toOffset, ofCounts, ht, UInt32.toNat_ofNat_of_lt' (Nat.lt_of_le_of_lt h₁ hlen),
    UInt32.toNat_ofNat_of_lt' (Nat.lt_of_le_of_lt h₂ hlen)]
  exact walk_lineAt before after

/-! ## Boundaries -/

/-- A boundary of a text lies behind some of its first characters. -/
theorem isValid_iff {text : String} {b : Nat} :
    String.Pos.Raw.IsValid text ⟨b⟩ ↔
      ∃ before after, text.toList = before ++ after ∧ utf8Len before = b := by
  have hlen (s : String) : s.rawEndPos = ⟨utf8Len s.toList⟩ := by
    rw [← String.utf8ByteSize_ofList, String.ofList_toList]
    rfl
  -- A valid position splits the text, here stated of its characters.
  rw [String.Pos.Raw.isValid_iff_exists_append]
  constructor
  · rintro ⟨s, t, rfl, hb⟩
    rw [hlen, String.Pos.Raw.mk.injEq] at hb
    exact ⟨s.toList, t.toList, String.toList_append, hb.symm⟩
  · rintro ⟨before, after, ht, rfl⟩
    refine ⟨String.ofList before, String.ofList after, ?_, ?_⟩
    · rw [← String.ofList_append, ← ht, String.ofList_toList]
    · rw [hlen, String.toList_ofList]

/-- A text is cut behind its characters when the offset is their length. -/
theorem cuts_utf8Len (before after : List Char) : Cuts (utf8Len before) before after :=
  ⟨Nat.le_refl _, fun c _ => Nat.lt_add_of_pos_right c.utf8Size_pos⟩

/-- Of the boundaries up to an offset, the one of its cut is the last. -/
theorem isGreatest_of_cuts {text : String} {offset : Nat} {before after : List Char}
    (ht : text.toList = before ++ after) (h : Cuts offset before after) :
    IsGreatest {b | String.Pos.Raw.IsValid text ⟨b⟩ ∧ b ≤ min offset text.utf8ByteSize}
      (utf8Len before) := by
  have hb : String.Pos.Raw.IsValid text ⟨utf8Len before⟩ := isValid_iff.2 ⟨_, _, ht, rfl⟩
  refine ⟨⟨hb, Nat.le_min.2 ⟨h.le, hb.le_rawEndPos⟩⟩, fun b ⟨hvalid, hle⟩ => ?_⟩
  obtain ⟨before', after', ht', rfl⟩ := isValid_iff.1 hvalid
  rw [ht, List.append_eq_append_iff] at ht'
  rcases ht' with ⟨more, rfl, hafter⟩ | ⟨less, rfl, -⟩
  · -- Whatever lies behind the cut begins with the character that the offset lies in.
    cases more with
    | nil => simp
    | cons c more =>
      have hlt := h.lt c (by rw [hafter]; rfl)
      rw [String.utf8Len_append, String.utf8Len_cons] at hle
      omega
  · rw [String.utf8Len_append]
    exact Nat.le_add_right ..

/-! ## The order of positions -/

/-- Positions are ordered by line, and then by character. -/
theorem compare_eq_lt_iff {p q : Position} :
    p.compare q = .lt ↔ p.line < q.line ∨ p.line = q.line ∧ p.character < q.character := by
  rw [Position.compare, Ordering.then_eq_lt, Std.compare_eq_lt, Std.compare_eq_lt,
    Std.LawfulEqOrd.compare_eq_iff_eq]

/-- Positions are ordered as their counts are, as long as these are words. -/
theorem compare_ofCounts {p q : Nat × Nat} (hp : p.1 < UInt32.size ∧ p.2 < UInt32.size)
    (hq : q.1 < UInt32.size ∧ q.2 < UInt32.size) (h : toLex p < toLex q) :
    (ofCounts p).compare (ofCounts q) = .lt := by
  have hlt {m n : Nat} (hm : m < UInt32.size) (hn : n < UInt32.size) (hmn : m < n) :
      UInt32.ofNat m < UInt32.ofNat n := by
    rwa [UInt32.lt_iff_toNat_lt, UInt32.toNat_ofNat_of_lt' hm, UInt32.toNat_ofNat_of_lt' hn]
  rw [compare_eq_lt_iff]
  rcases Prod.Lex.toLex_lt_toLex.1 h with h | ⟨heq, h⟩
  · exact .inl (hlt hp.1 hq.1 h)
  · exact .inr ⟨congrArg UInt32.ofNat heq, hlt hp.2 hq.2 h⟩

/-- Of two boundaries the one behind has the later position. -/
theorem compare_ofOffset {text : String} (hsize : text.utf8ByteSize < 2 ^ 32) {a b : Nat}
    (ha : String.Pos.Raw.IsValid text ⟨a⟩) (hb : String.Pos.Raw.IsValid text ⟨b⟩) (h : a < b) :
    (ofOffset text a e).compare (ofOffset text b e) = .lt := by
  obtain ⟨before, after, ht, rfl⟩ := isValid_iff.1 ha
  obtain ⟨before', after', ht', rfl⟩ := isValid_iff.1 hb
  have hbound {cs : List Char} (hcs : utf8Len cs ≤ text.utf8ByteSize) :
      (cs.foldl (advance e) (0, 0)).1 < UInt32.size ∧
        (cs.foldl (advance e) (0, 0)).2 < UInt32.size := by
    obtain ⟨h₁, h₂⟩ := foldl_advance_le (e := e) cs (0, 0)
    rw [Nat.zero_add] at h₁ h₂
    have : utf8Len cs < UInt32.size := Nat.lt_of_le_of_lt hcs hsize
    exact ⟨by omega, by omega⟩
  rw [ofOffset_eq ht (cuts_utf8Len _ _), ofOffset_eq ht' (cuts_utf8Len _ _)]
  refine compare_ofCounts (hbound ha.le_rawEndPos) (hbound hb.le_rawEndPos) ?_
  rw [ht, List.append_eq_append_iff] at ht'
  rcases ht' with ⟨more, rfl, -⟩ | ⟨less, rfl, -⟩
  · -- The characters between the two boundaries lead on.
    rw [List.foldl_append]
    refine lt_foldl_advance (fun hmore => ?_) _
    simp [hmore] at h
  · rw [String.utf8Len_append] at h
    omega

/-- Going from any offset to a position and back gives the last boundary of the text up to the
offset; so boundaries come back as they are, and they are ordered like their positions. -/
theorem toOffset_ofOffset (text : String) (hsize : text.utf8ByteSize < 2 ^ 32)
    (e : PositionEncodingKind) :
    (∀ offset, IsGreatest
      {b | String.Pos.Raw.IsValid text ⟨b⟩ ∧ b ≤ min offset text.utf8ByteSize}
      (toOffset text (ofOffset text offset e) e)) ∧
    (∀ b, String.Pos.Raw.IsValid text ⟨b⟩ → toOffset text (ofOffset text b e) e = b) ∧
    ∀ a b, String.Pos.Raw.IsValid text ⟨a⟩ → String.Pos.Raw.IsValid text ⟨b⟩ →
      ((ofOffset text a e).compare (ofOffset text b e) = .lt ↔ a < b) := by
  have hgreatest (offset : Nat) : IsGreatest
      {b | String.Pos.Raw.IsValid text ⟨b⟩ ∧ b ≤ min offset text.utf8ByteSize}
      (toOffset text (ofOffset text offset e) e) := by
    obtain ⟨before, after, ht, hcuts⟩ := exists_cuts offset text.toList
    rw [ofOffset_eq ht hcuts, toOffset_eq hsize ht]
    exact isGreatest_of_cuts ht hcuts
  refine ⟨hgreatest, fun b hb => ?_, fun a b ha hb => ⟨fun h => ?_, compare_ofOffset hsize ha hb⟩⟩
  · obtain ⟨⟨-, hle⟩, hmax⟩ := hgreatest b
    have hb' : b ≤ min b text.utf8ByteSize := Nat.le_min.2 ⟨Nat.le_refl b, hb.le_rawEndPos⟩
    exact Nat.le_antisymm (Nat.le_min.1 hle).1 (hmax ⟨hb, hb'⟩)
  · -- Were `a` not the one before, its position would come behind as well.
    by_contra hab
    rcases Nat.lt_or_eq_of_le (Nat.not_lt.1 hab) with hba | rfl
    · have h' := compare_ofOffset (e := e) hsize hb ha hba
      rw [compare_eq_lt_iff] at h h'
      grind
    · rw [compare_eq_lt_iff] at h
      grind

/-- A text of two lines; its last character but one takes four bytes. -/
def exampleText : String := "a\n𒀃b"

/-- An offset inside a character goes back to the first byte of it, and the characters before and
behind it lie at positions in that order. -/
theorem toOffset_ofOffset_exampleText :
    exampleText.utf8ByteSize < 2 ^ 32 ∧
      IsGreatest {b | String.Pos.Raw.IsValid exampleText ⟨b⟩ ∧ b ≤ min 4 exampleText.utf8ByteSize}
        2 ∧
      (ofOffset exampleText 2 .utf16).compare (ofOffset exampleText 6 .utf16) = .lt := by
  have hsize : exampleText.utf8ByteSize < 2 ^ 32 := by decide
  obtain ⟨hgreatest, -, horder⟩ := toOffset_ofOffset exampleText hsize .utf16
  -- The character before the last takes four bytes: 2 and 6 are its bounds.
  have h₂ : String.Pos.Raw.IsValid exampleText ⟨2⟩ :=
    isValid_iff.2 ⟨['a', '\n'], ['𒀃', 'b'], rfl, rfl⟩
  have h₆ : String.Pos.Raw.IsValid exampleText ⟨6⟩ :=
    isValid_iff.2 ⟨['a', '\n', '𒀃'], ['b'], rfl, rfl⟩
  exact ⟨hsize, hgreatest 4, (horder 2 6 h₂ h₆).2 (by decide)⟩

end Position

end LanguageServer
