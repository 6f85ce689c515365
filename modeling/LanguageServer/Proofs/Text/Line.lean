import LanguageServer.Proofs.Text.Offset

/-!
# What offset a position means

A line begins behind a line feed, or where the text begins, and goes on up to the next line feed, or
to the end of the text.  `Position.IsLine` says so of the three parts that a line cuts a text into,
and `Position.IsShortest` says which characters of a line take as many units as a position asks for.

* `Position.exists_isLine` and `Position.IsLine.unique`: as many lines as there are line feeds and
  one more, and each of them once.
* `Position.toOffset_eq_iff`: the offset of a position is the one that it denotes, a boundary of the
  text.
* `Position.toOffset_endOfLine`: the end of a line is its line feed, and the positions behind it are
  taken back to it.
-/

namespace LanguageServer

open String (utf8Len)

namespace Position

variable {e : PositionEncodingKind}

/-! ## Units of several characters -/

/-- Units of characters add up. -/
theorem unitsOf_append (cs ds : List Char) :
    e.unitsOf (cs ++ ds) = e.unitsOf cs + e.unitsOf ds := by
  induction cs with
  | nil => rw [List.nil_append, PositionEncodingKind.unitsOf, Nat.zero_add]
  | cons c cs ih => simp only [List.cons_append, PositionEncodingKind.unitsOf, ih, Nat.add_assoc]

/-- No encoding takes more units than there are bytes. -/
theorem unitsOf_le (e : PositionEncodingKind) (cs : List Char) : e.unitsOf cs ≤ utf8Len cs := by
  induction cs with
  | nil => exact Nat.le_refl 0
  | cons c cs ih =>
    have := e.units_le c
    rw [PositionEncodingKind.unitsOf, String.utf8Len_cons]
    omega

/-- Of the first characters of a line only all of them take all its units. -/
theorem eq_of_unitsOf_le {cs line : List Char} (h : cs <+: line)
    (hle : e.unitsOf line ≤ e.unitsOf cs) : cs = line := by
  obtain ⟨more, rfl⟩ := h
  cases more with
  | nil => exact (List.append_nil cs).symm
  | cons c more =>
    have hpos := e.units_pos c
    rw [unitsOf_append, PositionEncodingKind.unitsOf] at hle
    omega

/-! ## Lines -/

/-- A line between what stands before it and the rest, which begins with the line feed that ends the
line, if there is one. -/
structure IsLine (text : List Char) (number : Nat) (before line after : List Char) : Prop where
  text_eq : text = before ++ (line ++ after)
  /-- The number of a line is the number of line feeds before it. -/
  count_eq : before.count '\n' = number
  begins : before = [] ∨ ∃ ls, before = ls ++ ['\n']
  not_mem : '\n' ∉ line
  ends : after = [] ∨ ∃ rest, after = '\n' :: rest

/-- Characters up to the first line feed. -/
theorem exists_lineFeed (cs : List Char) :
    ∃ line after, cs = line ++ after ∧ '\n' ∉ line ∧
      (after = [] ∨ ∃ rest, after = '\n' :: rest) := by
  induction cs with
  | nil => exact ⟨[], [], rfl, by simp, .inl rfl⟩
  | cons c cs ih =>
    by_cases hc : c = '\n'
    · exact ⟨[], c :: cs, rfl, by simp, .inr ⟨cs, by rw [hc]⟩⟩
    · obtain ⟨line, after, rfl, hline, hafter⟩ := ih
      exact ⟨c :: line, after, rfl, by simp [Ne.symm hc, hline], hafter⟩

/-- A line goes on up to the first line feed. -/
theorem takeWhile_line {line after : List Char} (hline : '\n' ∉ line)
    (hafter : after = [] ∨ ∃ rest, after = '\n' :: rest) :
    (line ++ after).takeWhile (· ≠ '\n') = line := by
  have hall : ∀ c ∈ line, decide (c ≠ '\n') = true := fun c hc =>
    decide_eq_true fun hn => hline (hn ▸ hc)
  rw [List.takeWhile_append_of_pos hall]
  rcases hafter with rfl | ⟨rest, rfl⟩ <;> simp

namespace IsLine

variable {text before line after : List Char} {number : Nat}

/-- The line feeds that are left are those behind the line. -/
theorem count_text (h : IsLine text number before line after) :
    text.count '\n' = number + after.count '\n' := by
  rw [h.text_eq, List.count_append, List.count_append, h.count_eq,
    List.count_eq_zero_of_not_mem h.not_mem, Nat.zero_add]

/-- A line that is not the last one is ended by a line feed. -/
theorem exists_rest (h : IsLine text number before line after) (hn : number < text.count '\n') :
    ∃ rest, after = '\n' :: rest := by
  refine h.ends.resolve_left fun hafter => ?_
  have := h.count_text
  rw [hafter, List.count_nil] at this
  omega

/-- The line behind a line feed. -/
theorem next {rest : List Char} (h : IsLine text number before line ('\n' :: rest)) :
    ∃ line' after', IsLine text (number + 1) (before ++ line ++ ['\n']) line' after' := by
  obtain ⟨line', after', rfl, hline, hafter⟩ := exists_lineFeed rest
  refine ⟨line', after', by simp [h.text_eq], ?_, .inr ⟨_, rfl⟩, hline, hafter⟩
  rw [List.count_append, List.count_append, h.count_eq, List.count_eq_zero_of_not_mem h.not_mem]
  rfl

end IsLine

/-- Each line of a text is there. -/
theorem exists_isLine {text : List Char} {number : Nat} (hn : number ≤ text.count '\n') :
    ∃ before line after, IsLine text number before line after := by
  induction number with
  | zero =>
    obtain ⟨line, after, rfl, hline, hafter⟩ := exists_lineFeed text
    exact ⟨[], line, after, rfl, rfl, .inl rfl, hline, hafter⟩
  | succ number ih =>
    obtain ⟨before, line, after, h⟩ := ih (by omega)
    obtain ⟨rest, rfl⟩ := h.exists_rest (by omega)
    exact ⟨_, h.next⟩

/-- Going to a line leads behind what stands before it. -/
theorem IsLine.lineAt_eq {text before line after : List Char} {number : Nat}
    (h : IsLine text number before line after) (offset : Nat) :
    lineAt number text offset = (offset + utf8Len before, line ++ after) := by
  rw [h.text_eq, ← h.count_eq]
  rcases h.begins with rfl | ⟨ls, rfl⟩
  · simp [lineAt]
  · have hsize : '\n'.utf8Size = 1 := rfl
    have hcount : (ls ++ ['\n']).count '\n' = ls.count '\n' + 1 := by simp
    have hcs : ls ++ ['\n'] ++ (line ++ after) = ls ++ '\n' :: (line ++ after) := by simp
    rw [hcount, hcs, lineAt_append, String.utf8Len_append]
    simp [hsize, Nat.add_assoc]

/-- Going to a line behind the last one leads to the end. -/
theorem lineAt_of_count_lt {number : Nat} {cs : List Char} (h : cs.count '\n' < number)
    (offset : Nat) : lineAt number cs offset = (offset + utf8Len cs, []) := by
  induction cs generalizing number offset with
  | nil =>
    cases number with
    | zero => simp at h
    | succ number => rfl
  | cons c cs ih =>
    cases number with
    | zero => simp at h
    | succ number =>
      rw [List.count_cons] at h
      rw [lineAt, ih, String.utf8Len_cons, Nat.add_assoc, Nat.add_comm c.utf8Size]
      -- A line feed takes one off both counts.
      by_cases hc : c = '\n' <;> simp [hc] at h ⊢ <;> omega

/-- A text has one line of a number. -/
theorem IsLine.unique {text before line after before' line' after' : List Char} {number : Nat}
    (h : IsLine text number before line after) (h' : IsLine text number before' line' after') :
    before = before' ∧ line = line' ∧ after = after' := by
  -- Both are what is found from the beginning of the line.
  have hrest : line ++ after = line' ++ after' :=
    congrArg Prod.snd ((h.lineAt_eq 0).symm.trans (h'.lineAt_eq 0))
  have hbefore : before = before' := by
    have htext := h.text_eq.symm.trans h'.text_eq
    rw [← hrest] at htext
    exact List.append_cancel_right htext
  -- And a line goes as far as the next line feed.
  have hline : line = line' := by
    rw [← takeWhile_line h.not_mem h.ends, hrest, takeWhile_line h'.not_mem h'.ends]
  subst hline
  exact ⟨hbefore, rfl, List.append_cancel_left hrest⟩

/-! ## Characters of a line -/

/-- The shortest start of a line that takes at least so many units. -/
structure IsShortest (e : PositionEncodingKind) (line : List Char) (character : Nat)
    (cs : List Char) : Prop where
  start : cs <+: line
  le_units : character ≤ e.unitsOf cs
  length_le : ∀ ds, ds <+: line → character ≤ e.unitsOf ds → cs.length ≤ ds.length

/-- No characters take no units. -/
theorem isShortest_nil (line : List Char) : IsShortest e line 0 [] :=
  ⟨List.nil_prefix, Nat.zero_le _, fun _ _ _ => Nat.zero_le _⟩

/-- One more character is taken as long as units are wanted. -/
theorem isShortest_cons_iff {c : Char} {line cs : List Char} {character : Nat} :
    IsShortest e (c :: line) character (c :: cs) ↔
      0 < character ∧ IsShortest e line (character - e.units c) cs := by
  constructor
  · intro h
    refine ⟨Nat.pos_of_ne_zero fun hzero => ?_, ?_, ?_, fun ds hds hle => ?_⟩
    · -- No characters at all would do.
      have := h.length_le [] List.nil_prefix (by simp [hzero])
      simp at this
    · exact (List.prefix_cons_inj c).1 h.start
    · have := h.le_units
      simp only [PositionEncodingKind.unitsOf] at this
      omega
    · have := h.length_le (c :: ds) ((List.prefix_cons_inj c).2 hds)
        (by simp only [PositionEncodingKind.unitsOf]; omega)
      simpa using this
  · rintro ⟨hpos, h⟩
    refine ⟨(List.prefix_cons_inj c).2 h.start, ?_, fun ds hds hle => ?_⟩
    · have := h.le_units
      simp only [PositionEncodingKind.unitsOf]
      omega
    · cases ds with
      | nil => simp [PositionEncodingKind.unitsOf] at hle; omega
      | cons d ds =>
        obtain ⟨rfl, htail⟩ := List.cons_prefix_cons.1 hds
        simp only [PositionEncodingKind.unitsOf] at hle
        exact Nat.succ_le_succ (h.length_le ds htail (by omega))

/-- A line that takes so many units has a shortest start that does. -/
theorem exists_isShortest {line : List Char} {character : Nat}
    (h : character ≤ e.unitsOf line) : ∃ cs, IsShortest e line character cs := by
  induction line generalizing character with
  | nil =>
    obtain rfl : character = 0 := Nat.le_zero.1 h
    exact ⟨[], isShortest_nil _⟩
  | cons c line ih =>
    rcases Nat.eq_zero_or_pos character with rfl | hpos
    · exact ⟨[], isShortest_nil _⟩
    · rw [PositionEncodingKind.unitsOf] at h
      -- The first character is taken, and the rest of the line makes up the rest of the units.
      have hle : character - e.units c ≤ e.unitsOf line := by omega
      obtain ⟨cs, hcs⟩ := ih hle
      exact ⟨c :: cs, isShortest_cons_iff.2 ⟨hpos, hcs⟩⟩

/-- Walking stops behind the first characters that take enough units; those that are still to be
counted are none when the count has gone past the character. -/
theorem walk_of_isShortest {character count : Nat} {line cs : List Char}
    (h : IsShortest e line (character - count) cs) (hline : '\n' ∉ line) (after : List Char)
    (offset : Nat) :
    walk e character (line ++ after) count offset = offset + utf8Len cs := by
  induction line generalizing cs count offset with
  | nil =>
    obtain rfl := List.prefix_nil.1 h.start
    have hle := h.le_units
    simp only [PositionEncodingKind.unitsOf] at hle
    cases after <;> simp [walk, show ¬ count < character by omega]
  | cons c line ih =>
    rw [List.mem_cons, not_or] at hline
    rw [List.cons_append, walk]
    cases cs with
    | nil =>
      have hle := h.le_units
      simp only [PositionEncodingKind.unitsOf] at hle
      rw [if_neg (by omega), String.utf8Len_nil, Nat.add_zero]
    | cons d cs =>
      -- Units are still wanted, so that this character is walked past.
      obtain ⟨rfl, -⟩ := List.cons_prefix_cons.1 h.start
      obtain ⟨hpos, hcs⟩ := isShortest_cons_iff.1 h
      rw [Nat.sub_sub] at hcs
      rw [if_pos (by omega), if_neg fun hd => hline.1 hd.symm, ih hcs hline.2, String.utf8Len_cons]
      omega

/-- Walking goes past the characters of a line that take too few units. -/
theorem walk_line {character count : Nat} {line : List Char}
    (h : count + e.unitsOf line < character) (hline : '\n' ∉ line) (after : List Char)
    (offset : Nat) :
    walk e character (line ++ after) count offset =
      walk e character after (count + e.unitsOf line) (offset + utf8Len line) := by
  induction line generalizing count offset with
  | nil => rfl
  | cons c line ih =>
    rw [List.mem_cons, not_or] at hline
    rw [PositionEncodingKind.unitsOf] at h ⊢
    rw [List.cons_append, walk, if_pos (by omega), if_neg fun hc => hline.1 hc.symm,
      ih (by omega) hline.2, String.utf8Len_cons, Nat.add_assoc, Nat.add_assoc,
      Nat.add_comm (utf8Len line)]

/-! ## What a position denotes -/

/-- The offset that a position denotes. -/
inductive Denotes (text : List Char) (e : PositionEncodingKind) (p : Position) : Nat → Prop
  /-- It lies behind the first characters of its line that take enough units. -/
  | inLine {before line after cs : List Char} : IsLine text p.line.toNat before line after →
    IsShortest e line p.character.toNat cs → Denotes text e p (utf8Len before + utf8Len cs)
  /-- Behind the end of a line is the line feed that ends it. -/
  | lineFeed {before line rest : List Char} :
    IsLine text p.line.toNat before line ('\n' :: rest) →
    e.unitsOf line < p.character.toNat → Denotes text e p (utf8Len before + utf8Len line)
  /-- Behind the end of the last line is no place. -/
  | offEnd {before line : List Char} : IsLine text p.line.toNat before line [] →
    e.unitsOf line < p.character.toNat → Denotes text e p 0
  /-- The first place of any line behind the last one is the end of the text. -/
  | textEnd : text.count '\n' < p.line.toNat → p.character = 0 → Denotes text e p (utf8Len text)
  /-- There is no other place in such a line. -/
  | offLines : text.count '\n' < p.line.toNat → p.character ≠ 0 → Denotes text e p 0

/-- The offset of a position is found along its line. -/
theorem toOffset_of_isLine {text : String} {p : Position} {before line after : List Char}
    (h : IsLine text.toList p.line.toNat before line after) :
    toOffset text p e = walk e p.character.toNat (line ++ after) 0 (utf8Len before) := by
  rw [toOffset, h.lineAt_eq, Nat.zero_add]

/-- Behind the last line only the beginning is a position, which is the end of the text. -/
theorem toOffset_of_count_lt {text : String} {p : Position}
    (h : text.toList.count '\n' < p.line.toNat) :
    toOffset text p e = if p.character = 0 then utf8Len text.toList else 0 := by
  rw [toOffset, lineAt_of_count_lt h, Nat.zero_add]
  have hpos : 0 < p.character.toNat ↔ ¬ p.character = 0 := by
    rw [Nat.pos_iff_ne_zero, ne_eq, ← UInt32.toNat_inj, UInt32.toNat_zero]
  simp only [walk, hpos, ite_not]

/-- The offset of a position is what it denotes. -/
theorem Denotes.toOffset_eq {text : String} {p : Position} {b : Nat}
    (h : Denotes text.toList e p b) : toOffset text p e = b := by
  cases h with
  | inLine hl hcs => rw [toOffset_of_isLine hl, walk_of_isShortest hcs hl.not_mem]
  | lineFeed hl hlt =>
    rw [toOffset_of_isLine hl, walk_line (by omega) hl.not_mem, walk, if_pos (by omega), if_pos rfl]
  | offEnd hl hlt =>
    rw [toOffset_of_isLine hl, walk_line (by omega) hl.not_mem, walk, if_pos (by omega)]
  | textEnd hn hc => rw [toOffset_of_count_lt hn, if_pos hc]
  | offLines hn hc => rw [toOffset_of_count_lt hn, if_neg hc]

/-- Every position denotes an offset. -/
theorem exists_denotes (text : List Char) (e : PositionEncodingKind) (p : Position) :
    ∃ b, Denotes text e p b := by
  -- The line is there or not, and the position lies in it or behind its end.
  rcases Nat.lt_or_ge (text.count '\n') p.line.toNat with hn | hn
  · by_cases hc : p.character = 0
    · exact ⟨_, .textEnd hn hc⟩
    · exact ⟨_, .offLines hn hc⟩
  · obtain ⟨before, line, after, hl⟩ := exists_isLine hn
    rcases Nat.lt_or_ge (e.unitsOf line) p.character.toNat with hlt | hle
    · rcases hl.ends with rfl | ⟨rest, rfl⟩
      · exact ⟨_, .offEnd hl hlt⟩
      · exact ⟨_, .lineFeed hl hlt⟩
    · obtain ⟨cs, hcs⟩ := exists_isShortest hle
      exact ⟨_, .inLine hl hcs⟩

/-- What a position denotes lies behind some of the first characters of the text. -/
theorem Denotes.exists_append {text : List Char} {p : Position} {b : Nat}
    (h : Denotes text e p b) : ∃ before after, text = before ++ after ∧ utf8Len before = b := by
  cases h with
  | @inLine before line after cs hl hcs =>
    obtain ⟨more, rfl⟩ := hcs.start
    exact ⟨before ++ cs, more ++ after, by simp [hl.text_eq], String.utf8Len_append ..⟩
  | @lineFeed before line rest hl hlt =>
    exact ⟨before ++ line, '\n' :: rest, by simp [hl.text_eq], String.utf8Len_append ..⟩
  | offEnd hl hlt | offLines hn hc => exact ⟨[], text, rfl, rfl⟩
  | textEnd hn hc => exact ⟨text, [], (List.append_nil _).symm, rfl⟩

/-- What a position in a line that is there denotes. -/
theorem Denotes.cases_of_isLine {text before line after : List Char} {p : Position} {b : Nat}
    (h : Denotes text e p b) (hl : IsLine text p.line.toNat before line after) :
    (∃ cs, IsShortest e line p.character.toNat cs ∧ b = utf8Len before + utf8Len cs) ∨
    (e.unitsOf line < p.character.toNat ∧ after ≠ [] ∧ b = utf8Len before + utf8Len line) ∨
    e.unitsOf line < p.character.toNat ∧ after = [] ∧ b = 0 := by
  -- There are so many line feeds before the line that it is one of the text.
  have hn := hl.count_text
  cases h with
  | inLine hl' hcs =>
    obtain ⟨rfl, rfl, rfl⟩ := hl.unique hl'
    exact .inl ⟨_, hcs, rfl⟩
  | lineFeed hl' hlt =>
    obtain ⟨rfl, rfl, rfl⟩ := hl.unique hl'
    exact .inr (.inl ⟨hlt, by simp, rfl⟩)
  | offEnd hl' hlt =>
    obtain ⟨rfl, rfl, rfl⟩ := hl.unique hl'
    exact .inr (.inr ⟨hlt, rfl, rfl⟩)
  | textEnd hlt hc | offLines hlt hc => omega

/-- The offset of a position is a character boundary. -/
theorem isValid_toOffset (text : String) (p : Position) (e : PositionEncodingKind) :
    String.Pos.Raw.IsValid text ⟨toOffset text p e⟩ := by
  obtain ⟨b, hb⟩ := exists_denotes text.toList e p
  rw [hb.toOffset_eq]
  exact isValid_iff.2 hb.exists_append

/-- The offset of a position is the one that it denotes, and it is a boundary of the text. -/
theorem toOffset_eq_iff (text : String) (p : Position) (e : PositionEncodingKind) :
    (∀ b, toOffset text p e = b ↔ Denotes text.toList e p b) ∧
      toOffset text p e ≤ text.utf8ByteSize ∧
      String.Pos.Raw.IsValid text ⟨toOffset text p e⟩ := by
  have hvalid := isValid_toOffset text p e
  refine ⟨fun b => ⟨?_, Denotes.toOffset_eq⟩, hvalid.le_rawEndPos, hvalid⟩
  rintro rfl
  obtain ⟨b, hb⟩ := exists_denotes text.toList e p
  rwa [hb.toOffset_eq]

/-- A position inside a character is taken to the place behind it. -/
example : toOffset "a\n𒀃b" ⟨1, 1⟩ .utf16 = 6 := by decide

/-! ## The end of a line -/

/-- A position in a line denotes no place behind its end. -/
theorem Denotes.le_end {text before line after : List Char} {p : Position} {b : Nat}
    (h : Denotes text e p b) (hl : IsLine text p.line.toNat before line after) :
    b ≤ utf8Len before + utf8Len line := by
  rcases h.cases_of_isLine hl with ⟨cs, hcs, rfl⟩ | ⟨-, -, rfl⟩ | ⟨-, -, rfl⟩
  · have hlen := String.utf8Len_le_of_prefix hcs.start
    omega
  · exact Nat.le_refl _
  · exact Nat.zero_le _

/-- From the end of a line on, positions are taken back to the line feed. -/
theorem Denotes.eq_end {text before line rest : List Char} {p : Position} {b : Nat}
    (h : Denotes text e p b) (hl : IsLine text p.line.toNat before line ('\n' :: rest))
    (hle : e.unitsOf line ≤ p.character.toNat) : b = utf8Len before + utf8Len line := by
  rcases h.cases_of_isLine hl with ⟨cs, hcs, rfl⟩ | ⟨-, -, rfl⟩ | ⟨-, hafter, -⟩
  · rw [eq_of_unitsOf_le hcs.start (Nat.le_trans hle hcs.le_units)]
  · rfl
  · cases hafter

/-- The end of a line that has one is behind its last unit. -/
theorem endOfLine_of_isLine {text : String} {p : Position} {before line rest : List Char}
    (h : IsLine text.toList p.line.toNat before line ('\n' :: rest)) :
    endOfLine text p e = ⟨p.line, UInt32.ofNat (e.unitsOf line)⟩ := by
  have hcontains : (line ++ '\n' :: rest).contains '\n' = true := by simp
  simp only [endOfLine, h.lineAt_eq, hcontains, if_true, takeWhile_line h.not_mem h.ends]

/-- The last line and those behind it have no end to point to. -/
theorem endOfLine_of_count_le {text : String} {p : Position}
    (h : text.toList.count '\n' ≤ p.line.toNat) : endOfLine text p e = p := by
  have hrest : (lineAt p.line.toNat text.toList 0).2.contains '\n' = false := by
    rcases Nat.lt_or_eq_of_le h with hlt | heq
    · rw [lineAt_of_count_lt hlt]
      rfl
    · -- On the last line no line feed is left.
      obtain ⟨before, line, after, hl⟩ := exists_isLine (Nat.le_of_eq heq.symm)
      have hcount := hl.count_text
      have hafter : '\n' ∉ after := List.count_eq_zero.1 (by omega)
      rw [hl.lineAt_eq]
      simpa [hl.not_mem] using hafter
  simp only [endOfLine, hrest, Bool.false_eq_true, if_false]

/-- The end of a line that has one lies at its line feed, once and for all, and no position of the
line behind that; the positions from the end on are taken back to it.  In the last line and behind
it positions stay as they are. -/
theorem toOffset_endOfLine (text : String) (hsize : text.utf8ByteSize < 2 ^ 32) (p : Position)
    (e : PositionEncodingKind) :
    (p.line.toNat < text.toList.count '\n' →
      ∃ before line rest, IsLine text.toList p.line.toNat before line ('\n' :: rest) ∧
        (endOfLine text p e).line = p.line ∧
        toOffset text (endOfLine text p e) e = utf8Len before + utf8Len line ∧
        endOfLine text (endOfLine text p e) e = endOfLine text p e ∧
        ∀ character : UInt32,
          toOffset text ⟨p.line, character⟩ e ≤ utf8Len before + utf8Len line ∧
          ((endOfLine text p e).character ≤ character →
            toOffset text ⟨p.line, character⟩ e = utf8Len before + utf8Len line)) ∧
    (text.toList.count '\n' ≤ p.line.toNat → endOfLine text p e = p) := by
  refine ⟨fun hn => ?_, endOfLine_of_count_le⟩
  obtain ⟨before, line, after, hl⟩ := exists_isLine (Nat.le_of_lt hn)
  obtain ⟨rest, rfl⟩ := hl.exists_rest hn
  have heq := endOfLine_of_isLine (e := e) hl
  -- The units of the line do not exceed the bytes of the text.
  have hunits : (UInt32.ofNat (e.unitsOf line)).toNat = e.unitsOf line := by
    refine UInt32.toNat_ofNat_of_lt' (Nat.lt_of_le_of_lt (unitsOf_le e line) ?_)
    have hlen := String.utf8Len_toList text
    rw [hl.text_eq, String.utf8Len_append, String.utf8Len_append] at hlen
    exact Nat.lt_of_le_of_lt (by omega) hsize
  have hoffset (character : UInt32) :
      toOffset text ⟨p.line, character⟩ e ≤ utf8Len before + utf8Len line ∧
        (UInt32.ofNat (e.unitsOf line) ≤ character →
          toOffset text ⟨p.line, character⟩ e = utf8Len before + utf8Len line) := by
    obtain ⟨b, hb⟩ := exists_denotes text.toList e ⟨p.line, character⟩
    rw [hb.toOffset_eq, UInt32.le_iff_toNat_le, hunits]
    exact ⟨hb.le_end hl, hb.eq_end hl⟩
  refine ⟨before, line, rest, hl, ?_⟩
  rw [heq]
  exact ⟨rfl, (hoffset _).2 (UInt32.le_refl _), endOfLine_of_isLine hl, hoffset⟩

/-- A text whose first line ends in a character of two units; the second line is empty. -/
def exampleLines : String := "a𒀃\n\nb"

/-- The first line ends behind its three units, and a position far behind is taken back. -/
theorem toOffset_endOfLine_exampleLines :
    exampleLines.utf8ByteSize < 2 ^ 32 ∧ endOfLine exampleLines ⟨0, 0⟩ .utf16 = ⟨0, 3⟩ ∧
      toOffset exampleLines ⟨0, 3⟩ .utf16 = 5 ∧
      toOffset exampleLines ⟨0, 4294967295⟩ .utf16 = 5 := by
  have hsize : exampleLines.utf8ByteSize < 2 ^ 32 := by decide
  have hend : endOfLine exampleLines ⟨0, 0⟩ .utf16 = ⟨0, 3⟩ := by decide
  obtain ⟨before, line, rest, hl, -, -, -, hoffset⟩ :=
    (toOffset_endOfLine exampleLines hsize ⟨0, 0⟩ .utf16).1 (by decide)
  have hl' : IsLine exampleLines.toList 0 [] ['a', '𒀃'] ['\n', '\n', 'b'] :=
    ⟨by decide, rfl, .inl rfl, by decide, .inr ⟨_, rfl⟩⟩
  -- The line of the theorem is the one given here.
  obtain ⟨rfl, rfl, -⟩ := hl.unique hl'
  rw [hend] at hoffset
  exact ⟨hsize, hend, (hoffset 3).2 (by decide), (hoffset 4294967295).2 (by decide)⟩

end Position

end LanguageServer
