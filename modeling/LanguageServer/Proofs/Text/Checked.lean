import LanguageServer.Proofs.Text.Line
import LanguageServer.Proofs.Text.Utf8

/-!
# Positions are computed without overflow

`Position.toOffset`, `Position.endOfLine` and `Position.ofOffset` compute with natural numbers and
go through a text once.  A machine looks for the bytes of line feeds, cuts the text at byte indices,
steps back from inside a character, and counts in words of 32 bits.  Here the conversions are
written out as the machine does them, and every step that can go wrong gives `none` when it does: a
sum that does not fit a word, a difference below zero, a cut inside a character or behind the end, a
loop that has used up its steps.

* `Position.sum?_eq`: the units of characters, added up one by one, fit when their number does.
* `Position.lineStart?_of_isLine`: the byte index behind as many line feeds is where a line begins.
* `Position.back?_of_cuts`: three steps back are enough to leave a character.
* `Position.checked_eq_some`: in a text whose size fits a word nothing goes wrong, and the results
  are those of the natural numbers.
-/

namespace LanguageServer

open String (utf8Len)

namespace Position

variable {e : PositionEncodingKind}

/-! ## Words -/

/-- A number as a word; nothing when it does not fit. -/
def word? (n : Nat) : Option UInt32 :=
  if n < UInt32.size then some (.ofNat n) else none

/-- The sum of two words; nothing on overflow. -/
def add? (m n : UInt32) : Option UInt32 := word? (m.toNat + n.toNat)

/-- The number before; nothing before zero. -/
def pred? : Nat → Option Nat
  | 0 => none
  | n + 1 => some n

/-- A number below the words is a word. -/
theorem word?_of_lt {n : Nat} (h : n < UInt32.size) : word? n = some (.ofNat n) := if_pos h

/-- A number that fits can be added to when the sum fits. -/
theorem add?_ofNat {m n : Nat} (hm : m < UInt32.size) (hn : n < UInt32.size) :
    add? (.ofNat m) (.ofNat n) = word? (m + n) := by
  rw [add?, UInt32.toNat_ofNat_of_lt' hm, UInt32.toNat_ofNat_of_lt' hn]

/-- The sum of two words may need one bit more. -/
example : add? 4294967295 1 = none := by decide

/-! ## Adding up units -/

/-- Add the units of a character to those counted so far. -/
def countUnits? (e : PositionEncodingKind) (count : UInt32) (c : Char) : Option UInt32 := do
  add? count (← word? (e.units c))

/-- The units of characters, added up one by one. -/
def sum? (e : PositionEncodingKind) (cs : List Char) : Option UInt32 :=
  cs.foldlM (countUnits? e) 0

/-- Counting one more character fits when the number does. -/
theorem countUnits?_ofNat {c : Char} {count : Nat} (h : count + e.units c < UInt32.size) :
    countUnits? e (.ofNat count) c = some (.ofNat (count + e.units c)) := by
  have hunits : word? (e.units c) = some (.ofNat (e.units c)) := word?_of_lt (by omega)
  unfold countUnits?
  rw [hunits]
  show add? _ _ = _
  rw [add?_ofNat (by omega) (by omega), word?_of_lt h]

/-- Counting characters fits when the number of all does. -/
private theorem foldlM_countUnits? (cs : List Char) {count : Nat}
    (h : count + e.unitsOf cs < UInt32.size) :
    cs.foldlM (countUnits? e) (UInt32.ofNat count) = some (.ofNat (count + e.unitsOf cs)) := by
  induction cs generalizing count with
  | nil => rfl
  | cons c cs ih =>
    rw [PositionEncodingKind.unitsOf, ← Nat.add_assoc] at h ⊢
    rw [List.foldlM_cons, countUnits?_ofNat (by omega)]
    exact ih h

/-- No sum on the way is larger than the last one. -/
theorem sum?_eq {cs : List Char} (h : e.unitsOf cs < UInt32.size) :
    sum? e cs = some (.ofNat (e.unitsOf cs)) := by
  have hsum : cs.foldlM (countUnits? e) (.ofNat 0) = some (.ofNat (0 + e.unitsOf cs)) :=
    foldlM_countUnits? cs (by omega)
  rwa [Nat.zero_add] at hsum

/-! ## Cutting at a byte -/

/-- The characters before a byte index and those behind it; nothing when the index lies inside a
character or behind the end. -/
def cut? : Nat → List Char → Option (List Char × List Char)
  | 0, cs => some ([], cs)
  | _ + 1, [] => none
  | n + 1, c :: cs =>
    if c.utf8Size ≤ n + 1 then
      (cut? (n + 1 - c.utf8Size) cs).map fun (before, after) => (c :: before, after)
    else none

/-- A text can be cut behind any of its characters. -/
theorem cut?_append (before after : List Char) :
    cut? (utf8Len before) (before ++ after) = some (before, after) := by
  induction before with
  | nil => cases after <;> rfl
  | cons c before ih =>
    have hpos := c.utf8Size_pos
    obtain ⟨n, hn⟩ : ∃ n, utf8Len (c :: before) = n + 1 :=
      Nat.exists_eq_succ_of_ne_zero (by rw [String.utf8Len_cons]; omega)
    -- Behind the first character the rest of the bytes are to be cut off.
    have hrest : n + 1 - c.utf8Size = utf8Len before := by
      rw [← hn, String.utf8Len_cons]; omega
    rw [hn, List.cons_append, cut?, hrest, ih, if_pos (by rw [← hn, String.utf8Len_cons]; omega)]
    rfl

/-- No cut leads into a character. -/
theorem cut?_inside {before after : List Char} {c : Char} {offset : Nat}
    (hlt : utf8Len before < offset) (h : offset < utf8Len before + c.utf8Size) :
    cut? offset (before ++ c :: after) = none := by
  induction before generalizing offset with
  | nil =>
    rw [String.utf8Len_nil] at hlt h
    -- The offset lies in the first character, which does not fit before it.
    obtain ⟨n, rfl⟩ := Nat.exists_eq_succ_of_ne_zero (Nat.ne_of_gt hlt)
    rw [List.nil_append, cut?, if_neg (by omega)]
  | cons d before ih =>
    rw [String.utf8Len_cons] at hlt h
    obtain ⟨n, rfl⟩ := Nat.exists_eq_succ_of_ne_zero (show offset ≠ 0 by omega)
    rw [List.cons_append, cut?, if_pos (by omega), ih (by omega) (by omega)]
    rfl

/-! ## Stepping back -/

/-- The last boundary up to an offset, at most so many steps back. -/
def back? : Nat → List Char → Nat → Option Nat
  | 0, cs, offset => if (cut? offset cs).isSome then some offset else none
  | steps + 1, cs, offset =>
    if (cut? offset cs).isSome then some offset else do back? steps cs (← pred? offset)

/-- An offset inside a character is led back to its first byte. -/
theorem back?_append {before after : List Char} {c : Char} {steps more : Nat}
    (hsteps : more ≤ steps) (h : more < c.utf8Size) :
    back? steps (before ++ c :: after) (utf8Len before + more) = some (utf8Len before) := by
  induction more generalizing steps with
  | zero =>
    have hcut := cut?_append before (c :: after)
    unfold back?
    cases steps <;> simp [hcut]
  | succ more ih =>
    obtain ⟨steps, rfl⟩ := Nat.exists_eq_succ_of_ne_zero (show steps ≠ 0 by omega)
    -- Inside a character there is no cut, so that it goes one byte back.
    have hcut : cut? (utf8Len before + (more + 1)) (before ++ c :: after) = none :=
      cut?_inside (by omega) (by omega)
    rw [back?, hcut, Option.isSome_none, if_neg Bool.false_ne_true, ← Nat.add_assoc]
    exact ih (by omega) (by omega)

/-- A character has at most four bytes, so three steps are enough. -/
theorem back?_of_cuts {before after : List Char} {offset : Nat} (h : Cuts offset before after)
    (hle : offset ≤ utf8Len (before ++ after)) :
    back? 3 (before ++ after) offset = some (utf8Len before) := by
  have hbefore := h.le
  cases after with
  | nil =>
    rw [List.append_nil] at hle
    have hcut := cut?_append before []
    rw [List.append_nil] at hcut
    obtain rfl : offset = utf8Len before := by omega
    simp [back?, hcut]
  | cons c after =>
    have hlt := h.lt c rfl
    have := c.utf8Size_le_four
    -- A character has four bytes at most, so that three steps are enough.
    have hback : back? 3 (before ++ c :: after) (utf8Len before + (offset - utf8Len before)) =
        some (utf8Len before) := back?_append (by omega) (by omega)
    rwa [Nat.add_sub_cancel' hbefore] at hback

/-! ## Line feeds -/

/-- The byte indices of the line feeds. -/
def lineFeeds (cs : List Char) : List Nat := (Text.utf8OfChars cs).idxsOf 10

/-- A text has as many bytes as its characters take. -/
theorem length_utf8OfChars (cs : List Char) : (Text.utf8OfChars cs).length = utf8Len cs := by
  induction cs with
  | nil => rfl
  | cons c cs ih =>
    rw [Text.utf8OfChars, List.flatMap_cons, List.length_append, String.length_utf8EncodeChar,
      String.utf8Len_cons]
    rw [Text.utf8OfChars] at ih
    omega

/-- Each line feed is one byte, and no other character has that byte. -/
theorem countP_utf8EncodeChar (c : Char) :
    (String.utf8EncodeChar c).countP (· == 10) = if c = '\n' then 1 else 0 := by
  by_cases hc : c = '\n'
  · subst hc
    rfl
  · rw [if_neg hc, List.countP_eq_zero]
    intro b hb hten
    rw [eq_of_beq hten] at hb
    exact hc (Text.lineFeed_mem_utf8EncodeChar hb)

/-- There are as many offsets of line feeds as line feeds. -/
theorem length_lineFeeds (cs : List Char) : (lineFeeds cs).length = cs.count '\n' := by
  rw [lineFeeds, List.idxsOf, List.length_findIdxs]
  induction cs with
  | nil => rfl
  | cons c cs ih =>
    rw [Text.utf8OfChars] at ih ⊢
    rw [List.flatMap_cons, List.countP_append, countP_utf8EncodeChar, ih, List.count_cons]
    by_cases hc : c = '\n' <;> simp [hc, Nat.add_comm]

/-- Without line feeds there are no offsets of any. -/
theorem lineFeeds_of_not_mem {cs : List Char} (h : '\n' ∉ cs) : lineFeeds cs = [] := by
  rw [← List.length_eq_zero_iff, length_lineFeeds, List.count_eq_zero_of_not_mem h]

/-- The index of a line feed is the number of bytes before it. -/
theorem lineFeeds_append (ls rest : List Char) :
    lineFeeds (ls ++ '\n' :: rest) =
      lineFeeds ls ++ utf8Len ls :: (lineFeeds rest).map (· + (utf8Len ls + 1)) := by
  have hbytes : Text.utf8OfChars (ls ++ '\n' :: rest) =
      Text.utf8OfChars ls ++ 10 :: Text.utf8OfChars rest := by
    simp only [Text.utf8OfChars, List.flatMap_append, List.flatMap_cons]
    rfl
  simp only [lineFeeds, List.idxsOf, hbytes, List.findIdxs_append, List.findIdxs_cons,
    length_utf8OfChars, Nat.zero_add, BEq.rfl, if_true]
  rw [List.findIdxs_start (s := utf8Len ls + 1)]

/-! ## Where a line begins -/

/-- The byte index behind the line feed that ends the line before; the end of the text when there
are too few lines. -/
def lineStart? (text : String) (line : UInt32) : Option Nat :=
  if line = 0 then some 0
  else do
    let n ← pred? line.toNat
    some ((lineFeeds text.toList)[n]?.elim text.utf8ByteSize (· + 1))

/-- A line that is there starts behind what is before it. -/
theorem lineStart?_of_isLine {text : String} {n : UInt32} {before line after : List Char}
    (h : IsLine text.toList n.toNat before line after) :
    lineStart? text n = some (utf8Len before) := by
  have hcount := h.count_eq
  unfold lineStart?
  by_cases hn : n = 0
  · -- No line feed stands before the first line.
    subst hn
    rw [if_pos rfl]
    rcases h.begins with rfl | ⟨ls, rfl⟩
    · rfl
    · simp at hcount
  · rcases h.begins with rfl | ⟨ls, rfl⟩
    · exact absurd (UInt32.toNat_inj.1 hcount.symm) hn
    · have hls : n.toNat = (lineFeeds ls).length + 1 := by
        rw [length_lineFeeds, ← hcount]; simp
      have htext : text.toList = ls ++ '\n' :: (line ++ after) := by simp [h.text_eq]
      rw [if_neg hn, hls, htext, lineFeeds_append]
      simp [pred?, show '\n'.utf8Size = 1 from rfl]

/-- A line that is not there starts at the end of the text. -/
theorem lineStart?_of_count_lt {text : String} {n : UInt32}
    (h : text.toList.count '\n' < n.toNat) : lineStart? text n = some text.utf8ByteSize := by
  have hn : n ≠ 0 := by
    rintro rfl
    exact absurd h (Nat.not_lt_zero _)
  obtain ⟨m, hm⟩ := Nat.exists_eq_succ_of_ne_zero (Nat.ne_of_gt (Nat.zero_lt_of_lt h))
  have hnone : (lineFeeds text.toList)[m]? = none := by
    rw [List.getElem?_eq_none_iff, length_lineFeeds]
    omega
  rw [lineStart?, if_neg hn, hm]
  simp [pred?, hnone]

/-- Going to a line leads where it begins, and the text can be cut there. -/
theorem exists_lineStart? (text : String) (n : UInt32) :
    ∃ before after, text.toList = before ++ after ∧ lineStart? text n = some (utf8Len before) ∧
      lineAt n.toNat text.toList 0 = (utf8Len before, after) := by
  rcases Nat.lt_or_ge (text.toList.count '\n') n.toNat with hn | hn
  · refine ⟨text.toList, [], (List.append_nil _).symm, ?_, ?_⟩
    · rw [lineStart?_of_count_lt hn, String.utf8Len_toList]
    · rw [lineAt_of_count_lt hn, Nat.zero_add]
  · obtain ⟨before, line, after, h⟩ := exists_isLine hn
    exact ⟨before, line ++ after, h.text_eq, lineStart?_of_isLine h, by
      rw [h.lineAt_eq, Nat.zero_add]⟩

/-! ## The conversions -/

/-- Go along a line from an index in it; `size` is the size of the text. -/
def walk? (e : PositionEncodingKind) (character : UInt32) (start size : Nat) :
    List Char → Nat → UInt32 → Option Nat
  | [], _, count => if count < character then some 0 else some size
  | c :: cs, index, count =>
    if count < character then
      if c = '\n' then some (start + index)
      else do walk? e character start size cs (index + c.utf8Size) (← countUnits? e count c)
    else some (start + index)

/-- `Position.toOffset`, checked. -/
def toOffset? (text : String) (p : Position) (e : PositionEncodingKind) : Option Nat := do
  let start ← lineStart? text p.line
  let (_, chars) ← cut? start text.toList
  walk? e p.character start text.utf8ByteSize chars 0 0

/-- `Position.endOfLine`, checked. -/
def endOfLine? (text : String) (p : Position) (e : PositionEncodingKind) : Option Position := do
  let start ← lineStart? text p.line
  let (_, line) ← cut? start text.toList
  match (lineFeeds line).head? with
  | some newline =>
    let (chars, _) ← cut? newline line
    some ⟨p.line, ← sum? e chars⟩
  | none => some p

/-- The position behind characters: the number of their line feeds, and the units behind the last
one. -/
def ofEnd? (e : PositionEncodingKind) (before : List Char) : Option Position := do
  let begins := (lineFeeds before).getLast?.elim 0 (· + 1)
  let line ← word? (lineFeeds before).length
  let (_, chars) ← cut? begins before
  some ⟨line, ← sum? e chars⟩

/-- `Position.ofOffset`, checked. -/
def ofOffset? (text : String) (offset : Nat) (e : PositionEncodingKind) : Option Position := do
  let offset ← back? 3 text.toList (min offset text.utf8ByteSize)
  let (before, _) ← cut? offset text.toList
  ofEnd? e before

/-- What is counted never exceeds the bytes that were gone past, however far the position asks to
go. -/
theorem walk?_eq {character : UInt32} {start size : Nat} (cs : List Char) (index count : Nat)
    (hcount : count + utf8Len cs < UInt32.size) (hsize : start + index + utf8Len cs = size) :
    walk? e character start size cs index (.ofNat count) =
      some (walk e character.toNat cs count (start + index)) := by
  induction cs generalizing index count with
  | nil =>
    rw [String.utf8Len_nil, Nat.add_zero] at hcount hsize
    have hlt : UInt32.ofNat count < character ↔ count < character.toNat := by
      rw [UInt32.lt_iff_toNat_lt, UInt32.toNat_ofNat_of_lt' hcount]
    simp only [walk?, walk, hlt, hsize]
    split <;> rfl
  | cons c cs ih =>
    have hle := e.units_le c
    rw [String.utf8Len_cons] at hcount hsize
    have hlt : UInt32.ofNat count < character ↔ count < character.toNat := by
      rw [UInt32.lt_iff_toNat_lt, UInt32.toNat_ofNat_of_lt' (by omega)]
    simp only [walk?, walk, hlt]
    -- The counts are the same numbers, be they words or not.
    by_cases hc : count < character.toNat
    · rw [if_pos hc, if_pos hc]
      by_cases hn : c = '\n'
      · rw [if_pos hn, if_pos hn]
      · rw [if_neg hn, if_neg hn, countUnits?_ofNat (by omega), Nat.add_assoc start]
        exact ih _ _ (by omega) (by omega)
    · rw [if_neg hc, if_neg hc]

/-- The offset of a position is found without fail. -/
theorem toOffset?_eq {text : String} (hsize : text.utf8ByteSize < 2 ^ 32) (p : Position) :
    toOffset? text p e = some (toOffset text p e) := by
  obtain ⟨before, after, htext, hstart, hline⟩ := exists_lineStart? text p.line
  have hlen := String.utf8Len_toList text
  rw [htext, String.utf8Len_append] at hlen
  have hbound : (2 : Nat) ^ 32 = UInt32.size := rfl
  -- The sizes leave room for every addition of the walk.
  have hwalk : walk? e p.character (utf8Len before) text.utf8ByteSize after 0 (.ofNat 0) =
      some (walk e p.character.toNat after 0 (utf8Len before + 0)) :=
    walk?_eq after 0 0 (by omega) (by omega)
  simp only [toOffset?, toOffset, hstart, hline, Option.bind_eq_bind, Option.bind_some]
  rw [htext, cut?_append]
  exact hwalk

/-- The end of a line is found without fail. -/
theorem endOfLine?_eq {text : String} (hsize : text.utf8ByteSize < 2 ^ 32) (p : Position) :
    endOfLine? text p e = some (endOfLine text p e) := by
  obtain ⟨before, after, htext, hstart, hline⟩ := exists_lineStart? text p.line
  have hlen := String.utf8Len_toList text
  rw [htext, String.utf8Len_append] at hlen
  simp only [endOfLine?, endOfLine, hstart, hline, Option.bind_eq_bind, Option.bind_some]
  rw [htext, cut?_append]
  obtain ⟨line, rest, rfl, hnot, hends⟩ := exists_lineFeed after
  rcases hends with rfl | ⟨rest, rfl⟩
  · -- No line feed ends the line.
    rw [List.append_nil]
    simp [lineFeeds_of_not_mem hnot, hnot]
  · have hunits := unitsOf_le e line
    have hbound : (2 : Nat) ^ 32 = UInt32.size := rfl
    rw [String.utf8Len_append] at hlen
    have hsum : sum? e line = some (.ofNat (e.unitsOf line)) := sum?_eq (by omega)
    have hhead : (lineFeeds (line ++ '\n' :: rest)).head? = some (utf8Len line) := by
      rw [lineFeeds_append, lineFeeds_of_not_mem hnot]
      rfl
    simp only [Option.bind_some, hhead, cut?_append, hsum, takeWhile_line hnot (.inr ⟨rest, rfl⟩)]
    simp

/-- The line feeds among characters and the units behind the last one are what is counted. -/
theorem ofEnd?_eq {before : List Char} (hsize : utf8Len before < UInt32.size) :
    ofEnd? e before = some (ofCounts (before.foldl (advance e) (0, 0))) := by
  obtain ⟨h₁, h₂⟩ := foldl_advance_le (e := e) before (0, 0)
  have hcount := foldl_advance_fst (e := e) before (0, 0)
  simp only [Nat.zero_add] at h₁ h₂ hcount
  have hword : word? (lineFeeds before).length =
      some (.ofNat (before.foldl (advance e) (0, 0)).1) := by
    rw [length_lineFeeds, ← hcount, word?_of_lt (by omega)]
  -- What is added up are the units behind the last line feed.
  have hsum : ∃ cs line, cut? ((lineFeeds before).getLast?.elim 0 (· + 1)) before =
      some (cs, line) ∧ (before.foldl (advance e) (0, 0)).2 = e.unitsOf line := by
    rcases not_mem_or_exists_last before with h | ⟨ls, line, rfl, h⟩
    · refine ⟨[], before, ?_, ?_⟩
      · rw [lineFeeds_of_not_mem h]
        exact cut?_append [] before
      · rw [foldl_advance_of_not_mem h, Nat.zero_add]
    · refine ⟨ls ++ ['\n'], line, ?_, ?_⟩
      · have hcut := cut?_append (ls ++ ['\n']) line
        rw [lineFeeds_append, lineFeeds_of_not_mem h]
        simpa [show '\n'.utf8Size = 1 from rfl] using hcut
      · rw [List.foldl_append, List.foldl_cons, foldl_advance_of_not_mem h, advance, if_pos rfl,
          Nat.zero_add]
  obtain ⟨cs, line, hcut, hunits⟩ := hsum
  have hline : sum? e line = some (.ofNat (e.unitsOf line)) := sum?_eq (by omega)
  simp only [ofEnd?, hcut, hword, hline, Option.bind_eq_bind, Option.bind_some, ofCounts, hunits]

/-- The position of an offset is found without fail. -/
theorem ofOffset?_eq {text : String} (hsize : text.utf8ByteSize < 2 ^ 32) (offset : Nat) :
    ofOffset? text offset e = some (ofOffset text offset e) := by
  obtain ⟨before, after, htext, hcuts⟩ := exists_cuts offset text.toList
  have hlen := String.utf8Len_toList text
  rw [htext] at hlen
  have hbefore : utf8Len before ≤ text.utf8ByteSize := by
    rw [← hlen, String.utf8Len_append]
    exact Nat.le_add_right ..
  -- An offset behind the end is taken back to the end first, which cuts the text alike.
  have hmin : Cuts (min offset text.utf8ByteSize) before after :=
    ⟨Nat.le_min.2 ⟨hcuts.le, hbefore⟩, fun c hc =>
      Nat.lt_of_le_of_lt (Nat.min_le_left ..) (hcuts.lt c hc)⟩
  have hback := back?_of_cuts hmin (by rw [hlen]; exact Nat.min_le_right ..)
  rw [ofOffset?, ofOffset_eq htext hcuts, htext, hback]
  simp only [Option.bind_eq_bind, Option.bind_some, cut?_append]
  exact ofEnd?_eq (Nat.lt_of_le_of_lt hbefore hsize)

/-- In a text whose size fits a word no sum overflows, whatever position or offset is asked for, no
difference goes below zero, every cut is made between two characters, three steps lead back from
inside a character, and the results are those of the natural numbers. -/
theorem checked_eq_some (text : String) (hsize : text.utf8ByteSize < 2 ^ 32)
    (e : PositionEncodingKind) :
    (∀ p, toOffset? text p e = some (toOffset text p e)) ∧
      (∀ p, endOfLine? text p e = some (endOfLine text p e)) ∧
      ∀ offset, ofOffset? text offset e = some (ofOffset text offset e) :=
  ⟨toOffset?_eq hsize, endOfLine?_eq hsize, ofOffset?_eq hsize⟩

/-- The last character that can be asked for, and the last byte of a character of four. -/
theorem checked_exampleLines :
    exampleLines.utf8ByteSize < 2 ^ 32 ∧
      toOffset? exampleLines ⟨0, 4294967295⟩ .utf16 = some 5 ∧
      endOfLine? exampleLines ⟨0, 0⟩ .utf16 = some ⟨0, 3⟩ ∧
      ofOffset? exampleLines 4 .utf16 = some ⟨0, 1⟩ := by
  have hsize : exampleLines.utf8ByteSize < 2 ^ 32 := by decide
  obtain ⟨hto, hend, hof⟩ := checked_eq_some exampleLines hsize .utf16
  refine ⟨hsize, ?_, ?_, ?_⟩
  · rw [hto]
    decide
  · rw [hend]
    decide
  · rw [hof]
    decide

end Position

end LanguageServer
