import LanguageServer.Proofs.Frame.Field
import LanguageServer.Proofs.Frame.RoundTrip

/-!
# What a frame is

`Frame.IsFramed` says without a reader what the bytes of a frame are: fields on lines of their own,
an empty line, and a body of the length that the last field about it says.

`Frame.read_iff` says that `Frame.read` finds a frame at the front of a stream exactly when there is
one, the end exactly when nothing is left, and an error in every other case but one: it panics at a
header that is in order but announces more bytes than a buffer can have, which happens only under a
limit that allows so many.
-/

namespace LanguageServer

open Text (utf8)

namespace Frame

open Header (Written MadeOf IsMarkedUtf8 IsUtf8Name NamesCharset last?)

/-- The bytes at the front of a stream are a header, with fields on lines of their own and an empty
line, that allows no character sets but some. -/
structure IsHeaded (p : List Char → Prop) (stream : List UInt8) (header : Header)
    (rest : List UInt8) (fields : List Written) : Prop where
  madeOf : header.MadeOf p fields
  oneLine : ∀ w ∈ fields, '\n' ∉ w.line.toList
  stream_eq : stream = (fields.flatMap fun w => utf8 w.line ++ crlf) ++ crlf ++ rest

/-- The bytes at the front of a stream are a frame that allows no character sets but some. -/
structure IsFramed (p : List Char → Prop) (limit : Nat) (stream : List UInt8) (f : Frame)
    (rest : List UInt8) (fields : List Written) : Prop where
  headed : IsHeaded p stream f.header (utf8 f.content ++ rest) fields
  length_eq : f.header.contentLength = (utf8 f.content).length
  length_le : f.header.contentLength ≤ limit
  /-- No text in memory is longer than a buffer can be. -/
  length_le_capacity : f.header.contentLength ≤ capacity

/-- The bytes at the front of a stream are a header for a body that the limit allows and no buffer
can hold. -/
structure Overflows (p : List Char → Prop) (limit : Nat) (stream : List UInt8) (header : Header)
    (rest : List UInt8) (fields : List Written) : Prop where
  headed : IsHeaded p stream header rest fields
  length_le : header.contentLength ≤ limit
  capacity_lt : capacity < header.contentLength

/-- What is a frame with some character sets is one with more. -/
theorem IsFramed.imp {p q : List Char → Prop} (h : ∀ cs, p cs → q cs) {limit : Nat}
    {s rest : List UInt8} {f : Frame} {fields : List Written}
    (hf : IsFramed p limit s f rest fields) : IsFramed q limit s f rest fields :=
  have hm := hf.headed.madeOf
  { hf with
    headed :=
      { hf.headed with madeOf := { hm with charset := fun w hw => (hm.charset w hw).imp h } } }

/-! ## Lines -/

/-- A line ends with the only line feed in it. -/
theorem exists_of_takeLine {s line rest : List UInt8} (h : takeLine s = some (line, rest)) :
    ∃ l, line = l ++ [10] ∧ 10 ∉ l := by
  induction s generalizing line with
  | nil => cases h
  | cons b s ih =>
    simp only [takeLine] at h
    split at h
    · rename_i hb
      cases h
      -- The line ends here.
      exact ⟨[], by rw [hb]; rfl, List.not_mem_nil⟩
    · rename_i hb
      obtain ⟨⟨l, r⟩, hl, he⟩ := Option.map_eq_some_iff.1 h
      cases he
      obtain ⟨l, rfl, hnot⟩ := ih hl
      exact ⟨b :: l, rfl, by simp [Ne.symm hb, hnot]⟩

/-- The end of a line that is right is a carriage return and a line feed. -/
theorem withoutEnd?_eq_some_iff {line l : List UInt8} :
    withoutEnd? line = some l ↔ line = l ++ crlf := by
  refine ⟨fun h => ?_, fun h => h ▸ withoutEnd?_append_crlf l⟩
  simp only [withoutEnd?] at h
  split at h
  · rename_i rest hr
    cases h
    rw [← List.reverse_reverse line, hr]
    simp [crlf]
  · cases h

/-- A line is read exactly when it stands at the front, with its end. -/
theorem readLine_false_eq_text_iff {s rest : List UInt8} {line : String} :
    readLine false s = .text line rest ↔ '\n' ∉ line.toList ∧ s = utf8 line ++ crlf ++ rest := by
  refine ⟨fun h => ?_, fun ⟨hl, hs⟩ => hs ▸ readLine_utf8 hl false rest⟩
  cases ht : takeLine s with
  | none =>
    rw [readLine_false_of_takeLine_eq_none ht] at h
    split at h <;> cases h
  | some p =>
    obtain ⟨bytes, behind⟩ := p
    simp only [readLine, ht, lineOf] at h
    cases hw : withoutEnd? bytes with
    | none => rw [hw] at h; cases h
    | some l =>
      cases ho : Text.ofUtf8 l with
      | error e => simp only [hw, ho] at h; cases h
      | ok text =>
        simp only [hw, ho, Line.text.injEq] at h
        obtain ⟨rfl, rfl⟩ := h
        obtain rfl := Text.ofUtf8_eq_ok_iff.1 ho
        obtain rfl := withoutEnd?_eq_some_iff.1 hw
        refine ⟨fun hmem => ?_, (append_of_takeLine ht).1.symm⟩
        -- A line feed in the text would have ended the line.
        obtain ⟨l, hl, hnot⟩ := exists_of_takeLine ht
        have : utf8 text ++ [13] = l := by
          simpa [crlf] using congrArg List.dropLast hl
        exact hnot (this ▸ List.mem_append_left _ (Text.mem_utf8_of_lineFeed hmem))

/-! ## Headers -/

/-- The lines of a header that is read stand at the front. -/
theorem exists_lines_of_readHeader {n : Nat} {first : Bool} {fields : Header.Partial}
    {s rest : List UInt8} {header : Header}
    (h : readHeader false n first fields s = .header header rest) :
    ∃ lines : List String, (∀ l ∈ lines, '\n' ∉ l.toList ∧ l.isEmpty = false) ∧
      s = (lines.flatMap fun l => utf8 l ++ crlf) ++ crlf ++ rest ∧
      ∃ read, lines.foldlM Header.Partial.add fields = .ok read ∧ read.finish = .ok header := by
  induction n generalizing first fields s with
  | zero => cases h
  | succ n ih =>
    simp only [readHeader] at h
    cases hl : readLine false s with
    | waiting => rw [hl] at h; cases h
    | finished => simp only [hl] at h; split at h <;> cases h
    | broken e => rw [hl] at h; cases h
    | text line behind =>
      obtain ⟨hfeed, rfl⟩ := readLine_false_eq_text_iff.1 hl
      simp only [hl] at h
      split at h
      · -- The empty line is the end of the header.
        rename_i hempty
        cases hf : fields.finish with
        | error e => rw [hf] at h; cases h
        | ok header =>
          simp only [hf, HeaderFront.header.injEq] at h
          obtain ⟨rfl, rfl⟩ := h
          rw [String.isEmpty_iff.1 hempty]
          exact ⟨[], nofun, rfl, fields, rfl, hf⟩
      · rename_i hempty
        cases ha : fields.add line with
        | error e => rw [ha] at h; cases h
        | ok added =>
          rw [ha] at h
          obtain ⟨lines, hlines, rfl, read, hread, hfinish⟩ := ih h
          refine ⟨line :: lines, List.forall_mem_cons.2 ⟨⟨hfeed, by simpa using hempty⟩, hlines⟩,
            by simp, read, ?_, hfinish⟩
          rw [List.foldlM_cons, ha]
          exact hread

/-- The header that is read is the one whose lines stand at the front. -/
theorem readHeader_false_eq_header_iff {n : Nat} {first : Bool} {fields : Header.Partial}
    {s rest : List UInt8} {header : Header} (hn : s.length < n) :
    readHeader false n first fields s = .header header rest ↔
      ∃ lines : List String, (∀ l ∈ lines, '\n' ∉ l.toList ∧ l.isEmpty = false) ∧
        s = (lines.flatMap fun l => utf8 l ++ crlf) ++ crlf ++ rest ∧
        ∃ read, lines.foldlM Header.Partial.add fields = .ok read ∧ read.finish = .ok header := by
  -- What is read is lines and an empty one; and such lines are read, as there is fuel for all of
  -- them.
  refine ⟨exists_lines_of_readHeader, ?_⟩
  rintro ⟨lines, hlines, rfl, read, hread, hfinish⟩
  refine readHeader_lines hlines hread hfinish false first rest ?_
  have := length_le_length_lines lines
  simp only [List.length_append] at hn
  omega

/-- The end of the stream is reported where no header begins. -/
theorem readHeader_false_eq_finished_iff {n : Nat} {first : Bool} {fields : Header.Partial}
    {s : List UInt8} (hn : s.length < n) :
    readHeader false n first fields s = .finished ↔ first = true ∧ s = [] := by
  constructor
  · intro h
    induction n generalizing first fields s with
    | zero => cases h
    | succ n ih =>
      cases ht : takeLine s with
      | none =>
        simp only [readHeader, readLine_false_of_takeLine_eq_none ht] at h
        by_cases hs : s = []
        · cases first
          · rw [hs] at h; cases h
          · exact ⟨rfl, hs⟩
        · simp only [List.isEmpty_iff, if_neg hs] at h
          cases h
      | some p =>
        obtain ⟨line, rest⟩ := p
        have hlt := length_lt_of_takeLine ht
        simp only [readHeader, readLine, ht] at h
        obtain ⟨e, he⟩ | ⟨text, he⟩ := lineOf_cases line
        · simp [he] at h
        -- Behind a line the end of the stream is an error.
        simp only [he] at h
        split at h
        · cases hf : fields.finish <;> simp [hf] at h
        · cases ha : fields.add text with
          | error e => simp [ha] at h
          | ok added =>
            simp only [ha] at h
            exact absurd (ih (by omega) h).1 Bool.false_ne_true
  · rintro ⟨rfl, rfl⟩
    obtain ⟨n, rfl⟩ : ∃ k, n = k + 1 := ⟨n - 1, by simp only [List.length_nil] at hn; omega⟩
    rfl

/-- A header that is read with a character set that is allowed is one, and such a header is read. -/
theorem exists_isHeaded_iff {n : Nat} {s rest : List UInt8} {header : Header} (hn : s.length < n) :
    readHeader false n true {} s = .header header rest ∧ header.checkCharset = .ok () ↔
      ∃ fields, IsHeaded IsMarkedUtf8 s header rest fields := by
  rw [readHeader_false_eq_header_iff hn]
  constructor
  · rintro ⟨⟨lines, hlines, hs, read, hread, hfinish⟩, hcharset⟩
    -- The lines are fields, of which the header is made.
    obtain ⟨fields, rfl, hmade⟩ := Header.exists_madeOf_iff.1 ⟨⟨read, hread, hfinish⟩, hcharset⟩
    refine ⟨fields, hmade, fun w hw => (hlines w.line (List.mem_map_of_mem hw)).1, ?_⟩
    rw [hs, List.flatMap_map]
  · rintro ⟨fields, hmade, hline, hs⟩
    obtain ⟨⟨read, hread, hfinish⟩, hcharset⟩ := Header.exists_madeOf_iff.2 ⟨fields, rfl, hmade⟩
    refine ⟨⟨fields.map Written.line, fun l hl => ?_, ?_, read, hread, hfinish⟩, hcharset⟩
    · -- No field holds a line feed, and none is empty.
      obtain ⟨w, hw, rfl⟩ := List.mem_map.1 hl
      exact ⟨hline w hw, w.isEmpty_line⟩
    · rw [hs, List.flatMap_map]

/-! ## Bodies -/

/-- The frame that is read is the one whose body stands behind its header. -/
theorem readBody_false_eq_frame_iff {limit : Nat} {header : Header} {s rest : List UInt8}
    {f : Frame} :
    readBody limit false header s = .frame f rest ↔
      f.header = header ∧ header.checkCharset = .ok () ∧ header.contentLength ≤ limit ∧
        header.contentLength ≤ capacity ∧ header.contentLength = (utf8 f.content).length ∧
        s = utf8 f.content ++ rest := by
  unfold readBody
  cases hc : header.checkCharset with
  | error e => simp
  | ok u =>
    by_cases hlimit : limit < header.contentLength
    · simp only [if_pos hlimit, reduceCtorEq, false_iff]
      omega
    by_cases hcap : capacity < header.contentLength
    · simp only [if_neg hlimit, if_pos hcap, reduceCtorEq, false_iff]
      omega
    by_cases hs : (s.take header.contentLength).length < header.contentLength
    · -- There is less than the header says.
      simp only [if_neg hlimit, if_neg hcap, if_pos hs, Bool.false_eq_true, if_false, reduceCtorEq,
        false_iff]
      rintro ⟨-, -, -, -, hlength, rfl⟩
      rw [hlength, List.take_left] at hs
      omega
    simp only [if_neg hlimit, if_neg hcap, if_neg hs]
    constructor
    · intro h
      split at h
      · rename_i content ho
        obtain ⟨rfl, rfl⟩ := Front.frame.inj h
        have hbody := Text.ofUtf8_eq_ok_iff.1 ho
        refine ⟨rfl, trivial, by omega, by omega, ?_, ?_⟩
        · rw [← hbody]
          rw [List.length_take] at hs ⊢
          omega
        · rw [← hbody, List.take_append_drop]
      · cases h
    · rintro ⟨rfl, -, -, -, hlength, rfl⟩
      rw [hlength, List.take_left, List.drop_left, Text.ofUtf8_utf8]

/-- The reader panics at a length that the limit allows and no buffer can have, whatever is there of
the body. -/
theorem readBody_eq_overflow_iff {limit : Nat} {more : Bool} {header : Header} {s : List UInt8} :
    readBody limit more header s = .overflow ↔
      header.checkCharset = .ok () ∧ header.contentLength ≤ limit ∧
        capacity < header.contentLength := by
  unfold readBody
  cases hc : header.checkCharset with
  | error e => simp
  | ok u =>
    by_cases hlimit : limit < header.contentLength
    · simp only [if_pos hlimit, reduceCtorEq, false_iff]
      omega
    by_cases hcap : capacity < header.contentLength
    · simp only [if_neg hlimit, if_pos hcap, true_iff]
      exact ⟨trivial, by omega, hcap⟩
    simp only [if_neg hlimit, if_neg hcap]
    refine iff_of_false (fun h => ?_) fun h => hcap h.2.2
    -- A body is waited for, cut short, no text, or a frame.
    split at h
    · split at h <;> cases h
    · split at h <;> cases h

/-- Behind a header the end of the stream is never reported. -/
theorem readBody_ne_finished {limit : Nat} {more : Bool} {header : Header} {s : List UInt8} :
    readBody limit more header s ≠ .finished := by
  intro h
  unfold readBody at h
  split at h
  · cases h
  split at h
  · cases h
  split at h
  · cases h
  dsimp only at h
  split at h
  · split at h <;> cases h
  · split at h <;> cases h

/-! ## Frames -/

/-- What is found behind a header is found in the body. -/
theorem read_eq_iff {limit : Nat} {s : List UInt8} {front : Front} (hw : front ≠ .waiting)
    (hf : front ≠ .finished) (hb : ∀ e, front ≠ .broken e) :
    read limit false s = front ↔ ∃ header rest,
      readHeader false (s.length + 1) true {} s = .header header rest ∧
        readBody limit false header rest = front := by
  unfold read
  cases hh : readHeader false (s.length + 1) true {} s with
  | waiting => simp [hw.symm]
  | finished => simp [hf.symm]
  | broken e => simp [(hb e).symm]
  | header header rest =>
    constructor
    · exact fun h => ⟨header, rest, rfl, h⟩
    · rintro ⟨h, r, he, hb⟩
      -- There is one header to be read.
      obtain ⟨rfl, rfl⟩ := HeaderFront.header.inj he
      exact hb

/-- A frame that is read is one, and a frame is read. -/
theorem read_eq_frame_iff {limit : Nat} {s rest : List UInt8} {f : Frame} :
    read limit false s = .frame f rest ↔ ∃ fields, IsFramed IsMarkedUtf8 limit s f rest fields := by
  rw [@read_eq_iff limit s (.frame f rest) nofun nofun nofun]
  constructor
  · rintro ⟨header, behind, hh, hb⟩
    obtain ⟨rfl, hcharset, hle, hcap, hlength, rfl⟩ := readBody_false_eq_frame_iff.1 hb
    obtain ⟨fields, hheaded⟩ := (exists_isHeaded_iff (Nat.lt_succ_self _)).1 ⟨hh, hcharset⟩
    exact ⟨fields, hheaded, hlength, hle, hcap⟩
  · rintro ⟨fields, hheaded, hlength, hle, hcap⟩
    obtain ⟨hh, hcharset⟩ := (exists_isHeaded_iff (Nat.lt_succ_self _)).2 ⟨fields, hheaded⟩
    exact ⟨_, _, hh, readBody_false_eq_frame_iff.2 ⟨rfl, hcharset, hle, hcap, hlength, rfl⟩⟩

/-- The reader panics at a header that is in order, for a body that no buffer can hold. -/
theorem read_eq_overflow_iff {limit : Nat} {s : List UInt8} :
    read limit false s = .overflow ↔
      ∃ header rest fields, Overflows IsMarkedUtf8 limit s header rest fields := by
  rw [@read_eq_iff limit s .overflow nofun nofun nofun]
  constructor
  · rintro ⟨header, rest, hh, hb⟩
    obtain ⟨hcharset, hle, hcap⟩ := readBody_eq_overflow_iff.1 hb
    -- The header was read before its length is held against the capacity.
    obtain ⟨fields, hheaded⟩ := (exists_isHeaded_iff (Nat.lt_succ_self _)).1 ⟨hh, hcharset⟩
    exact ⟨header, rest, fields, hheaded, hle, hcap⟩
  · rintro ⟨header, rest, fields, hheaded, hle, hcap⟩
    obtain ⟨hh, hcharset⟩ := (exists_isHeaded_iff (Nat.lt_succ_self _)).2 ⟨fields, hheaded⟩
    exact ⟨header, rest, hh, readBody_eq_overflow_iff.2 ⟨hcharset, hle, hcap⟩⟩

/-- A limit that a buffer can stand keeps the reader from panicking. -/
theorem read_ne_overflow {limit : Nat} (h : limit ≤ capacity) (s : List UInt8) :
    read limit false s ≠ .overflow := by
  intro ho
  obtain ⟨header, rest, fields, ho⟩ := read_eq_overflow_iff.1 ho
  exact Nat.lt_irrefl _ (Nat.lt_of_lt_of_le ho.capacity_lt (Nat.le_trans ho.length_le h))

/-- The end of the stream is reported where nothing is left. -/
theorem read_eq_finished_iff {limit : Nat} {s : List UInt8} :
    read limit false s = .finished ↔ s = [] := by
  unfold read
  cases hh : readHeader false (s.length + 1) true {} s with
  | finished =>
    exact iff_of_true rfl ((readHeader_false_eq_finished_iff (Nat.lt_succ_self _)).1 hh).2
  | header header rest =>
    have hne : s ≠ [] := by
      rintro rfl
      cases hh
    -- Once there is a header, the input has not ended between frames.
    exact iff_of_false readBody_ne_finished hne
  | waiting | broken e =>
    refine iff_of_false nofun ?_
    rintro rfl
    cases hh

/-- What a reader finds at the front of a stream that has come to its end: the end itself exactly
when nothing is left, a frame exactly when there is one, and an error in every other case, except
that it panics exactly when a header that is in order announces a body that the limit allows and no
buffer can hold.  The name of its character set, if there is one, may have quotation marks at its
ends, whether they match or not. -/
theorem read_iff (limit : Nat) (s : List UInt8) :
    (read limit false s = .finished ↔ s = []) ∧
      (∀ f rest, read limit false s = .frame f rest ↔
        ∃ fields, IsFramed IsMarkedUtf8 limit s f rest fields) ∧
      (read limit false s = .overflow ↔
        ∃ header rest fields, Overflows IsMarkedUtf8 limit s header rest fields) ∧
      (s = [] ∨ (∃ f rest fields, IsFramed IsMarkedUtf8 limit s f rest fields) ∨
        (∃ header rest fields, Overflows IsMarkedUtf8 limit s header rest fields) ∨
        ∃ e, read limit false s = .broken e) := by
  refine ⟨read_eq_finished_iff, fun f rest => read_eq_frame_iff, read_eq_overflow_iff, ?_⟩
  -- An input that has ended leaves nothing to wait for: one of four outcomes is left.
  cases hr : read limit false s with
  | waiting => exact absurd hr read_false_ne_waiting
  | finished => exact .inl (read_eq_finished_iff.1 hr)
  | frame f rest => exact .inr (.inl ⟨f, rest, read_eq_frame_iff.1 hr⟩)
  | overflow => exact .inr (.inr (.inl (read_eq_overflow_iff.1 hr)))
  | broken e => exact .inr (.inr (.inr ⟨e, rfl⟩))

example : read 0xffffffffffffffff true (utf8 "Content-Length: 9223372036854775808\r\n\r\n") =
    .overflow := by rfl

/-- A name of UTF-8, bare or between two quotation marks. -/
def IsQuotedUtf8 (cs : List Char) : Prop :=
  IsUtf8Name cs ∨ ∃ name, cs = '"' :: name ++ ['"'] ∧ IsUtf8Name name

/-- A name in a pair of quotation marks is one between any number of them. -/
theorem IsQuotedUtf8.isMarkedUtf8 {cs : List Char} (h : IsQuotedUtf8 cs) : IsMarkedUtf8 cs := by
  obtain h | ⟨name, rfl, h⟩ := h
  · exact ⟨[], cs, [], by simp, nofun, h⟩
  · exact ⟨['"'], name, ['"'], rfl, by simp, h⟩

/-- A frame whose character set has a quotation mark before it and none behind it. -/
def exampleHalfQuoted : Frame :=
  ⟨{ contentLength := 2, contentType := "a; charset=\"utf-8" }, "{}"⟩

/-- The frame is read though what its character set is called is not in quotation marks. -/
theorem accepted_exampleHalfQuoted :
    read 64 false exampleHalfQuoted.bytes = .frame exampleHalfQuoted [] ∧
      ∀ f rest fields, ¬ IsFramed IsQuotedUtf8 64 exampleHalfQuoted.bytes f rest fields := by
  have hread : read 64 false exampleHalfQuoted.bytes = .frame exampleHalfQuoted [] := by
    have h := @read_bytes_append 64 exampleHalfQuoted
      ⟨⟨by decide, ⟨by decide +kernel, by decide⟩, nofun, nofun, nofun⟩, if_pos (by decide +kernel),
        rfl, by decide, by decide⟩ false []
    rwa [List.append_nil] at h
  refine ⟨hread, fun f rest fields h => ?_⟩
  -- No other frame stands there, and the content type of this one is as it is.
  have hf := read_eq_frame_iff.2 ⟨fields, h.imp fun _ => IsQuotedUtf8.isMarkedUtf8⟩
  rw [hread] at hf
  obtain ⟨rfl, -⟩ := Front.frame.inj hf
  have hmade := h.headed.madeOf
  have htype := hmade.contentType
  cases ht : last? "content-type" fields with
  | none =>
    rw [ht] at htype
    exact absurd htype (by decide)
  | some w =>
    have hvalue : w.value = "a; charset=\"utf-8".toList := by
      rw [ht, Option.elim_some] at htype
      rw [← String.toList_ofList (l := w.value), ← htype]
      rfl
    have hnames : NamesCharset " charset=\"utf-8".toList "\"utf-8".toList :=
      ⟨"charset".toList, "\"utf-8".toList, by decide, by decide, by decide, by decide⟩
    have hquoted := hmade.charset w ht ["a".toList] " charset=\"utf-8".toList [] "\"utf-8".toList
      (by rw [hvalue]; decide) ?_ hnames
    · obtain h | ⟨name, hname, -⟩ := hquoted
      · exact absurd h (by unfold IsUtf8Name; decide)
      · -- The last character is no quotation mark.
        have hlast := congrArg List.getLast? hname
        rw [List.getLast?_concat] at hlast
        exact absurd hlast (by decide)
    · intro q hq v hv
      rw [List.mem_singleton] at hq
      subst hq
      obtain ⟨key, raw, he, -⟩ := hv
      have : '=' ∈ Text.strip "a".toList := by rw [he]; simp
      exact absurd this (by decide)

end Frame

end LanguageServer
