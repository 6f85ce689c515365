import LanguageServer.Frame.Basic

/-!
# Reading a stream frame after frame

What `Frame.read` finds at the front of a stream depends only on the bytes that it needs:

* `read_append`: what is decided before the end of the stream stays when more bytes come;
* `read_false_of_waiting`: where more bytes are waited for, the end of the stream is reported when
  nothing has come yet, and is an error otherwise;
* `reads_readAll`: `Frame.readAll` reads on until there is no frame at the front, so it never stops
  for want of fuel.

The panic of the reader is a decision like any other: it needs the header only, and it stays.
-/

namespace LanguageServer

namespace Frame

/-! ## Lines -/

/-- A line and what is behind it are the stream. -/
theorem append_of_takeLine {s line rest : List UInt8} (h : takeLine s = some (line, rest)) :
    line ++ rest = s ∧ line ≠ [] := by
  -- The line ends at the first line feed, which is its own last byte.
  induction s generalizing line with
  | nil => simp [takeLine] at h
  | cons b s ih =>
    simp only [takeLine] at h
    split at h
    · simp only [Option.some.injEq, Prod.mk.injEq] at h
      obtain ⟨rfl, rfl⟩ := h
      simp
    · obtain ⟨⟨l, r⟩, hl, he⟩ := Option.map_eq_some_iff.1 h
      simp only [Prod.mk.injEq] at he
      obtain ⟨rfl, rfl⟩ := he
      simp [(ih hl).1]

/-- What is behind a line is shorter than the stream. -/
theorem length_lt_of_takeLine {s line rest : List UInt8} (h : takeLine s = some (line, rest)) :
    rest.length < s.length := by
  obtain ⟨rfl, hne⟩ := append_of_takeLine h
  have := List.length_pos_iff.2 hne
  simp only [List.length_append]
  omega

/-- A line stays where it is when more bytes come. -/
theorem takeLine_append {s line rest : List UInt8} (h : takeLine s = some (line, rest))
    (more : List UInt8) : takeLine (s ++ more) = some (line, rest ++ more) := by
  induction s generalizing line with
  | nil => simp [takeLine] at h
  | cons b s ih =>
    simp only [takeLine, List.cons_append] at h ⊢
    split at h
    · rename_i hb
      simp only [Option.some.injEq, Prod.mk.injEq] at h
      obtain ⟨rfl, rfl⟩ := h
      rw [if_pos hb]
    · rename_i hb
      obtain ⟨⟨l, r⟩, hl, he⟩ := Option.map_eq_some_iff.1 h
      simp only [Prod.mk.injEq] at he
      obtain ⟨rfl, rfl⟩ := he
      -- What follows the input is not looked at before the line has ended.
      rw [if_neg hb, ih hl]
      rfl

/-- The first line feed ends the first line. -/
theorem takeLine_of_not_mem {line : List UInt8} (h : 10 ∉ line) (rest : List UInt8) :
    takeLine (line ++ 10 :: rest) = some (line ++ [10], rest) := by
  induction line with
  | nil => simp [takeLine]
  | cons b line ih =>
    simp only [List.mem_cons, not_or] at h
    simp only [List.cons_append, takeLine]
    rw [if_neg (Ne.symm h.1), ih h.2]
    rfl

/-- Without a line there is no line feed. -/
theorem not_mem_of_takeLine_eq_none {s : List UInt8} (h : takeLine s = none) : 10 ∉ s := by
  induction s with
  | nil => simp
  | cons b s ih =>
    simp only [takeLine] at h
    split at h
    · simp at h
    · rename_i hb
      simp only [List.mem_cons, not_or]
      exact ⟨Ne.symm hb, ih (Option.map_eq_none_iff.1 h)⟩

/-- A line with a right end has a line feed. -/
theorem withoutEnd?_eq_none {line : List UInt8} (h : 10 ∉ line) : withoutEnd? line = none := by
  simp only [withoutEnd?]
  split
  · rename_i rest hr
    exact absurd (List.mem_reverse.1 (hr ▸ List.mem_cons_self)) h
  · rfl

/-- The end of a line is taken off. -/
theorem withoutEnd?_append_crlf (line : List UInt8) : withoutEnd? (line ++ crlf) = some line := by
  simp [withoutEnd?, crlf]

/-- What is left at the end of the stream, if anything is, is no line. -/
theorem readLine_false_of_takeLine_eq_none {s : List UInt8} (h : takeLine s = none) :
    readLine false s = if s.isEmpty then .finished
      else .broken (.transport "Header line not terminated by CRLF") := by
  simp only [readLine, h, Bool.false_eq_true, if_false]
  split
  · rfl
  · rw [lineOf, withoutEnd?_eq_none (not_mem_of_takeLine_eq_none h)]

/-- The end of a line is right or wrong whatever is behind it. -/
theorem lineOf_cases (line : List UInt8) :
    (∃ e, ∀ rest, lineOf line rest = .broken e) ∨
      ∃ text, ∀ rest, lineOf line rest = .text text rest := by
  cases hw : withoutEnd? line with
  | none => exact .inl ⟨_, fun _ => by rw [lineOf, hw]⟩
  | some bytes =>
    cases ho : Text.ofUtf8 bytes with
    | error e => exact .inl ⟨.transport ("Invalid UTF-8 in header: " ++ e.message), fun _ => by
        simp only [lineOf, hw, ho]⟩
    | ok text => exact .inr ⟨text, fun _ => by simp only [lineOf, hw, ho]⟩

/-! ## More bytes -/

/-- The same, with more bytes behind it. -/
def HeaderFront.extend (more : List UInt8) : HeaderFront → HeaderFront
  | .header h rest => .header h (rest ++ more)
  | front => front

/-- The same, with more bytes behind it. -/
def Front.extend (more : List UInt8) : Front → Front
  | .frame f rest => .frame f (rest ++ more)
  | front => front

/-- A header that is decided before the end of the stream stays when more bytes come. -/
theorem readHeader_append {n k : Nat} {first : Bool} {fields : Header.Partial} {s : List UInt8}
    (h : readHeader true n first fields s ≠ .waiting) (hk : n ≤ k) (more : Bool)
    (t : List UInt8) :
    readHeader more k first fields (s ++ t) = (readHeader true n first fields s).extend t := by
  induction n generalizing k first fields s with
  | zero => exact absurd rfl h
  | succ n ih =>
    -- The induction is on the fuel, of which there is at least as much for the longer stream.
    obtain ⟨k, rfl⟩ : ∃ j, k = j + 1 := ⟨k - 1, by omega⟩
    simp only [readHeader] at h ⊢
    cases hl : takeLine s with
    | none => simp [readLine, hl] at h
    | some p =>
      obtain ⟨line, rest⟩ := p
      simp only [readLine, hl, takeLine_append hl t] at h ⊢
      obtain ⟨e, he⟩ | ⟨text, ht⟩ := lineOf_cases line
      · simp only [he]
        rfl
      simp only [ht] at h ⊢
      split
      · cases fields.finish <;> rfl
      · rename_i hne
        simp only [hne] at h
        cases ha : fields.add text with
        | error e => rfl
        | ok fields =>
          simp only [ha] at h ⊢
          exact ih h (by omega)

/-- Where a header waits for more bytes, the end of the stream is reported between frames and is an
error elsewhere. -/
theorem readHeader_false_of_waiting {n : Nat} {first : Bool} {fields : Header.Partial}
    {s : List UInt8} (h : readHeader true n first fields s = .waiting) (hn : s.length < n) :
    if first = true ∧ s = [] then readHeader false n first fields s = .finished
    else ∃ e, readHeader false n first fields s = .broken e := by
  induction n generalizing first fields s with
  | zero => omega
  | succ n ih =>
    cases hl : takeLine s with
    | none =>
      simp only [readHeader, readLine_false_of_takeLine_eq_none hl]
      cases s with
      | nil => cases first <;> simp
      | cons b s => simp
    | some p =>
      obtain ⟨line, rest⟩ := p
      have hlt := length_lt_of_takeLine hl
      have hs : s ≠ [] := by rintro rfl; simp [takeLine] at hl
      simp only [readHeader, readLine, hl] at h ⊢
      rw [if_neg (by simp [hs])]
      -- A broken line, or the end of the header, would not leave the reader waiting.
      obtain ⟨e, he⟩ | ⟨text, ht⟩ := lineOf_cases line
      · simp [he] at h
      simp only [ht] at h ⊢
      split at h
      · cases hf : fields.finish <;> simp [hf] at h
      · rename_i hne
        rw [if_neg hne]
        cases ha : fields.add text with
        | error e => simp [ha] at h
        | ok fields =>
          simp only [ha] at h ⊢
          simpa using ih h (by omega)

/-- A header that waits for no more bytes is read in the same way when none can come. -/
theorem readHeader_false {n : Nat} {first : Bool} {fields : Header.Partial} {s : List UInt8}
    (h : readHeader true n first fields s ≠ .waiting) :
    readHeader false n first fields s = readHeader true n first fields s := by
  have := readHeader_append h (Nat.le_refl n) false []
  simp only [List.append_nil] at this
  rw [this]
  cases readHeader true n first fields s <;> simp [HeaderFront.extend]

/-- A body that is decided before the end of the stream stays when more bytes come. -/
theorem readBody_append {limit : Nat} {h : Header} {s : List UInt8}
    (hb : readBody limit true h s ≠ .waiting) (more : Bool) (t : List UInt8) :
    readBody limit more h (s ++ t) = (readBody limit true h s).extend t := by
  simp only [readBody] at hb ⊢
  cases hc : h.checkCharset with
  | error e => rfl
  | ok u =>
    simp only [hc] at hb ⊢
    by_cases hl : limit < h.contentLength
    · simp only [if_pos hl]
      rfl
    by_cases hcap : capacity < h.contentLength
    · simp only [if_neg hl, if_pos hcap]
      rfl
    simp only [if_neg hl, if_neg hcap] at hb ⊢
    -- Once the body is there, what is behind it makes no difference to it.
    by_cases hs : (s.take h.contentLength).length < h.contentLength
    · rw [if_pos hs, if_pos trivial] at hb
      exact absurd rfl hb
    have hle : h.contentLength ≤ s.length := by
      rw [List.length_take] at hs
      omega
    rw [List.take_append_of_le_length hle, List.drop_append_of_le_length hle]
    simp only [if_neg hs]
    cases Text.ofUtf8 (s.take h.contentLength) <;> rfl

/-- A body that waits for more bytes is an error at the end of the stream. -/
theorem readBody_false_of_waiting {limit : Nat} {h : Header} {s : List UInt8}
    (hb : readBody limit true h s = .waiting) : ∃ e, readBody limit false h s = .broken e := by
  simp only [readBody] at hb ⊢
  cases hc : h.checkCharset with
  | error e => simp [hc] at hb
  | ok u =>
    simp only [hc] at hb ⊢
    split at hb
    · simp at hb
    -- The checks pass as before, since they do not look at the rest.
    rename_i hl
    rw [if_neg hl]
    split at hb
    · simp at hb
    rename_i hcap
    rw [if_neg hcap]
    split at hb
    · rename_i hs
      -- There are too few bytes, and now no more will come.
      exact ⟨.io "early eof", by rw [if_pos hs]; rfl⟩
    · split at hb <;> simp at hb

/-- What is decided at the front of a stream stays when more bytes come. -/
theorem read_append {limit : Nat} {s : List UInt8} (h : read limit true s ≠ .waiting) (more : Bool)
    (t : List UInt8) : read limit more (s ++ t) = (read limit true s).extend t := by
  simp only [read] at h ⊢
  -- The reader decides on the header before it decides on the frame.
  have hw : readHeader true (s.length + 1) true {} s ≠ .waiting := by
    intro hw
    simp [hw] at h
  rw [readHeader_append hw (by simp) more t]
  cases hh : readHeader true (s.length + 1) true {} s with
  | waiting => exact absurd hh hw
  | finished => rfl
  | broken e => rfl
  | header header rest =>
    simp only [hh] at h
    exact readBody_append h more t

/-- Where more bytes are waited for, the end of the stream is reported between frames and is an
error elsewhere. -/
theorem read_false_of_waiting {limit : Nat} {s : List UInt8} (h : read limit true s = .waiting) :
    if s = [] then read limit false s = .finished else ∃ e, read limit false s = .broken e := by
  simp only [read] at h ⊢
  by_cases hw : readHeader true (s.length + 1) true {} s = .waiting
  · have := readHeader_false_of_waiting hw (Nat.lt_succ_self _)
    simp only [true_and] at this
    split
    · rename_i hs
      rw [if_pos hs] at this
      rw [this]
    · rename_i hs
      rw [if_neg hs] at this
      obtain ⟨e, he⟩ := this
      exact ⟨e, by rw [he]⟩
  · rw [readHeader_false hw]
    cases hh : readHeader true (s.length + 1) true {} s with
    | waiting => exact absurd hh hw
    | finished => simp [hh] at h
    | broken e => simp [hh] at h
    | header header rest =>
      simp only [hh] at h
      -- There was a header, so the stream is not at its end.
      have hs : s ≠ [] := by
        rintro rfl
        simp [readHeader, readLine, takeLine] at hh
      rw [if_neg hs]
      exact readBody_false_of_waiting h

/-- The end of the stream makes no difference to what is decided before it. -/
theorem read_false {limit : Nat} {more : Bool} {s : List UInt8}
    (h : read limit more s ≠ .waiting) : read limit false s = read limit more s := by
  cases more with
  | false => rfl
  | true =>
    -- Nothing is a special case of more bytes.
    have := read_append h false []
    simp only [List.append_nil] at this
    rw [this]
    cases read limit true s <;> simp [Front.extend]

/-- What is neither the end nor an error stays whatever comes behind it. -/
theorem read_append_of_eq {limit : Nat} {ended : Bool} {s : List UInt8} {front : Front}
    (h : read limit ended s = front) (hw : front ≠ .waiting) (hf : front ≠ .finished)
    (hb : ∀ e, front ≠ .broken e) (more : Bool) (t : List UInt8) :
    read limit more (s ++ t) = front.extend t := by
  -- A reader that waits would report the end or an error at the end of the stream.
  have hne : read limit true s ≠ .waiting := by
    intro hwait
    cases ended with
    | true => exact hw (h.symm.trans hwait)
    | false =>
      have hend := read_false_of_waiting hwait
      rw [h] at hend
      split at hend
      · exact hf hend
      · exact hend.elim hb
  have htrue : read limit true s = front := by
    cases ended with
    | true => exact h
    | false => rw [← read_false hne, h]
  rw [read_append hne more t, htrue]

/-- A frame is read in the same way whatever comes behind it. -/
theorem read_append_of_frame {limit : Nat} {ended : Bool} {s rest : List UInt8} {f : Frame}
    (h : read limit ended s = .frame f rest) (more : Bool) (t : List UInt8) :
    read limit more (s ++ t) = .frame f (rest ++ t) :=
  read_append_of_eq h nofun nofun nofun more t

/-- A reader that panics does so whatever comes. -/
theorem read_append_of_overflow {limit : Nat} {ended : Bool} {s : List UInt8}
    (h : read limit ended s = .overflow) (more : Bool) (t : List UInt8) :
    read limit more (s ++ t) = .overflow :=
  read_append_of_eq h nofun nofun nofun more t

/-- At the end of the stream nothing is waited for. -/
theorem read_false_ne_waiting {limit : Nat} {s : List UInt8} : read limit false s ≠ .waiting := by
  by_cases hw : read limit true s = .waiting
  · have := read_false_of_waiting hw
    split at this
    · simp [this]
    · obtain ⟨e, he⟩ := this
      simp [he]
  · rwa [read_false hw]

/-! ## The frames of a stream -/

/-- What is behind a header is shorter than the stream. -/
theorem length_lt_of_readHeader {more first : Bool} {n : Nat} {fields : Header.Partial}
    {s rest : List UInt8} {h : Header} (hr : readHeader more n first fields s = .header h rest) :
    rest.length < s.length := by
  induction n generalizing first fields s with
  | zero => simp [readHeader] at hr
  | succ n ih =>
    cases hl : takeLine s with
    | none =>
      simp only [readHeader, readLine, hl] at hr
      cases more with
      | true => simp at hr
      | false =>
        -- A line that is not finished is no line of a header.
        have := readLine_false_of_takeLine_eq_none hl
        simp only [readLine, hl] at this
        rw [this] at hr
        cases s with
        | nil => cases first <;> simp at hr
        | cons b s => simp at hr
    | some p =>
      obtain ⟨line, behind⟩ := p
      have hlt := length_lt_of_takeLine hl
      simp only [readHeader, readLine, hl] at hr
      obtain ⟨e, he⟩ | ⟨text, ht⟩ := lineOf_cases line
      · simp [he] at hr
      simp only [ht] at hr
      split at hr
      · cases hf : fields.finish with
        | error e => simp [hf] at hr
        | ok header =>
          simp only [hf, HeaderFront.header.injEq] at hr
          rwa [← hr.2]
      · cases ha : fields.add text with
        | error e => simp [ha] at hr
        | ok fields =>
          simp only [ha] at hr
          exact Nat.lt_trans (ih hr) hlt

/-- What is behind a frame is shorter than the stream. -/
theorem length_lt_of_read {limit : Nat} {more : Bool} {s rest : List UInt8} {f : Frame}
    (h : read limit more s = .frame f rest) : rest.length < s.length := by
  simp only [read] at h
  cases hh : readHeader more (s.length + 1) true {} s with
  | waiting => simp [hh] at h
  | finished => simp [hh] at h
  | broken e => simp [hh] at h
  | header header behind =>
    have hlt := length_lt_of_readHeader hh
    simp only [hh, readBody] at h
    split at h
    · simp at h
    split at h
    · simp at h
    split at h
    · simp at h
    split at h
    · split at h <;> simp at h
    split at h
    · -- The body is taken off what is behind the header.
      simp only [Front.frame.injEq] at h
      rw [← h.2, List.length_drop]
      omega
    · simp at h

/-- Reading frame after frame yields `frames`, and stops at what stands at the front of the rest. -/
inductive Reads (limit : Nat) : List UInt8 → List Frame → Front → Prop
  | stops {s : List UInt8} {front : Front} : read limit false s = front →
    (∀ f rest, front ≠ .frame f rest) → Reads limit s [] front
  | frame {s rest : List UInt8} {f : Frame} {frames : List Frame} {front : Front} :
    read limit false s = .frame f rest → Reads limit rest frames front →
    Reads limit s (f :: frames) front

namespace Reads

variable {limit : Nat} {s : List UInt8} {frames frames' : List Frame} {front front' : Front}

/-- Reading stops at the end of the stream. -/
theorem finished (h : read limit false s = .finished) : Reads limit s [] .finished := .stops h nofun

/-- Reading stops at something that is no frame. -/
theorem broken {e : LspError} (h : read limit false s = .broken e) :
    Reads limit s [] (.broken e) := .stops h nofun

/-- There is one way of reading a stream. -/
theorem unique (h : Reads limit s frames front) (h' : Reads limit s frames' front') :
    frames = frames' ∧ front = front' := by
  induction h generalizing frames' with
  | stops hr hne => cases h' with
    | stops hr' => exact ⟨rfl, hr.symm.trans hr'⟩
    | frame hr' => exact absurd (hr.symm.trans hr') (hne _ _)
  -- Both readings begin with the same frame, or neither begins with one.
  | frame hr _ ih => cases h' with
    | stops hr' hne => exact absurd (hr'.symm.trans hr) (hne _ _)
    | frame hr' hs =>
      rw [hr, Front.frame.injEq] at hr'
      obtain ⟨rfl, rfl⟩ := hr'
      obtain ⟨rfl, rfl⟩ := ih hs
      exact ⟨rfl, rfl⟩

end Reads

/-- Enough fuel for every byte reads the stream to its end. -/
private theorem reads_readUpTo {limit n : Nat} {s : List UInt8} (h : s.length < n) :
    Reads limit s (readUpTo limit n s).1 (readUpTo limit n s).2 := by
  induction n generalizing s with
  | zero => omega
  | succ n ih =>
    cases hr : read limit false s with
    | waiting => exact absurd hr read_false_ne_waiting
    | finished | broken e | overflow =>
      simp only [readUpTo, hr]
      exact .stops hr nofun
    | frame f rest =>
      -- A frame takes a byte at least, so there is fuel left for each of the others.
      have := length_lt_of_read hr
      simpa [readUpTo, hr] using .frame hr (ih (by omega))

/-- `Frame.readAll` reads the stream as far as there are frames. -/
theorem reads_readAll (limit : Nat) (s : List UInt8) :
    Reads limit s (readAll limit s).1 (stop limit s) :=
  reads_readUpTo (Nat.lt_succ_self _)

/-- The frames that `Frame.readAll` yields, and the error. -/
theorem Reads.readAll_eq {limit : Nat} {s : List UInt8} {frames : List Frame} {front : Front}
    (h : Reads limit s frames front) : readAll limit s = (frames, front.error?) := by
  obtain ⟨hf, he⟩ := (reads_readAll limit s).unique h
  rw [← hf, ← he]
  rfl

/-- What the reading stops at. -/
theorem Reads.stop_eq {limit : Nat} {s : List UInt8} {frames : List Frame} {front : Front}
    (h : Reads limit s frames front) : stop limit s = front :=
  ((reads_readAll limit s).unique h).2

/-- A frame at the front of a stream comes before the frames of the rest. -/
theorem readAll_of_frame {limit : Nat} {s rest : List UInt8} {f : Frame}
    (h : read limit false s = .frame f rest) :
    (readAll limit s).1 = f :: (readAll limit rest).1 ∧ stop limit s = stop limit rest := by
  have hr := Reads.frame h (reads_readAll limit rest)
  exact ⟨by rw [hr.readAll_eq], hr.stop_eq⟩

/-- The frames of a stream come first, whatever comes behind it. -/
theorem readAll_append (limit : Nat) (s more : List UInt8) :
    (readAll limit s).1 <+: (readAll limit (s ++ more)).1 := by
  have hr := reads_readAll limit s
  generalize (readAll limit s).1 = frames at hr ⊢
  generalize stop limit s = front at hr
  induction hr with
  | stops _ _ => exact List.nil_prefix
  | frame hf _ ih =>
    rw [(readAll_of_frame (read_append_of_frame hf false more)).1]
    exact (List.prefix_append_right_inj [_]).2 ih

end Frame

end LanguageServer
