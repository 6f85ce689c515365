import LanguageServer.Proofs.Frame.Header
import LanguageServer.Proofs.Frame.Stream
import LanguageServer.Proofs.Text.Utf8

/-!
# Frames are read back from their bytes

`Frame.read_bytes_append` reads one frame back, whatever is behind it.  `Frame.readAll_take_stream`
is about a stream of frames that is cut at any byte: the frames before the cut come back, and the
cut itself is the end of the stream between two frames and an error inside one.

A frame that is cut needs no account of where it is cut: before the cut the reader can only wait for
more bytes, because it would stick to any other decision when the rest of the frame comes.
-/

namespace LanguageServer

open Text (utf8)

namespace Frame

/-- A frame whose header and body fit each other, and that a reader with a limit accepts. -/
structure IsWritable (limit : Nat) (f : Frame) : Prop where
  header : f.header.IsWritable
  charset : f.header.checkCharset = .ok ()
  length_eq : f.header.contentLength = (utf8 f.content).length
  length_le : f.header.contentLength ≤ limit
  /-- No text in memory is longer than a buffer can be. -/
  length_le_capacity : f.header.contentLength ≤ capacity

/-! ## One frame -/

/-- A line is read back from its bytes. -/
theorem readLine_utf8 {line : String} (h : '\n' ∉ line.toList) (more : Bool) (rest : List UInt8) :
    readLine more (utf8 line ++ crlf ++ rest) = .text line rest := by
  -- The line feed of the end is the first one, as the line has none.
  have hmem : (10 : UInt8) ∉ utf8 line ++ [13] := by
    rw [List.mem_append, not_or]
    exact ⟨fun hl => h (Text.lineFeed_mem_utf8 hl), by decide⟩
  have ht : takeLine (utf8 line ++ crlf ++ rest) = some (utf8 line ++ crlf, rest) := by
    have := takeLine_of_not_mem hmem rest
    simpa [crlf] using this
  simp only [readLine, ht, lineOf, withoutEnd?_append_crlf, Text.ofUtf8_utf8]

/-- Header fields are read back from their lines, up to the empty line. -/
theorem readHeader_lines {lines : List String} {fields fields' : Header.Partial} {header : Header}
    (hl : ∀ l ∈ lines, '\n' ∉ l.toList ∧ l.isEmpty = false)
    (ha : lines.foldlM Header.Partial.add fields = .ok fields') (hf : fields'.finish = .ok header)
    (more first : Bool) (rest : List UInt8) {n : Nat} (hn : lines.length < n) :
    readHeader more n first fields ((lines.flatMap fun l => utf8 l ++ crlf) ++ crlf ++ rest) =
      .header header rest := by
  induction lines generalizing fields first n with
  | nil =>
    obtain ⟨n, rfl⟩ : ∃ k, n = k + 1 := ⟨n - 1, by omega⟩
    -- The empty line is a line like any other.
    have hempty : readLine more (utf8 "" ++ crlf ++ rest) = .text "" rest :=
      readLine_utf8 (by simp) more rest
    simp only [List.foldlM_nil, pure, Except.pure, Except.ok.injEq] at ha
    subst ha
    rw [show utf8 "" = [] from rfl] at hempty
    simp only [readHeader, List.flatMap_nil, hempty, hf]
    rfl
  | cons l lines ih =>
    obtain ⟨n, rfl⟩ : ∃ k, n = k + 1 := ⟨n - 1, by omega⟩
    obtain ⟨hll, hls⟩ := List.forall_mem_cons.1 hl
    rw [List.foldlM_cons] at ha
    cases hadd : fields.add l with
    | error e => simp [hadd, bind, Except.bind] at ha
    | ok added =>
      simp only [hadd, bind, Except.bind] at ha
      simp only [List.length_cons] at hn
      simp only [readHeader, List.flatMap_cons, List.append_assoc]
      rw [← List.append_assoc, readLine_utf8 hll.1]
      simp only [hll.2, hadd, Bool.false_eq_true, if_false]
      simpa using ih hls ha false (by omega)

/-- There are no more lines than bytes. -/
theorem length_le_length_lines (lines : List String) :
    lines.length ≤ (lines.flatMap fun l => utf8 l ++ crlf).length := by
  induction lines with
  | nil => simp
  | cons l lines ih =>
    have hc : crlf.length = 2 := rfl
    rw [List.flatMap_cons, List.length_append, List.length_append, List.length_cons]
    omega

/-- A frame is read back from its bytes, whatever is behind it. -/
theorem read_bytes_append {limit : Nat} {f : Frame} (hw : f.IsWritable limit) (more : Bool)
    (rest : List UInt8) : read limit more (f.bytes ++ rest) = .frame f rest := by
  have hle := length_le_length_lines f.header.lines
  -- The lines are read as a header, and the header says how long the body is.
  have hf : Header.Partial.finish
      ⟨some f.header.contentLength, f.header.contentType, f.header.additional⟩ = .ok f.header := rfl
  have hh := readHeader_lines (fun l hl => Header.noLineFeed_of_mem_lines hw.header hl)
    (Header.foldlM_add_lines hw.header) hf more true (utf8 f.content ++ rest)
    (n := (f.bytes ++ rest).length + 1) (by simp only [bytes, List.length_append]; omega)
  have hb : f.bytes ++ rest =
      (f.header.lines.flatMap fun l => utf8 l ++ crlf) ++ crlf ++ (utf8 f.content ++ rest) := by
    simp only [bytes, List.append_assoc]
  simp only [read]
  rw [hb] at hh ⊢
  simp only [hh, readBody, hw.charset]
  rw [if_neg (Nat.not_lt.2 hw.length_le), if_neg (Nat.not_lt.2 hw.length_le_capacity),
    hw.length_eq, List.take_left, List.drop_left, if_neg (Nat.lt_irrefl _), Text.ofUtf8_utf8]

/-- No frame is empty: there is a line that ends its header. -/
theorem length_bytes_pos (f : Frame) : 0 < f.bytes.length := by
  have hc : crlf.length = 2 := rfl
  simp only [bytes, List.length_append]
  omega

/-- A frame that is cut is an error, unless nothing of it is left. -/
theorem read_take_bytes {limit : Nat} {f : Frame} (hw : f.IsWritable limit) {k : Nat}
    (hk : k < f.bytes.length) :
    if k = 0 then read limit false (f.bytes.take k) = .finished
    else ∃ e, read limit false (f.bytes.take k) = .broken e := by
  have hsplit : f.bytes.take k ++ f.bytes.drop k = f.bytes ++ [] := by simp
  have hrest : f.bytes.drop k ≠ [] := by
    rw [ne_eq, List.drop_eq_nil_iff]
    omega
  -- Whether the reader waits at the cut decides the matter; where the cut is does not.
  by_cases hwait : read limit true (f.bytes.take k) = .waiting
  · have h := read_false_of_waiting hwait
    have hnil : f.bytes.take k = [] ↔ k = 0 := by
      rw [List.take_eq_nil_iff]
      have : f.bytes ≠ [] := List.length_pos_iff.1 f.length_bytes_pos
      simp [this]
    simpa only [hnil] using h
  · -- Any other decision would stand when the rest of the frame comes.
    have happ := read_append hwait false (f.bytes.drop k)
    rw [hsplit, read_bytes_append hw] at happ
    cases hr : read limit true (f.bytes.take k) with
    | waiting => exact absurd hr hwait
    | finished => simp [hr, Front.extend] at happ
    | broken e => simp [hr, Front.extend] at happ
    | overflow => simp [hr, Front.extend] at happ
    | frame g rest =>
      simp only [hr, Front.extend, Front.frame.injEq] at happ
      exact absurd (List.append_eq_nil_iff.1 happ.2.symm).2 hrest

/-! ## A stream of frames -/

/-- The bytes of frames, one after the other. -/
def stream (frames : List Frame) : List UInt8 := frames.flatMap bytes

/-- A stream begins with its first frame. -/
theorem stream_cons (f : Frame) (frames : List Frame) :
    stream (f :: frames) = f.bytes ++ stream frames := rfl

/-- Whole frames are read in order, and then the end of the stream is reported. -/
theorem reads_stream {limit : Nat} {frames : List Frame}
    (hw : ∀ f ∈ frames, f.IsWritable limit) : Reads limit (stream frames) frames .finished := by
  induction frames with
  | nil => exact .finished rfl
  | cons f frames ih =>
    have ⟨hf, hfs⟩ := List.forall_mem_cons.1 hw
    rw [stream_cons]
    exact .frame (read_bytes_append hf false _) (ih hfs)

/-- More frames take no fewer bytes. -/
theorem length_stream_take_le {m n : Nat} (h : m ≤ n) (frames : List Frame) :
    (stream (frames.take m)).length ≤ (stream (frames.take n)).length := by
  induction frames generalizing m n with
  | nil => simp
  | cons f frames ih =>
    cases m with
    | zero => simp [stream]
    | succ m =>
      -- Both begin with the same frame, and the bound is that of the rest.
      obtain ⟨n, rfl⟩ : ∃ j, n = j + 1 := ⟨n - 1, by omega⟩
      simp only [List.take_succ_cons, stream_cons, List.length_append]
      have := ih (m := m) (n := n) (by omega)
      omega

/-- The frames before a cut are read, and the cut is the end of the stream between two frames and an
error inside one. -/
theorem reads_take_stream {limit : Nat} {frames : List Frame}
    (hw : ∀ f ∈ frames, f.IsWritable limit) {k : Nat} (hk : k ≤ (stream frames).length) :
    ∃ n front, Reads limit ((stream frames).take k) (frames.take n) front ∧
      (stream (frames.take n)).length ≤ k ∧
      (n < frames.length → k < (stream (frames.take (n + 1))).length) ∧
      (front = .finished ∧ (stream (frames.take n)).length = k ∨
        (∃ e, front = .broken e) ∧ (stream (frames.take n)).length ≠ k) := by
  induction frames generalizing k with
  | nil =>
    have : k = 0 := by simpa [stream] using hk
    subst this
    exact ⟨0, _, .finished rfl, by simp [stream], by simp, .inl ⟨rfl, by simp [stream]⟩⟩
  | cons f frames ih =>
    have ⟨hf, hfs⟩ := List.forall_mem_cons.1 hw
    rw [stream_cons] at hk ⊢
    by_cases hlt : k < f.bytes.length
    · -- The first frame is cut.
      have hcut := read_take_bytes hf hlt
      rw [List.take_append_of_le_length (by omega)]
      by_cases hz : k = 0
      · rw [if_pos hz] at hcut
        exact ⟨0, _, .finished hcut, by simp [stream], fun _ => by simpa [stream] using hlt,
          .inl ⟨rfl, by simp [stream, hz]⟩⟩
      · rw [if_neg hz] at hcut
        obtain ⟨e, he⟩ := hcut
        exact ⟨0, _, .broken he, by simp [stream], fun _ => by simpa [stream] using hlt,
          .inr ⟨⟨e, rfl⟩, by simpa [stream] using Ne.symm hz⟩⟩
    · -- The first frame is whole, and the cut is in what is behind it.
      obtain ⟨n, front, hr, hle, hlast, hend⟩ :=
        ih hfs (k := k - f.bytes.length) (by rw [List.length_append] at hk; omega)
      refine ⟨n + 1, front, ?_, ?_, ?_, ?_⟩
      · rw [List.take_append, List.take_of_length_le (by omega), List.take_succ_cons]
        exact .frame (read_bytes_append hf false _) hr
      · rw [List.take_succ_cons, stream_cons, List.length_append]
        omega
      · intro hn
        have := hlast (by simpa using hn)
        rw [List.take_succ_cons, stream_cons, List.length_append]
        omega
      · rw [List.take_succ_cons, stream_cons, List.length_append]
        exact hend.imp (fun h => ⟨h.1, by omega⟩) fun h => ⟨h.1, by omega⟩

/-- Of a stream of frames that is cut after `k` bytes, the frames that lie before the cut are read,
in order and none besides; then the end of the stream is reported when the cut lies between two
frames, and an error when it lies inside one. -/
theorem readAll_take_stream {limit : Nat} {frames : List Frame}
    (hw : ∀ f ∈ frames, f.IsWritable limit) {k : Nat} (hk : k ≤ (stream frames).length) :
    ∃ n front, readAll limit ((stream frames).take k) = (frames.take n, front.error?) ∧
      Reads limit ((stream frames).take k) (frames.take n) front ∧
      (stream (frames.take n)).length ≤ k ∧
      (n < frames.length → k < (stream (frames.take (n + 1))).length) ∧
      (front = .finished ↔ ∃ m, (stream (frames.take m)).length = k) ∧
      (front = .finished ∨ ∃ e, front = .broken e) ∧
      (k = (stream frames).length → frames.take n = frames ∧ front = .finished) := by
  obtain ⟨n, front, hr, hle, hlast, hend⟩ := reads_take_stream hw hk
  have hfinished : front = .finished ↔ (stream (frames.take n)).length = k := by
    rcases hend with ⟨hf, hk⟩ | ⟨⟨e, hf⟩, hk⟩
    · exact iff_of_true hf hk
    · exact iff_of_false (hf ▸ nofun) hk
  have hall (h : k = (stream frames).length) : frames.take n = frames := by
    refine List.take_of_length_le (Nat.le_of_not_lt fun hn => ?_)
    have hk := hlast hn
    have := length_stream_take_le (show n + 1 ≤ frames.length by omega) frames
    rw [List.take_of_length_le (Nat.le_refl _)] at this
    omega
  refine ⟨n, front, hr.readAll_eq, hr, hle, hlast, ?_, hend.imp And.left And.left, ?_⟩
  · rw [hfinished]
    -- The cut lies between two frames if it lies behind as many as are read, and not behind more.
    refine ⟨fun h => ⟨n, h⟩, ?_⟩
    rintro ⟨m, hm⟩
    by_cases hmn : m ≤ n
    · have := length_stream_take_le hmn frames
      omega
    · by_cases hn : n < frames.length
      · have := length_stream_take_le (show n + 1 ≤ m by omega) frames
        have := hlast hn
        omega
      · rw [List.take_of_length_le (by omega)] at hm ⊢
        exact hm
  · intro h
    exact ⟨hall h, hfinished.2 (by rw [hall h, h])⟩

/-- The frame of a content is accepted unless it is too long. -/
theorem isWritable_ofContent {limit : Nat} {content : String}
    (hsize : (utf8 content).length ≤ capacity) (h : (utf8 content).length ≤ limit) :
    (ofContent content).IsWritable limit where
  header := ⟨Nat.lt_of_le_of_lt hsize (by decide), Header.isValue_defaultContentType,
    nofun, nofun, nofun⟩
  charset := by
    -- The character set is a matter of the content type alone.
    have hc : ({ contentLength := 0 } : Header).charset = "utf-8" := by decide +kernel
    exact if_pos hc
  length_eq := rfl
  length_le := h
  length_le_capacity := hsize

/-- Two frames: one with a body that looks like header fields, and one with all kinds of fields and
an empty body. -/
def exampleFrames : List Frame :=
  [ofContent "ü\r\n\r\nContent-Length: 3\r\n\r\n",
    ⟨⟨0, "application/json; charset=\"UTF8\"", .ofList [("X-Name", "a: b")]⟩, ""⟩]

/-- Both frames can be written. -/
private theorem isWritable_exampleFrames : ∀ f ∈ exampleFrames, f.IsWritable 64 := by
  intro f hf
  simp only [exampleFrames, List.mem_cons, List.not_mem_nil, or_false] at hf
  rcases hf with rfl | rfl
  · exact isWritable_ofContent (by decide +kernel) (by decide +kernel)
  · -- The second one has a field of its own, with a colon in its value.
    have hm : ∀ m ∈ Members.ofList [("X-Name", "a: b")], m = ("X-Name", "a: b") := by
      simp [Members.ofList, Members.insertNew]
    refine ⟨⟨by decide, ⟨by decide +kernel, by decide⟩, ?_, ?_, ?_⟩,
      by rw [Header.checkCharset, if_pos (by decide +kernel)], rfl, by decide, by decide⟩ <;>
      intro m h <;> rw [hm m h]
    · exact ⟨⟨by decide, by decide⟩, by decide, by decide⟩
    · exact ⟨by decide, by decide⟩
    · simp only [Header.IsReserved]
      decide

/-- The second frame is cut in its header: the first one is read, and then an error is reported. -/
theorem readAll_take_exampleFrames :
    (∀ f ∈ exampleFrames, f.IsWritable 64) ∧ 60 ≤ (stream exampleFrames).length ∧
      ∃ e, readAll 64 ((stream exampleFrames).take 60) = (exampleFrames.take 1, some e) := by
  have hk : 60 ≤ (stream exampleFrames).length := by decide +kernel
  have h1 : (stream (exampleFrames.take 1)).length = 49 := by decide +kernel
  have h2 : (stream (exampleFrames.take 2)).length = 132 := by decide +kernel
  refine ⟨isWritable_exampleFrames, hk, ?_⟩
  obtain ⟨n, front, hr, -, hle, hlast, hend, hcases, -⟩ :=
    readAll_take_stream isWritable_exampleFrames hk
  -- The cut lies behind the first frame and before the end of the second one.
  have hn : n = 1 := by
    have h0 : n ≠ 0 := by
      rintro rfl
      have : 60 < (stream (exampleFrames.take 1)).length := hlast (by decide)
      omega
    have hlt : n < 2 := Nat.lt_of_not_le fun h => by
      have := length_stream_take_le h exampleFrames
      omega
    omega
  subst hn
  rcases hcases with hf | ⟨e, rfl⟩
  · obtain ⟨m, hm⟩ := hend.1 hf
    by_cases h : m ≤ 1
    · have := length_stream_take_le h exampleFrames
      omega
    · have := length_stream_take_le (show 2 ≤ m by omega) exampleFrames
      omega
  · exact ⟨e, hr⟩

end Frame

end LanguageServer
