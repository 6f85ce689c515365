import LanguageServer.Proofs.Frame.Header

/-!
# What a header is

`Header.MadeOf` says without a reader which fields make up a header: each has a name before a colon,
the last of those about the length counts and all of them are numbers, and the last of those about
the type of the content allows its character set.

`Header.exists_madeOf_iff` says that the header that is read from lines is the one that they make
up.
-/

namespace LanguageServer

open Text (strip cutAt piecesAt lower stripWhere)

/-! ## Texts -/

namespace Text

/-- A text is cut at the first sign of the kind. -/
theorem cutAt_eq_some_iff {sep : Char} {cs before behind : List Char} :
    cutAt sep cs = some (before, behind) ↔ cs = before ++ sep :: behind ∧ sep ∉ before := by
  refine ⟨fun h => ?_, fun ⟨he, hs⟩ => he ▸ cutAt_append hs⟩
  induction cs generalizing before with
  | nil => cases h
  | cons c cs ih =>
    simp only [cutAt] at h
    split at h
    · rename_i hc
      cases h
      exact ⟨by rw [hc]; rfl, List.not_mem_nil⟩
    · rename_i hc
      -- The first sign is another one, so that the cut is behind it.
      obtain ⟨⟨a, b⟩, hcut, he⟩ := Option.map_eq_some_iff.1 h
      cases he
      obtain ⟨rfl, hs⟩ := ih hcut
      exact ⟨rfl, by simp [Ne.symm hc, hs]⟩

/-- Pieces are those that the library splits a list into. -/
theorem piecesAt_eq_splitOn (sep : Char) (cs : List Char) : piecesAt sep cs = cs.splitOn sep := by
  induction cs with
  | nil => simp [piecesAt]
  | cons c cs ih =>
    rw [piecesAt, ih, List.splitOn_cons_eq_if_modifyHead]
    have hne := List.splitOn_ne_nil sep cs
    by_cases hc : c = sep
    · simp [hc]
    · -- A sign that is not the separator joins the first piece.
      rw [if_neg hc, if_neg (by simpa using hc)]
      split
      · contradiction
      · rename_i h
        rw [h]
        rfl

/-- Characters that do not satisfy `p` are what is left between some that do. -/
theorem stripWhere_append {p : Char → Bool} {opening cs closing : List Char}
    (ho : ∀ c ∈ opening, p c = true) (hc : ∀ c ∈ closing, p c = true)
    (hcs : ∀ c ∈ cs, p c = false) (hne : cs ≠ []) :
    stripWhere p (opening ++ cs ++ closing) = cs := by
  have hdrop {opening cs : List Char} (ho : ∀ c ∈ opening, p c = true)
      (hcs : ∀ c ∈ cs, p c = false) (hne : cs ≠ []) (closing : List Char) :
      (opening ++ (cs ++ closing)).dropWhile p = cs ++ closing := by
    rw [List.dropWhile_append_of_pos ho]
    cases cs with
    | nil => contradiction
    | cons c cs => simp [hcs c List.mem_cons_self]
  -- The far end is the near one of the reverse.
  have hback := @hdrop closing.reverse cs.reverse (by simpa using hc) (by simpa using hcs)
    (by simpa using hne) []
  rw [List.append_nil] at hback
  rw [stripWhere, List.append_assoc, hdrop ho hcs hne, List.reverse_append, hback,
    List.reverse_reverse]

/-- Only signs of the kind are taken off, at both ends. -/
theorem exists_append_stripWhere (p : Char → Bool) (cs : List Char) :
    ∃ opening closing, cs = opening ++ stripWhere p cs ++ closing ∧
      ∀ c ∈ opening ++ closing, p c = true := by
  have hall {l : List Char} {c : Char} (h : c ∈ l.takeWhile p) : p c = true :=
    List.all_eq_true.1 List.all_takeWhile c h
  refine ⟨cs.takeWhile p, ((cs.dropWhile p).reverse.takeWhile p).reverse, ?_, fun c hc => ?_⟩
  · rw [stripWhere, List.append_assoc, ← List.reverse_append, List.takeWhile_append_dropWhile,
      List.reverse_reverse, List.takeWhile_append_dropWhile]
  · rcases List.mem_append.1 hc with hc | hc
    · exact hall hc
    · exact hall (List.mem_reverse.1 hc)

/-- The number of digits is the one that the library reads. -/
theorem ofDigits_eq (digits : List Char) : ofDigits digits = Nat.ofDigitChars 10 digits 0 := by
  simp only [ofDigits, Nat.ofDigitChars_eq_foldl, Nat.mul_comm]

end Text

namespace Header

/-! ## Lengths -/

/-- Characters stand for a length: digits of a number that fits a word, after a plus or nothing. -/
def IsLength (cs : List Char) (n : Nat) : Prop :=
  ∃ sign digits, cs = sign ++ digits ∧ (sign = [] ∨ sign = ['+']) ∧ digits ≠ [] ∧
    (∀ c ∈ digits, c.isDigit = true) ∧ Nat.ofDigitChars 10 digits 0 = n ∧ n < UInt64.size

/-- Digits are read as the number that they stand for, if it fits. -/
theorem readDigits_eq_some_iff {digits : List Char} {n : Nat} :
    (if digits.isEmpty || !digits.all Char.isDigit then none
      else if Text.ofDigits digits < UInt64.size then some (Text.ofDigits digits) else none) =
        some n ↔
      digits ≠ [] ∧ (∀ c ∈ digits, c.isDigit = true) ∧ Nat.ofDigitChars 10 digits 0 = n ∧
        n < UInt64.size := by
  rw [Text.ofDigits_eq]
  constructor
  · intro h
    obtain ⟨hd, h⟩ := Option.ite_none_left_eq_some.1 h
    -- Digits throughout, and not more than a word can hold.
    obtain ⟨hlt, h⟩ := Option.ite_none_right_eq_some.1 h
    obtain rfl := Option.some.inj h
    simp only [Bool.or_eq_true, not_or, List.isEmpty_iff, Bool.not_eq_true', Bool.not_eq_false,
      List.all_eq_true] at hd
    exact ⟨hd.1, hd.2, rfl, hlt⟩
  · rintro ⟨hne, hall, rfl, hlt⟩
    rw [if_neg (by simp [hne, List.all_eq_true.2 hall]), if_pos hlt]

/-- What is read as a length is a length. -/
theorem parseLength?_eq_some_iff {cs : List Char} {n : Nat} :
    parseLength? cs = some n ↔ IsLength cs n := by
  -- A plus is passed over; what is behind it, or the whole, has to be digits.
  have hsign : parseLength? cs = some n ↔ _ :=
    @readDigits_eq_some_iff (if cs.head? = some '+' then cs.tail else cs) n
  rw [hsign]
  constructor
  · rintro ⟨hne, hall, hn, hlt⟩
    by_cases hplus : cs.head? = some '+'
    · rw [if_pos hplus] at hne hall hn
      exact ⟨['+'], cs.tail, (by cases cs <;> simp_all), .inr rfl, hne, hall, hn, hlt⟩
    · rw [if_neg hplus] at hne hall hn
      exact ⟨[], cs, rfl, .inl rfl, hne, hall, hn, hlt⟩
  · rintro ⟨sign, digits, rfl, rfl | rfl, hne, hall, hn, hlt⟩
    · -- The first digit is no plus.
      have hplus : ([] ++ digits).head? ≠ some '+' := fun h =>
        absurd (hall _ (List.mem_of_head? h)) (by decide)
      rw [if_neg hplus]
      exact ⟨hne, hall, hn, hlt⟩
    · exact ⟨hne, hall, hn, hlt⟩

/-! ## Character sets -/

/-- A piece of a content type names the character set. -/
def NamesCharset (piece value : List Char) : Prop :=
  ∃ key raw, strip piece = key ++ '=' :: raw ∧ '=' ∉ key ∧ lower (strip key) = "charset".toList ∧
    strip raw = value

/-- If a content type names a character set, the first one that it names is fine. -/
def Allows (p : List Char → Prop) (contentType : List Char) : Prop :=
  ∀ before piece behind value, contentType.splitOn ';' = before ++ piece :: behind →
    (∀ q ∈ before, ∀ v, ¬ NamesCharset q v) → NamesCharset piece value → p value

/-- A name of UTF-8, in any letter case. -/
def IsUtf8Name (cs : List Char) : Prop := lower cs = "utf-8".toList ∨ lower cs = "utf8".toList

/-- A name of UTF-8 with quotation marks at its ends, which need not match. -/
def IsMarkedUtf8 (cs : List Char) : Prop :=
  ∃ opening name closing, cs = opening ++ name ++ closing ∧ (∀ c ∈ opening ++ closing, c = '"') ∧
    IsUtf8Name name

/-- What allows fewer spellings is allowed when there are more. -/
theorem Allows.imp {p q : List Char → Prop} (h : ∀ cs, p cs → q cs) {contentType : List Char}
    (ha : Allows p contentType) : Allows q contentType :=
  fun before piece behind v hpieces hbefore hv => h v (ha before piece behind v hpieces hbefore hv)

/-- A name of the encoding may stand between any number of quotation marks. -/
theorem isUtf8Name_stripWhere_iff {cs : List Char} :
    IsUtf8Name (stripWhere (· = '"') cs) ↔ IsMarkedUtf8 cs := by
  constructor
  · intro h
    obtain ⟨opening, closing, hcs, hmarks⟩ := Text.exists_append_stripWhere (· = '"') cs
    exact ⟨opening, _, closing, hcs, fun c hc => by simpa using hmarks c hc, h⟩
  · rintro ⟨opening, name, closing, rfl, hmarks, hname⟩
    -- The name has no mark of its own, so that stripping stops at it.
    have hno : '"' ∉ name := by
      intro hc
      have hl : '"' ∈ lower name := List.mem_map.2 ⟨_, hc, rfl⟩
      rcases hname with h | h <;> rw [h] at hl <;> exact absurd hl (by decide)
    have hne : name ≠ [] := by
      rintro rfl
      exact absurd hname (by simp [IsUtf8Name, lower])
    rw [Text.stripWhere_append (fun c hc => by simpa using hmarks c (by simp [hc]))
      (fun c hc => by simpa using hmarks c (by simp [hc]))
      (fun c hc => by simpa using fun he : c = '"' => hno (he ▸ hc)) hne]
    exact hname

/-- A piece that names a charset is a parameter of that name. -/
theorem namesCharset_iff_exists {piece value : List Char} :
    NamesCharset piece value ↔ ∃ p, parameter? piece = some p ∧
      lower (strip p.1) = "charset".toList ∧ strip p.2 = value := by
  constructor
  · rintro ⟨key, raw, hp, hkey, hname, hvalue⟩
    exact ⟨(key, raw), Text.cutAt_eq_some_iff.2 ⟨hp, hkey⟩, hname, hvalue⟩
  · rintro ⟨⟨key, raw⟩, hp, hname, hvalue⟩
    obtain ⟨hp, hkey⟩ := Text.cutAt_eq_some_iff.1 hp
    exact ⟨key, raw, hp, hkey, hname, hvalue⟩

/-- Whether a piece of a content type names a character set. -/
def namesCharset (piece : List Char) : Bool :=
  (parameter? piece).any fun p => lower (strip p.1) = "charset".toList

/-- A piece names a charset when it names some value. -/
theorem namesCharset_iff {piece : List Char} :
    namesCharset piece = true ↔ ∃ v, NamesCharset piece v := by
  simp only [namesCharset, namesCharset_iff_exists, Option.any_eq_true, decide_eq_true_eq]
  exact ⟨fun ⟨p, hp, hn⟩ => ⟨_, p, hp, hn, rfl⟩, fun ⟨_, p, hp, hn, _⟩ => ⟨p, hp, hn⟩⟩

/-- What counts is the first piece that names a character set. -/
theorem allows_iff {p : List Char → Prop} {contentType : List Char} :
    Allows p contentType ↔ ∀ piece, (contentType.splitOn ';').find? namesCharset = some piece →
      ∀ v, NamesCharset piece v → p v := by
  have hnot {q : List Char} : (!namesCharset q) = true ↔ ∀ v, ¬ NamesCharset q v := by
    rw [Bool.not_eq_true', ← Bool.not_eq_true, namesCharset_iff, not_exists]
  constructor
  · intro h piece hfind v hv
    -- What is found first has nothing of the kind before it, and the other way round.
    obtain ⟨-, before, behind, hpieces, hbefore⟩ := List.find?_eq_some_iff_append.1 hfind
    exact h before piece behind v hpieces (fun q hq => hnot.1 (hbefore q hq)) hv
  · intro h before piece behind v hpieces hbefore hv
    have hfirst : (contentType.splitOn ';').find? namesCharset = some piece := by
      refine List.find?_eq_some_iff_append.2
        ⟨namesCharset_iff.2 ⟨v, hv⟩, before, behind, hpieces, ?_⟩
      exact fun q hq => hnot.2 (hbefore q hq)
    exact h piece hfirst v hv

/-- The common spelling of a name is that of UTF-8 if the name is. -/
theorem spelling_eq_iff (cs : List Char) :
    (if String.ofList (lower cs) = "utf8" then "utf-8" else String.ofList (lower cs)) = "utf-8" ↔
      IsUtf8Name cs := by
  have hof (name : String) : lower cs = name.toList ↔ String.ofList (lower cs) = name :=
    ⟨fun h => by rw [h, String.ofList_toList], fun h => by rw [← h, String.toList_ofList]⟩
  rw [IsUtf8Name, hof, hof]
  split
  · rename_i h
    exact iff_of_true rfl (.inr h)
  · rename_i h
    simp only [h, or_false]

/-- The charset is the encoding in use when the first piece that names any allows it. -/
theorem charsetOf_eq_iff {contentType : String} :
    charsetOf contentType = "utf-8" ↔ Allows IsMarkedUtf8 contentType.toList := by
  have hfirst : ((piecesAt ';' contentType.toList).filterMap parameter?).find?
      (fun p => lower (strip p.1) = "charset".toList) =
        ((contentType.toList.splitOn ';').find? namesCharset).bind parameter? := by
    rw [Text.piecesAt_eq_splitOn, List.find?_filterMap]
    rfl
  rw [charsetOf, allows_iff]
  simp only [hfirst]
  -- Without any such piece the encoding in use is meant.
  cases hfind : (contentType.toList.splitOn ';').find? namesCharset with
  | none => exact iff_of_true rfl nofun
  | some piece =>
    obtain ⟨v, hv⟩ := namesCharset_iff.1 (List.find?_some hfind)
    obtain ⟨p, hp, -, rfl⟩ := namesCharset_iff_exists.1 hv
    simp only [Option.bind_some, hp, spelling_eq_iff, isUtf8Name_stripWhere_iff]
    refine ⟨fun h _ he v' hv' => ?_, fun h => h piece rfl _ hv⟩
    cases he
    obtain ⟨p', hp', -, rfl⟩ := namesCharset_iff_exists.1 hv'
    rwa [← Option.some.inj (hp.symm.trans hp')]

/-- A header passes when its content type allows the encoding in use. -/
theorem checkCharset_eq_ok_iff {h : Header} :
    h.checkCharset = .ok () ↔ Allows IsMarkedUtf8 h.contentType.toList := by
  rw [← charsetOf_eq_iff, checkCharset, charset]
  split
  · exact iff_of_true rfl ‹_›
  · exact iff_of_false nofun ‹_›

/-! ## Fields -/

/-- A field as it stands on its line: what is before the first colon, and what is behind it. -/
structure Written where
  before : List Char
  behind : List Char

namespace Written

/-- The line of a field, without its end. -/
def line (w : Written) : String := String.ofList (w.before ++ ':' :: w.behind)

def name (w : Written) : List Char := strip w.before

def value (w : Written) : List Char := strip w.behind

/-- Whether a field has a name, in any letter case. -/
def isNamed (name : String) (w : Written) : Bool := lower w.name = name.toList

/-- The colon is the first one, and there is a name before it. -/
structure IsField (w : Written) : Prop where
  noColon : ':' ∉ w.before
  named : w.name ≠ []

/-- A field is no empty line: it has a colon. -/
theorem isEmpty_line (w : Written) : w.line.isEmpty = false := by
  rw [Bool.eq_false_iff]
  intro h
  have := congrArg String.toList (String.isEmpty_iff.1 h)
  simp [line] at this

end Written

/-- The last field that has a name. -/
def last? (name : String) (fields : List Written) : Option Written :=
  fields.reverse.find? (·.isNamed name)

/-- The fields that say nothing about the body. -/
def others (fields : List Written) : List Written :=
  fields.filter fun w => !w.isNamed "content-length" && !w.isNamed "content-type"

/-- Fields by name and value; of fields with one name the last stays. -/
def collect (fields : List Written) (d : Dictionary String) : Dictionary String :=
  fields.foldl (fun d w => d.insert (String.ofList w.name) (String.ofList w.value)) d

/-- Fields make up a header that allows no character sets but some. -/
structure MadeOf (p : List Char → Prop) (h : Header) (fields : List Written) : Prop where
  isField : ∀ w ∈ fields, w.IsField
  isLength : ∀ w ∈ fields, w.isNamed "content-length" = true → ∃ n, IsLength w.value n
  length : ∃ w, last? "content-length" fields = some w ∧ IsLength w.value h.contentLength
  charset : ∀ w, last? "content-type" fields = some w → Allows p w.value
  contentType : h.contentType =
    (last? "content-type" fields).elim defaultContentType fun w => String.ofList w.value
  additional : h.additional = collect (others fields) .empty

/-- The last field of a name is behind the first one, if there is any. -/
theorem last?_cons (name : String) (w : Written) (fields : List Written) :
    last? name (w :: fields) =
      (last? name fields).or (if w.isNamed name then some w else none) := by
  rw [last?, List.reverse_cons, List.find?_append, List.find?_singleton]
  rfl

/-- What fields read so far become with one more. -/
def Partial.taking (h : Partial) (w : Written) : Partial :=
  if w.isNamed "content-length" then { h with contentLength := parseLength? w.value }
  else if w.isNamed "content-type" then { h with contentType := String.ofList w.value }
  else { h with additional := h.additional.insert (String.ofList w.name) (String.ofList w.value) }

/-- What is read as a field is a name and a value with a colon between them. -/
theorem field_eq_ok_iff {line : String} {r : String × String} :
    field line = .ok r ↔ ∃ w : Written, line = w.line ∧ w.IsField ∧
      r = (String.ofList w.name, String.ofList w.value) := by
  constructor
  · intro h
    simp only [field] at h
    split at h
    · -- What stands before the first colon, and what stands behind it.
      rename_i before behind hcut
      obtain ⟨hline, hcolon⟩ := Text.cutAt_eq_some_iff.1 hcut
      split at h
      · cases h
      · rename_i hname
        cases h
        refine ⟨⟨before, behind⟩, ?_, ⟨hcolon, by simpa [Written.name] using hname⟩, rfl⟩
        rw [Written.line, ← hline, String.ofList_toList]
    · cases h
  · rintro ⟨w, rfl, hw, rfl⟩
    have hline : w.line.toList = w.before ++ ':' :: w.behind := String.toList_ofList
    simp only [field, hline, Text.cutAt_append hw.noColon]
    exact if_neg (by simpa [Written.name] using hw.named)

/-- A line is taken when it is a field, and its length can be read if it is one. -/
theorem add_line_eq_ok_iff {h h' : Partial} {line : String} :
    h.add line = .ok h' ↔ ∃ w : Written, line = w.line ∧ w.IsField ∧
      (w.isNamed "content-length" = true → ∃ n, IsLength w.value n) ∧ h' = h.taking w := by
  have hadd {w : Written} (hw : w.IsField) : h.add w.line = .ok h' ↔
      (w.isNamed "content-length" = true → ∃ n, IsLength w.value n) ∧ h' = h.taking w := by
    have hf := field_eq_ok_iff.2 ⟨w, rfl, hw, rfl⟩
    simp only [Partial.add, hf, bind, Except.bind, String.toList_ofList, Partial.taking,
      Written.isNamed, decide_eq_true_eq]
    by_cases hl : lower w.name = "content-length".toList
    · rw [if_pos hl, if_pos hl]
      simp only [hl, forall_const, ← parseLength?_eq_some_iff]
      -- The length must be read, and then it is taken.
      cases parseLength? w.value with
      | none => simp only [reduceCtorEq, exists_false, false_and]
      | some n => simp only [Except.ok.injEq, Option.some.injEq, exists_eq', true_and, eq_comm]
    · rw [if_neg hl, if_neg hl]
      simp only [hl, false_implies, true_and]
      split <;> simp only [Except.ok.injEq, eq_comm]
  constructor
  · intro he
    cases hf : field line with
    | error e => simp [Partial.add, hf, bind, Except.bind] at he
    | ok r =>
      obtain ⟨w, rfl, hw, -⟩ := field_eq_ok_iff.1 hf
      exact ⟨w, rfl, hw, (hadd hw).1 he⟩
  · rintro ⟨w, rfl, hw, h⟩
    exact (hadd hw).2 h

/-- Lines are taken when each of them is, and they are taken one after the other. -/
theorem foldlM_add_eq_ok_iff {h h' : Partial} {lines : List String} :
    lines.foldlM Partial.add h = .ok h' ↔ ∃ fields : List Written, lines = fields.map (·.line) ∧
      (∀ w ∈ fields, w.IsField) ∧
      (∀ w ∈ fields, w.isNamed "content-length" = true → ∃ n, IsLength w.value n) ∧
      h' = fields.foldl Partial.taking h := by
  induction lines generalizing h with
  | nil =>
    constructor
    · intro he
      cases he
      exact ⟨[], rfl, nofun, nofun, rfl⟩
    · rintro ⟨fields, hl, -, -, rfl⟩
      rw [List.map_eq_nil_iff.1 hl.symm]
      rfl
  | cons line lines ih =>
    rw [List.foldlM_cons]
    constructor
    · intro he
      cases hadd : h.add line with
      | error e => rw [hadd] at he; cases he
      | ok taken =>
        rw [hadd] at he
        -- One line is one field, and the lines after it are read with what it has said.
        obtain ⟨w, rfl, hw, hlen, rfl⟩ := add_line_eq_ok_iff.1 hadd
        obtain ⟨fields, rfl, hws, hlens, rfl⟩ := ih.1 he
        exact ⟨w :: fields, rfl, List.forall_mem_cons.2 ⟨hw, hws⟩,
          List.forall_mem_cons.2 ⟨hlen, hlens⟩, rfl⟩
    · rintro ⟨fields, hl, hws, hlens, rfl⟩
      cases fields with
      | nil => cases hl
      | cons w fields =>
        obtain ⟨rfl, rfl⟩ := List.cons_eq_cons.1 hl
        obtain ⟨hw, hws⟩ := List.forall_mem_cons.1 hws
        obtain ⟨hlen, hlens⟩ := List.forall_mem_cons.1 hlens
        rw [add_line_eq_ok_iff.2 ⟨w, rfl, hw, hlen, rfl⟩]
        exact ih.2 ⟨fields, rfl, hws, hlens, rfl⟩

/-- Of fields of one name the last one counts, and the other fields are collected. -/
theorem foldl_taking (fields : List Written) (h : Partial) :
    fields.foldl Partial.taking h =
      ⟨(last? "content-length" fields).elim h.contentLength fun w => parseLength? w.value,
        (last? "content-type" fields).elim h.contentType fun w => String.ofList w.value,
        collect (others fields) h.additional⟩ := by
  induction fields generalizing h with
  | nil => rfl
  | cons w fields ih =>
    rw [List.foldl_cons, ih, last?_cons, last?_cons]
    have hor {α : Type} (o : Option Written) (b : Bool) (a : α) (f : Written → α) :
        (o.or (if b then some w else none)).elim a f = o.elim (if b then f w else a) f := by
      cases o <;> cases b <;> rfl
    rw [hor, hor, Partial.taking, others, others, List.filter_cons]
    by_cases hl : w.isNamed "content-length" = true
    · -- A field has one name, so that it counts once.
      have ht : w.isNamed "content-type" = false := by
        rw [Written.isNamed, decide_eq_true_eq] at hl
        rw [Written.isNamed, hl]
        decide
      simp [hl, ht]
    · by_cases ht : w.isNamed "content-type" = true
      · simp [hl, ht]
      · simp [hl, ht, collect]

/-- A header without a content type has the usual one, which names UTF-8. -/
theorem allows_defaultContentType : Allows IsMarkedUtf8 defaultContentType.toList :=
  charsetOf_eq_iff.1 (by decide +kernel)

/-- A header that is read from lines, and whose character set is fine, is made of the fields on
them. -/
theorem exists_madeOf_iff {header : Header} {lines : List String} :
    (∃ read, lines.foldlM Partial.add {} = .ok read ∧ read.finish = .ok header) ∧
      header.checkCharset = .ok () ↔
      ∃ fields, lines = fields.map Written.line ∧ header.MadeOf IsMarkedUtf8 fields := by
  constructor
  · rintro ⟨⟨read, hread, hfinish⟩, hcharset⟩
    obtain ⟨fields, rfl, hfields, hlengths, rfl⟩ := foldlM_add_eq_ok_iff.1 hread
    rw [foldl_taking] at hfinish
    -- There must be a length, which is that of the last such field.
    cases hl : last? "content-length" fields with
    | none => rw [hl] at hfinish; cases hfinish
    | some w =>
      cases hp : parseLength? w.value with
      | none => simp [Partial.finish, hl, hp] at hfinish
      | some n =>
        simp only [Partial.finish, hl, hp, Option.elim_some, Except.ok.injEq] at hfinish
        subst hfinish
        have hn := parseLength?_eq_some_iff.1 hp
        refine ⟨fields, rfl, hfields, hlengths, ⟨w, hl, hn⟩, ?_, rfl, rfl⟩
        intro w ht
        have := checkCharset_eq_ok_iff.1 hcharset
        rwa [ht, Option.elim_some, String.toList_ofList] at this
  · rintro ⟨fields, rfl, h⟩
    obtain ⟨w, hl, hn⟩ := h.length
    refine ⟨⟨_, foldlM_add_eq_ok_iff.2 ⟨fields, rfl, h.isField, h.isLength, rfl⟩, ?_⟩, ?_⟩
    · rw [foldl_taking, hl, Option.elim_some, parseLength?_eq_some_iff.2 hn, Partial.finish]
      simp only [← h.contentType, ← h.additional]
    · rw [checkCharset_eq_ok_iff, h.contentType]
      -- Without a content type the default one is meant, which allows the encoding.
      cases ht : last? "content-type" fields with
      | none => exact allows_defaultContentType
      | some w =>
        rw [Option.elim_some, String.toList_ofList]
        exact h.charset w ht

end Header

end LanguageServer
