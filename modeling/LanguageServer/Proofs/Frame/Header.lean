import LanguageServer.Frame.Header

/-!
# Header fields are read back

A header is written as lines of a name and a value.  `Header.IsName` and `Header.IsValue` say which
texts come back from such a line, and `Header.foldlM_add_lines` says that a header comes back from
its lines, in whatever state its other fields are.
-/

namespace LanguageServer

open Text (strip cutAt lower isBlank stripWhere)

/-! ## Texts -/

namespace Text

/-- The digits of a number stand for it. -/
theorem ofDigits_toDigits (n : Nat) : ofDigits (Nat.toDigits 10 n) = n := by
  have h := Nat.ofDigitChars_ten_toDigits (n := n)
  rw [Nat.ofDigitChars_eq_foldl] at h
  simpa only [ofDigits, Nat.mul_comm] using h

/-- A text is cut at the first separator. -/
theorem cutAt_append {sep : Char} {before after : List Char} (h : sep ∉ before) :
    cutAt sep (before ++ sep :: after) = some (before, after) := by
  induction before with
  | nil => simp [cutAt]
  | cons c before ih =>
    simp only [List.mem_cons, not_or] at h
    simp [cutAt, Ne.symm h.1, ih h.2]

/-- A blank at the beginning does not count. -/
theorem strip_cons_blank {c : Char} (cs : List Char) (h : isBlank c = true) :
    strip (c :: cs) = strip cs := by
  simp [strip, stripWhere, h]

/-- Without blanks nothing is taken off. -/
theorem strip_eq_self {cs : List Char} (h : ∀ c ∈ cs, isBlank c = false) : strip cs = cs := by
  have hdrop (l : List Char) (hl : ∀ c ∈ l, isBlank c = false) : l.dropWhile isBlank = l := by
    cases l with
    | nil => rfl
    | cons c l => simp [hl c (by simp)]
  rw [strip, stripWhere, hdrop cs h, hdrop cs.reverse (by simpa using h), List.reverse_reverse]

/-- No digit is a blank. -/
theorem isBlank_of_isDigit {c : Char} (h : c.isDigit = true) : isBlank c = false := by
  simp only [Char.isDigit, Bool.and_eq_true, decide_eq_true_eq, ge_iff_le,
    UInt32.le_iff_toNat_le] at h
  have hc : c.toNat = c.val.toNat := rfl
  simp only [isBlank, Bool.or_eq_false_iff, Bool.and_eq_false_iff, decide_eq_false_iff_not]
  simp at h
  omega

end Text

namespace Header

/-! ## Lengths -/

/-- A number is written in digits. -/
theorem isDigit_of_mem_toDigits {n : Nat} {c : Char} (h : c ∈ Nat.toDigits 10 n) :
    c.isDigit = true :=
  Nat.isDigit_of_mem_toDigits (by decide) (by decide) h

/-- A length of 64 bits is read back from its digits. -/
theorem parseLength?_toDigits {n : Nat} (h : n < UInt64.size) :
    parseLength? (Nat.toDigits 10 n) = some n := by
  -- A sign may stand before the digits, but the first of them is none.
  have hplus : (Nat.toDigits 10 n).head? ≠ some '+' := by
    intro hh
    have := isDigit_of_mem_toDigits (List.mem_of_head? hh)
    exact absurd this (by decide)
  have hall : (Nat.toDigits 10 n).all Char.isDigit = true :=
    List.all_eq_true.2 fun c hc => isDigit_of_mem_toDigits hc
  simp only [parseLength?, if_neg hplus, hall, List.isEmpty_eq_false_iff.2 Nat.toDigits_ne_nil,
    Text.ofDigits_toDigits]
  simpa using h

/-! ## Fields -/

/-- A text that a field can hold: without blanks at its ends and without a line feed. -/
structure IsValue (value : String) : Prop where
  trimmed : strip value.toList = value.toList
  noLineFeed : '\n' ∉ value.toList

/-- A name that a field can have: as a value, not empty, and without a colon. -/
structure IsName (name : String) : Prop extends IsValue name where
  nonempty : name.toList ≠ []
  noColon : ':' ∉ name.toList

/-- The line of a field. -/
def line (name value : String) : String := name ++ ": " ++ value

/-- A field is read back from its line. -/
theorem field_line {name value : String} (hn : IsName name) (hv : IsValue value) :
    field (line name value) = .ok (name, value) := by
  have hl : (line name value).toList = name.toList ++ ':' :: ' ' :: value.toList := by
    simp [line]
  have hs : strip (' ' :: value.toList) = value.toList := by
    rw [Text.strip_cons_blank _ (by decide), hv.trimmed]
  simp only [field, hl, Text.cutAt_append hn.noColon, hn.trimmed, hs]
  rw [if_neg (by simpa using hn.nonempty)]
  simp

/-- The line of a field is one line. -/
theorem noLineFeed_line {name value : String} (hn : IsName name) (hv : IsValue value) :
    '\n' ∉ (line name value).toList := by
  simp only [line, String.toList_append, List.mem_append, not_or]
  exact ⟨⟨hn.noLineFeed, by decide⟩, hv.noLineFeed⟩

/-- A field is no empty line. -/
theorem line_ne_empty (name value : String) : (line name value).isEmpty = false := by
  rw [Bool.eq_false_iff]
  intro h
  have := congrArg String.toList (String.isEmpty_iff.1 h)
  simp [line] at this

/-- The field of the length has a proper name. -/
theorem isName_contentLength : IsName "Content-Length" :=
  ⟨⟨by decide, by decide⟩, by decide, by decide⟩

/-- The field of the content type has a proper name. -/
theorem isName_contentType : IsName "Content-Type" :=
  ⟨⟨by decide, by decide⟩, by decide, by decide⟩

/-- A number is a proper value. -/
theorem isValue_toString (n : Nat) : IsValue (toString n) := by
  have h : (toString n).toList = Nat.toDigits 10 n := by
    rw [Nat.toString_eq_ofList_toDigits, String.toList_ofList]
  constructor
  · rw [h]
    exact Text.strip_eq_self fun c hc => Text.isBlank_of_isDigit (isDigit_of_mem_toDigits hc)
  · rw [h]
    intro hc
    exact absurd (isDigit_of_mem_toDigits hc) (by decide)

/-! ## Headers -/

/-- A name that says something about the body, in whatever case its letters are. -/
def IsReserved (name : String) : Prop :=
  lower name.toList = "content-length".toList ∨ lower name.toList = "content-type".toList

/-- A header whose fields come back from their lines. -/
structure IsWritable (h : Header) : Prop where
  length_lt : h.contentLength < UInt64.size
  type_isValue : IsValue h.contentType
  isName : ∀ m ∈ h.additional.members, IsName m.1
  isValue : ∀ m ∈ h.additional.members, IsValue m.2
  not_isReserved : ∀ m ∈ h.additional.members, ¬ IsReserved m.1

/-- The default content type is a proper value. -/
theorem isValue_defaultContentType : IsValue defaultContentType := ⟨by decide, by decide⟩

/-- The field of the length sets the length. -/
theorem add_contentLength (fields : Partial) {n : Nat} (h : n < UInt64.size) :
    fields.add (line "Content-Length" (toString n)) =
      .ok { fields with contentLength := some n } := by
  have hn : parseLength? (toString n).toList = some n := by
    rw [Nat.toString_eq_ofList_toDigits, String.toList_ofList, parseLength?_toDigits h]
  simp only [Partial.add, field_line isName_contentLength (isValue_toString n), bind, Except.bind]
  rw [if_pos (by decide), hn]

/-- The field of the content type sets the content type. -/
theorem add_contentType (fields : Partial) {value : String} (h : IsValue value) :
    fields.add (line "Content-Type" value) = .ok { fields with contentType := value } := by
  simp only [Partial.add, field_line isName_contentType h, bind, Except.bind]
  rw [if_neg (by decide), if_pos (by decide)]

/-- Any other field is collected. -/
theorem add_line (fields : Partial) {name value : String} (hn : IsName name) (hv : IsValue value)
    (hr : ¬ IsReserved name) :
    fields.add (line name value) =
      .ok { fields with additional := fields.additional.insert name value } := by
  simp only [IsReserved, not_or] at hr
  simp only [Partial.add, field_line hn hv, bind, Except.bind]
  rw [if_neg hr.1, if_neg hr.2]

/-- The lines of a header, by name and value. -/
theorem lines_eq (h : Header) :
    h.lines = line "Content-Length" (toString h.contentLength) ::
      ((if h.contentType = defaultContentType then []
        else [line "Content-Type" h.contentType]) ++
        h.additional.members.map fun m => line m.1 m.2) := by
  simp only [lines, line]
  rfl

/-- Other fields are put in one after the other. -/
theorem foldlM_add_additional {members : Members String} (fields : Partial)
    (hn : ∀ m ∈ members, IsName m.1) (hv : ∀ m ∈ members, IsValue m.2)
    (hr : ∀ m ∈ members, ¬ IsReserved m.1) :
    (members.map fun m => line m.1 m.2).foldlM Partial.add fields =
      .ok { fields with
        additional := members.foldl (fun d m => d.insert m.1 m.2) fields.additional } := by
  induction members generalizing fields with
  | nil => rfl
  | cons m members ih =>
    simp only [List.forall_mem_cons] at hn hv hr
    -- None of the names is reserved, so that each field is collected.
    simp only [List.map_cons, List.foldlM_cons, add_line fields hn.1 hv.1 hr.1, bind, Except.bind]
    rw [ih _ hn.2 hv.2 hr.2]
    rfl

/-- A header is read back from its lines. -/
theorem foldlM_add_lines {h : Header} (hw : h.IsWritable) :
    h.lines.foldlM Partial.add {} = .ok ⟨some h.contentLength, h.contentType, h.additional⟩ := by
  have hd := h.additional.foldl_insert_empty
  rw [lines_eq, List.foldlM_cons, add_contentLength _ hw.length_lt]
  simp only [bind, Except.bind]
  split
  · -- The usual content type is not written, and is what a header has without one.
    rename_i ht
    rw [List.nil_append, foldlM_add_additional _ hw.isName hw.isValue hw.not_isReserved, hd, ht]
  · rw [List.singleton_append, List.foldlM_cons, add_contentType _ hw.type_isValue]
    simp only [bind, Except.bind]
    rw [foldlM_add_additional _ hw.isName hw.isValue hw.not_isReserved, hd]

/-- A header field takes one line. -/
theorem noLineFeed_of_mem_lines {h : Header} (hw : h.IsWritable) {l : String} (hl : l ∈ h.lines) :
    '\n' ∉ l.toList ∧ l.isEmpty = false := by
  rw [lines_eq, List.mem_cons, List.mem_append, List.mem_map] at hl
  rcases hl with rfl | hl | ⟨m, hm, rfl⟩
  · exact ⟨noLineFeed_line isName_contentLength (isValue_toString _), line_ne_empty _ _⟩
  · split at hl
    · simp at hl
    · rw [List.mem_singleton] at hl
      subst hl
      exact ⟨noLineFeed_line isName_contentType hw.type_isValue, line_ne_empty _ _⟩
  · exact ⟨noLineFeed_line (hw.isName m hm) (hw.isValue m hm), line_ne_empty _ _⟩

end Header

end LanguageServer
