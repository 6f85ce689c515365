import LanguageServer.Proofs.Codec.Recovers
import LanguageServer.Proofs.Codec.ValueSet
import LanguageServer.Proofs.Protocol.Document
import LanguageServer.Protocol.Notebook

/-!
# Changes of documents are read back

A change of a range and a change of the whole text are written as one record, and two members that
may be missing tell them apart.  `TextDocumentContentChangeEvent.IsIncremental` and
`TextDocumentContentChangeEvent.IsFull` say which objects stand for which change;
`TextDocumentContentChangeEvent.ofJson_eq_incremental_iff` and `ofJson_eq_full_iff` that they are
read so, and no other ones.

Notifications carry lists of changes, and those of notebooks lists of lists of them.  They are read
back with every change in its place, and a change that cannot be read is never passed over:
`DidChangeTextDocumentParams.changes_decode`, `DidChangeNotebookDocumentParams.changes_decode`.
-/

namespace LanguageServer

open Json (Source)
open Field.IsFaithful (required trailing)

/-! ## Members that may be missing -/

/-- There is nothing under a key, or null. -/
def Json.Lacks (j : Json) (key : String) : Prop := ∀ v, j.member? key = some v → v = .null

/-- What stands under a key is not null and is read as a value. -/
def Json.Has {α : Type} (j : Json) (key : String) (c : Codec α) (a : α) : Prop :=
  ∃ v, j.member? key = some v ∧ v ≠ .null ∧ c.ofJson v = .ok a

namespace Field

variable {α : Type} {c : Codec α} {members : Members Json} {key : String}

/-- A trailing field is absent when its key is, or when it is null. -/
theorem gives_none_iff :
    (trailing c).Gives .value (Members.get? key members) none ↔
      (Json.object members).Lacks key := by
  show _ ↔ ∀ v, Members.get? key members = some v → v = .null
  cases Members.get? key members with
  | none => simp [Gives, trailing]
  | some v =>
    constructor
    · intro h w hw
      cases hw
      by_contra hv
      -- A value other than null is read, and then the field is there.
      obtain ⟨a, ha, -⟩ := exists_of_trailing hv h
      cases ha
    · intro h
      obtain rfl := h v rfl
      rfl

/-- A trailing field is there when its key is, with a value that is read. -/
theorem gives_some_iff {a : α} :
    (trailing c).Gives .value (Members.get? key members) (some a) ↔
      (Json.object members).Has key c a := by
  show _ ↔ ∃ v, Members.get? key members = some v ∧ v ≠ .null ∧ c.ofJson v = .ok a
  cases Members.get? key members with
  | none => simp [Gives, trailing]
  | some v =>
    constructor
    · intro h
      have hv : v ≠ .null := by
        rintro rfl
        cases h
      obtain ⟨b, hb, hread⟩ := exists_of_trailing hv h
      cases hb
      exact ⟨v, rfl, hv, hread⟩
    · rintro ⟨w, hw, hv, hread⟩
      cases hw
      show c.option.decode _ = _
      -- Only null is read as nothing: here the value itself is read.
      rw [Codec.option_decode_ofJson c hv]
      exact congrArg (Except.map some) hread

/-- A required text is there just when its member is that text. -/
theorem gives_string_iff {s : String} :
    (required Codec.string).Gives .value (Members.get? key members) s ↔
      (Json.object members).member? key = some (.string s) := by
  show _ ↔ Members.get? key members = some (.string s)
  cases Members.get? key members with
  | none => simp [Gives, required]
  | some v =>
    cases v with
    | string t => simp [Gives, required, Codec.string, Source.ofJson]
    | null | bool _ | number _ | array _ | object _ =>
      simp [Gives, required, Codec.string, Source.ofJson, Source.refuse]

end Field

/-! ## One change -/

theorem RawContentChange.isFaithful : RawContentChange.record.IsFaithful where
  nodup := by decide
  build_make _ := rfl
  fields := ⟨.trailing Range.isFaithful.codec, .trailing .uint32, .required .string, trivial⟩

theorem RawContentChange.isProjective : RawContentChange.record.IsProjective :=
  ⟨rfl, by decide, by simp [RawContentChange.record, Fields.Projects]⟩

namespace TextDocumentContentChangeEvent

/-- A change is made of what it is written as, and of nothing else. -/
theorem ofRaw_eq_ok_iff {raw : RawContentChange} {e : TextDocumentContentChangeEvent} :
    ofRaw raw = .ok e ↔ raw = e.toRaw := by
  obtain ⟨range, rangeLength, text⟩ := raw
  cases range <;> cases rangeLength <;> cases e <;> simp [ofRaw, toRaw]

/-- A change is read when the record that it is written as is. -/
theorem decode_eq_ok_iff {s : Source} {e : TextDocumentContentChangeEvent} :
    codec.decode s = .ok e ↔ RawContentChange.codec.decode s = .ok e.toRaw := by
  simp only [codec, bind, Except.bind]
  cases RawContentChange.codec.decode s with
  | error err => simp
  | ok raw => simpa using ofRaw_eq_ok_iff

/-- A change of a text comes back. -/
theorem isFaithful : codec.IsFaithful where
  readsBack e := by
    have hraw := RawContentChange.isFaithful.codec.readsBack e.toRaw
    exact ⟨hraw.wellFormed, fun p => decode_eq_ok_iff.2 (hraw.decode_eq p)⟩
  ne_null _ := nofun

/-- An object that stands for the change of a range. -/
structure IsIncremental (j : Json) (range : Range) (rangeLength : Option UInt32)
    (text : String) : Prop where
  range : j.Has "range" Range.codec range
  rangeLength : rangeLength = none ∧ j.Lacks "rangeLength" ∨
    ∃ n, rangeLength = some n ∧ j.Has "rangeLength" Codec.uint32 n
  text : j.member? "text" = some (.string text)

/-- An object that stands for the change of the whole text. -/
structure IsFull (j : Json) (text : String) : Prop where
  range : j.Lacks "range"
  rangeLength : j.Lacks "rangeLength"
  text : j.member? "text" = some (.string text)

/-- What a change of a text is read from, field by field. -/
theorem ofJson_iff {members : Members Json} (hm : members.Ascending)
    {e : TextDocumentContentChangeEvent} :
    codec.ofJson (.object members) = .ok e ↔
      (Field.trailing Range.codec).Gives .value (Members.get? "range" members) e.toRaw.range ∧
      (Field.trailing Codec.uint32).Gives .value (Members.get? "rangeLength" members)
        e.toRaw.rangeLength ∧
      (Json.object members).member? "text" = some (.string e.toRaw.text) := by
  have hraw : RawContentChange.codec.ofJson (.object members) = .ok e.toRaw ↔ _ :=
    RawContentChange.isProjective.ofJson_object_iff (fun _ => rfl) hm
  have htext : (Field.required Codec.string).Gives .value (Members.get? "text" members)
      e.toRaw.text ↔ _ := Field.gives_string_iff
  rw [Codec.ofJson, decode_eq_ok_iff, ← Codec.ofJson, hraw, ← htext]
  -- The three fields give what the change has.
  simp [RawContentChange.record, Fields.Gives]

/-- A document reads as a change of a part just when it is one. -/
theorem ofJson_eq_incremental_iff {members : Members Json} (hm : members.Ascending)
    {range : Range} {rangeLength : Option UInt32} {text : String} :
    codec.ofJson (.object members) = .ok (.incremental range rangeLength text) ↔
      IsIncremental (.object members) range rangeLength text := by
  rw [ofJson_iff hm]
  simp only [toRaw, Field.gives_some_iff]
  -- The length of the range may be missing.
  cases rangeLength with
  | none =>
    rw [Field.gives_none_iff]
    exact ⟨fun ⟨hr, hl, ht⟩ => ⟨hr, .inl ⟨rfl, hl⟩, ht⟩, fun h => ⟨h.range, by
      simpa using h.rangeLength, h.text⟩⟩
  | some n =>
    rw [Field.gives_some_iff]
    exact ⟨fun ⟨hr, hl, ht⟩ => ⟨hr, .inr ⟨n, rfl, hl⟩, ht⟩, fun h => ⟨h.range, by
      simpa using h.rangeLength, h.text⟩⟩

/-- A document reads as a whole new text just when it is one. -/
theorem ofJson_eq_full_iff {members : Members Json} (hm : members.Ascending) {text : String} :
    codec.ofJson (.object members) = .ok (.full text) ↔ IsFull (.object members) text := by
  rw [ofJson_iff hm]
  simp only [toRaw, Field.gives_none_iff]
  exact ⟨fun ⟨hr, hl, ht⟩ => ⟨hr, hl, ht⟩, fun h => ⟨h.range, h.rangeLength, h.text⟩⟩

/-- What stands for no change is refused. -/
theorem ofJson_eq_error_iff {members : Members Json} (hm : members.Ascending) :
    (∃ e, codec.ofJson (.object members) = .error e) ↔
      (∀ range rangeLength text,
        ¬ IsIncremental (.object members) range rangeLength text) ∧
      ∀ text, ¬ IsFull (.object members) text := by
  simp only [← ofJson_eq_incremental_iff hm, ← ofJson_eq_full_iff hm]
  cases codec.ofJson (.object members) with
  | error err => simp
  | ok e => cases e <;> simp

end TextDocumentContentChangeEvent

/-! ## Lists of changes -/

theorem DidChangeTextDocumentParams.isFaithful :
    DidChangeTextDocumentParams.record.IsFaithful where
  nodup := by decide
  build_make _ := rfl
  fields := ⟨.required VersionedTextDocumentIdentifier.isFaithful.codec,
    .required TextDocumentContentChangeEvent.isFaithful.list, trivial⟩

theorem NotebookCellTextChange.isFaithful : NotebookCellTextChange.record.IsFaithful where
  nodup := by decide
  build_make _ := rfl
  fields := ⟨.required VersionedTextDocumentIdentifier.isFaithful.codec,
    .required TextDocumentContentChangeEvent.isFaithful.list, trivial⟩

/-! ## Notebooks -/

theorem NotebookCellKind.isFaithful : NotebookCellKind.codec.IsFaithful :=
  Numbering.isFaithful fun k => by cases k <;> exact ⟨by decide, rfl⟩

theorem ExecutionSummary.isFaithful : ExecutionSummary.record.IsFaithful where
  nodup := by decide
  build_make _ := rfl
  fields := ⟨.required .uint32, .trailing .bool, trivial⟩

theorem VersionedNotebookDocumentIdentifier.isFaithful :
    VersionedNotebookDocumentIdentifier.record.IsFaithful where
  nodup := by decide
  build_make _ := rfl
  fields := ⟨.required .int32, .required .string, trivial⟩

/-- The metadata of a cell can be written and read. -/
def NotebookCell.WellFormed (c : NotebookCell) : Prop := ∀ v ∈ c.metadata, v.IsData

/-- A cell of a notebook is recovered with its metadata. -/
theorem NotebookCell.recovers {c : NotebookCell} (h : c.WellFormed) : codec.Recovers c := by
  obtain ⟨metadata, hread, heq⟩ := Field.Recovers.trailing (LspAny.data_recovers h)
  refine ⟨{ c with metadata }, Record.readsBack (by decide) rfl ?_, ?_⟩
  · exact ⟨required NotebookCellKind.isFaithful _, required .string _, hread,
      trailing ExecutionSummary.isFaithful.codec _, trivial⟩
  · show instBEqNotebookCell.beq _ _ = true
    simp only [instBEqNotebookCell.beq, beq_self_eq_true, heq, Bool.and_self]

/-- Cells come back from a member that may be missing. -/
theorem NotebookCell.cells_recovers {o : Option (List NotebookCell)}
    (h : ∀ cells ∈ o, ∀ c ∈ cells, c.WellFormed) :
    (Field.trailing codec.list).Recovers o :=
  .trailing (.optional (fun cells hcells => .list fun c hc => recovers (h cells hcells c hc))
    fun _ _ => nofun)

/-- The cells that are put in can be written and read. -/
def NotebookCellArrayChange.WellFormed (a : NotebookCellArrayChange) : Prop :=
  ∀ cells ∈ a.cells, ∀ c ∈ cells, c.WellFormed

/-- A change of the list of cells is recovered. -/
theorem NotebookCellArrayChange.recovers {a : NotebookCellArrayChange} (h : a.WellFormed) :
    codec.Recovers a := by
  obtain ⟨cells, hread, heq⟩ := NotebookCell.cells_recovers h
  refine ⟨{ a with cells }, Record.readsBack (by decide) rfl ?_, ?_⟩
  · exact ⟨required .uint32 _, required .uint32 _, hread, trivial⟩
  · show instBEqNotebookCellArrayChange.beq _ _ = true
    simp only [instBEqNotebookCellArrayChange.beq, beq_self_eq_true, heq, Bool.and_self]

/-- A change of the structure of a notebook is recovered. -/
theorem NotebookCellsStructureChange.recovers {s : NotebookCellsStructureChange}
    (h : s.array.WellFormed) : codec.Recovers s := by
  obtain ⟨array, hread, heq⟩ := Field.Recovers.required (NotebookCellArrayChange.recovers h)
  refine ⟨{ s with array }, Record.readsBack (by decide) rfl ?_, ?_⟩
  · exact ⟨hread, trailing TextDocumentItem.isFaithful.codec.list _,
      trailing TextDocumentIdentifier.isFaithful.codec.list _, trivial⟩
  · show instBEqNotebookCellsStructureChange.beq _ _ = true
    simp only [instBEqNotebookCellsStructureChange.beq, beq_self_eq_true, heq, Bool.and_self]

/-- The cells of a change can be written and read. -/
structure NotebookCellsChange.WellFormed (c : NotebookCellsChange) : Prop where
  arrangement : ∀ s ∈ c.arrangement, s.array.WellFormed
  data : ∀ cells ∈ c.data, ∀ cell ∈ cells, cell.WellFormed

/-- A change of cells is recovered. -/
theorem NotebookCellsChange.recovers {c : NotebookCellsChange} (h : c.WellFormed) :
    codec.Recovers c := by
  obtain ⟨arrangement, hstructure, heqs⟩ : (Field.trailing
      NotebookCellsStructureChange.codec).Recovers c.arrangement :=
    .trailing (.optional (fun s hs => NotebookCellsStructureChange.recovers (h.arrangement s hs))
      fun _ _ => nofun)
  obtain ⟨data, hdata, heqd⟩ := NotebookCell.cells_recovers h.data
  refine ⟨{ c with arrangement, data }, Record.readsBack (by decide) rfl ?_, ?_⟩
  · exact ⟨hstructure, hdata, trailing NotebookCellTextChange.isFaithful.codec.list _, trivial⟩
  · show instBEqNotebookCellsChange.beq _ _ = true
    simp only [instBEqNotebookCellsChange.beq, beq_self_eq_true, heqs, heqd, Bool.and_self]

/-- The metadata and the cells of a change can be written and read. -/
structure NotebookDocumentChangeEvent.WellFormed (e : NotebookDocumentChangeEvent) : Prop where
  metadata : ∀ v ∈ e.metadata, v.IsData
  cells : ∀ c ∈ e.cells, c.WellFormed

/-- A change of a notebook is recovered. -/
theorem NotebookDocumentChangeEvent.recovers {e : NotebookDocumentChangeEvent}
    (h : e.WellFormed) : codec.Recovers e := by
  obtain ⟨metadata, hmetadata, heqm⟩ := Field.Recovers.trailing (LspAny.data_recovers h.metadata)
  obtain ⟨cells, hcells, heqc⟩ : (Field.trailing NotebookCellsChange.codec).Recovers e.cells :=
    .trailing (.optional (fun c hc => NotebookCellsChange.recovers (h.cells c hc)) fun _ _ => nofun)
  refine ⟨{ e with metadata, cells }, Record.readsBack (by decide) rfl ?_, ?_⟩
  · exact ⟨hmetadata, hcells, trivial⟩
  · show instBEqNotebookDocumentChangeEvent.beq _ _ = true
    simp only [instBEqNotebookDocumentChangeEvent.beq, heqm, heqc, Bool.and_self]

/-- What is notified of a change of a notebook is recovered. -/
theorem DidChangeNotebookDocumentParams.recovers {p : DidChangeNotebookDocumentParams}
    (h : p.change.WellFormed) : codec.Recovers p := by
  obtain ⟨change, hread, heq⟩ := Field.Recovers.required (NotebookDocumentChangeEvent.recovers h)
  refine ⟨{ p with change }, Record.readsBack (by decide) rfl ?_, ?_⟩
  · exact ⟨required VersionedNotebookDocumentIdentifier.isFaithful.codec _, hread, trivial⟩
  · show instBEqDidChangeNotebookDocumentParams.beq _ _ = true
    simp only [instBEqDidChangeNotebookDocumentParams.beq, beq_self_eq_true, heq, Bool.and_self]

/-! ## Changes that cannot be read -/

/-- The items that stand under a key of a record. -/
def Record.items {σ : Type} (r : Record σ) (key : String) (j : Json) : List Json :=
  match r.member? key j with
  | some (.array items) => items
  | _ => []

/-- Each item of a list that is read is read itself. -/
theorem Codec.exists_of_list {α : Type} {c : Codec α} {items : List Json} {as : List α}
    (h : c.list.ofJson (.array items) = .ok as) : ∀ j ∈ items, ∃ a ∈ as, c.ofJson j = .ok a := by
  rw [ofJson, decode_list] at h
  induction items generalizing as with
  | nil => exact fun j hj => absurd hj List.not_mem_nil
  | cons j items ih =>
    obtain ⟨a, rest, ha, hrest, rfl⟩ := decodeItems_cons_eq_ok_iff.1 h
    refine List.forall_mem_cons.2 ⟨⟨a, List.mem_cons_self, ha⟩, fun j hj => ?_⟩
    obtain ⟨b, hb, hread⟩ := ih hrest j hj
    exact ⟨b, List.mem_cons_of_mem _ hb, hread⟩

/-- A list that is read is read item by item. -/
theorem Record.exists_of_items {σ α : Type} {r : Record σ} {key : String} {j : Json} {c : Codec α}
    {as : List α} (h : ∀ v, r.member? key j = some v → c.list.ofJson v = .ok as) :
    ∀ item ∈ r.items key j, ∃ a ∈ as, c.ofJson item = .ok a := by
  intro item hitem
  unfold items at hitem
  split at hitem
  · rename_i items hv
    exact Codec.exists_of_list (h _ hv) item hitem
  · cases hitem

/-- A list that may be missing has no items when it is null. -/
theorem Record.exists_of_trailing_items {σ α : Type} {r : Record σ} {key : String} {j : Json}
    {c : Codec α} {o : Option (List α)}
    (h : ∀ v, r.member? key j = some v →
      (Field.trailing c.list).decode (.ofJson .value v) = .ok o) :
    ∀ item ∈ r.items key j, ∃ a, c.ofJson item = .ok a := by
  intro item hitem
  unfold items at hitem
  split at hitem
  · rename_i items hv
    have hne : Json.array items ≠ .null := nofun
    obtain ⟨as, -, has⟩ := Field.exists_of_trailing hne (h _ hv)
    obtain ⟨a, -, ha⟩ := Codec.exists_of_list has item hitem
    exact ⟨a, ha⟩
  · cases hitem

/-- What stands in a well-formed document is well-formed. -/
theorem Record.wellFormed_of_mem_items {σ : Type} {r : Record σ} {key : String} {j item : Json}
    (hj : j.WellFormed) (h : item ∈ r.items key j) : item.WellFormed := by
  unfold items at h
  split at h
  · rename_i items hv
    cases wellFormed_of_member? hj hv with
    | array _ hw => exact hw item h
  · cases h

namespace DidChangeTextDocumentParams

/-- The changes in a notification. -/
def changes (j : Json) : List Json := record.items "contentChanges" j

theorem isProjective : record.IsProjective := ⟨rfl, by decide, by simp [record, Fields.Projects]⟩

/-- When a notification is read, so is every change in it. -/
theorem changes_decode {j : Json} (hj : j.WellFormed) {p : DidChangeTextDocumentParams}
    (hp : codec.ofJson j = .ok p) :
    ∀ c ∈ changes j, ∃ e ∈ p.contentChanges,
      TextDocumentContentChangeEvent.codec.ofJson c = .ok e :=
  Record.exists_of_items (isProjective.reads hj hp).2.1

end DidChangeTextDocumentParams

namespace NotebookCellTextChange

theorem isProjective : record.IsProjective := ⟨rfl, by decide, by simp [record, Fields.Projects]⟩

/-- The changes of a cell that is read are read. -/
theorem changes_decode {j : Json} (hj : j.WellFormed) {t : NotebookCellTextChange}
    (ht : codec.ofJson j = .ok t) :
    ∀ c ∈ record.items "changes" j, ∃ e ∈ t.changes,
      TextDocumentContentChangeEvent.codec.ofJson c = .ok e :=
  Record.exists_of_items (isProjective.reads hj ht).2.1

end NotebookCellTextChange

namespace NotebookCellsChange

theorem isProjective : record.IsProjective := ⟨rfl, by decide, by simp [record, Fields.Projects]⟩

/-- The texts of the cells that are read are read. -/
theorem texts_decode {j : Json} (hj : j.WellFormed) {c : NotebookCellsChange}
    (hc : codec.ofJson j = .ok c) :
    ∀ item ∈ record.items "textContent" j, ∃ t, NotebookCellTextChange.codec.ofJson item = .ok t :=
  Record.exists_of_trailing_items (isProjective.reads hj hc).2.2.1

end NotebookCellsChange

namespace DidChangeNotebookDocumentParams

/-- The changes of the texts of cells in a notification. -/
def changes (j : Json) : List Json :=
  let cells := (record.member? "change" j).bind (NotebookDocumentChangeEvent.record.member? "cells")
  let texts := cells.elim [] (NotebookCellsChange.record.items "textContent")
  texts.flatMap (NotebookCellTextChange.record.items "changes")

theorem isProjective : record.IsProjective := ⟨rfl, by decide, by simp [record, Fields.Projects]⟩

theorem event_isProjective : NotebookDocumentChangeEvent.record.IsProjective :=
  ⟨rfl, by decide, by simp [NotebookDocumentChangeEvent.record, Fields.Projects]⟩

/-- When a notification is read, so is every change of a text in it. -/
theorem changes_decode {j : Json} (hj : j.WellFormed) {p : DidChangeNotebookDocumentParams}
    (hp : codec.ofJson j = .ok p) :
    ∀ c ∈ changes j, ∃ e, TextDocumentContentChangeEvent.codec.ofJson c = .ok e := by
  intro c hc
  simp only [changes, List.mem_flatMap] at hc
  obtain ⟨text, htext, hc⟩ := hc
  cases hchange : record.member? "change" j with
  | none => simp [hchange] at htext
  | some change =>
    cases hcells : NotebookDocumentChangeEvent.record.member? "cells" change with
    | none => simp [hchange, hcells] at htext
    | some cells =>
      simp only [hchange, hcells, Option.bind_some, Option.elim_some] at htext
      have hwchange := Record.wellFormed_of_member? hj hchange
      have hwcells := Record.wellFormed_of_member? hwchange hcells
      -- There are texts under the cells, so that they are not null.
      have hne : cells ≠ .null := by
        rintro rfl
        cases htext
      -- Down through the event, its cells and the text, each of them read.
      have hreadchange := (isProjective.reads hj hp).2.1 _ hchange
      obtain ⟨cs, -, hreadcells⟩ := Field.exists_of_trailing hne
        ((event_isProjective.reads hwchange hreadchange).2.1 _ hcells)
      obtain ⟨t, hreadtext⟩ := NotebookCellsChange.texts_decode hwcells hreadcells text htext
      obtain ⟨e, -, he⟩ := NotebookCellTextChange.changes_decode
        (Record.wellFormed_of_mem_items hwcells htext) hreadtext c hc
      exact ⟨e, he⟩

/-- The changes of the texts of cells. -/
def textContent? (p : DidChangeNotebookDocumentParams) : Option (List NotebookCellTextChange) :=
  p.change.cells.bind (·.textContent)

/-- Equal notifications have the same changes of texts, in the same order. -/
theorem textContent?_eq_of_beq {p q : DidChangeNotebookDocumentParams} (h : (q == p) = true) :
    q.textContent? = p.textContent? := by
  obtain ⟨-, hchange⟩ := Bool.and_eq_true_iff.1 h
  obtain ⟨-, hcells⟩ := Bool.and_eq_true_iff.1 hchange
  unfold textContent?
  cases hq : q.change.cells <;> cases hp : p.change.cells
  · rfl
  · simp [hq, hp] at hcells
  · simp [hq, hp] at hcells
  · rw [hq, hp] at hcells
    obtain ⟨-, hrest⟩ := Bool.and_eq_true_iff.1 hcells
    obtain ⟨-, htexts⟩ := Bool.and_eq_true_iff.1 hrest
    exact eq_of_beq htexts

end DidChangeNotebookDocumentParams

/-- Notifications of changes are read back, with every change of a text in its place.  An object is
read as the change of a range when it has a range that can be read and no length or one that can be
read, as the change of the whole text when it has neither, and otherwise not at all; and when one
change cannot be read, the notification cannot be read either. -/
theorem TextDocumentContentChangeEvent.changes_recovered :
    (∀ p : DidChangeTextDocumentParams,
      DidChangeTextDocumentParams.codec.ofJson (DidChangeTextDocumentParams.codec.encode p) =
        .ok p) ∧
    (∀ p : DidChangeNotebookDocumentParams, p.change.WellFormed →
      ∃ q, DidChangeNotebookDocumentParams.codec.ofJson
          (DidChangeNotebookDocumentParams.codec.encode p) = .ok q ∧
        (q == p) = true ∧ q.textContent? = p.textContent?) ∧
    (∀ d : Dictionary Json,
      (∀ range rangeLength text, codec.ofJson (.object d.members) =
          .ok (.incremental range rangeLength text) ↔
        IsIncremental (.object d.members) range rangeLength text) ∧
      (∀ text, codec.ofJson (.object d.members) = .ok (.full text) ↔
        IsFull (.object d.members) text) ∧
      ((∃ e, codec.ofJson (.object d.members) = .error e) ↔
        (∀ range rangeLength text, ¬ IsIncremental (.object d.members) range rangeLength text) ∧
        ∀ text, ¬ IsFull (.object d.members) text)) ∧
    ∀ j : Json, j.WellFormed →
      (∀ c ∈ DidChangeTextDocumentParams.changes j, ∀ e, codec.ofJson c = .error e →
        ∃ e, DidChangeTextDocumentParams.codec.ofJson j = .error e) ∧
      ∀ c ∈ DidChangeNotebookDocumentParams.changes j, ∀ e, codec.ofJson c = .error e →
        ∃ e, DidChangeNotebookDocumentParams.codec.ofJson j = .error e := by
  refine ⟨fun p => ?_, fun p hp => ?_, fun d => ⟨fun _ _ _ => ?_, fun _ => ?_, ?_⟩,
    fun j hj => ⟨fun c hc e he => ?_, fun c hc e he => ?_⟩⟩
  · exact (DidChangeTextDocumentParams.isFaithful.codec.readsBack p).ofJson_eq
  · obtain ⟨q, hq, heq⟩ := (DidChangeNotebookDocumentParams.recovers hp).exists_ofJson
    exact ⟨q, hq, heq, DidChangeNotebookDocumentParams.textContent?_eq_of_beq heq⟩
  · exact ofJson_eq_incremental_iff d.ascending
  · exact ofJson_eq_full_iff d.ascending
  · exact ofJson_eq_error_iff d.ascending
  · cases hp : DidChangeTextDocumentParams.codec.ofJson j with
    | error err => exact ⟨err, rfl⟩
    | ok p =>
      obtain ⟨_, -, hread⟩ := DidChangeTextDocumentParams.changes_decode hj hp c hc
      rw [he] at hread
      cases hread
  · cases hp : DidChangeNotebookDocumentParams.codec.ofJson j with
    | error err => exact ⟨err, rfl⟩
    | ok p =>
      obtain ⟨_, hread⟩ := DidChangeNotebookDocumentParams.changes_decode hj hp c hc
      rw [he] at hread
      cases hread

/-- A cell in which all is replaced and then a part, in a notebook with metadata. -/
def DidChangeNotebookDocumentParams.exampleChange : DidChangeNotebookDocumentParams where
  notebookDocument := ⟨3, "file:///n"⟩
  change.metadata := some (.uinteger 5)
  change.cells := some
    { textContent := some [⟨⟨"file:///n#c", 2⟩,
        [.full "a", .incremental (.ofCounts 0 0 0 1) none "b"]⟩] }

/-- A notification with one change, of which all members but those of the change are in order. -/
def DidChangeTextDocumentParams.exampleOf (change : Json) : Json :=
  .object [("contentChanges", .array [change]),
    ("textDocument", .object [("uri", .string "file:///n"), ("version", .int 2)])]

/-- A change that has the length of a range, but no range. -/
def DidChangeTextDocumentParams.exampleLength : Json :=
  .object [("rangeLength", .int 3), ("text", .string "c")]

/-- The cell is read back.  The notification with the length alone is refused, and would be read
without the length. -/
theorem TextDocumentContentChangeEvent.changes_recovered_exampleChange :
    (∃ q, DidChangeNotebookDocumentParams.codec.ofJson (DidChangeNotebookDocumentParams.codec.encode
        DidChangeNotebookDocumentParams.exampleChange) = .ok q ∧
      q.textContent? = DidChangeNotebookDocumentParams.exampleChange.textContent?) ∧
    (∃ e, DidChangeTextDocumentParams.codec.ofJson
      (DidChangeTextDocumentParams.exampleOf DidChangeTextDocumentParams.exampleLength) =
        .error e) ∧
    ∃ p, DidChangeTextDocumentParams.codec.ofJson
      (DidChangeTextDocumentParams.exampleOf (.object [("text", .string "c")])) = .ok p := by
  obtain ⟨-, hnotebook, -, hrefused⟩ := changes_recovered
  have hmetadata : (LspAny.uinteger 5).IsData := ⟨.uinteger 5, nofun⟩
  have hchange : DidChangeNotebookDocumentParams.exampleChange.change.WellFormed := by
    refine ⟨fun v hv => ?_, fun c hc => ?_⟩
    · cases hv
      exact hmetadata
    · cases hc
      exact ⟨nofun, nofun⟩
  obtain ⟨q, hq, -, htexts⟩ := hnotebook _ hchange
  have hlength : DidChangeTextDocumentParams.exampleLength.WellFormed :=
    .pair (by decide) (.int 3 (by decide) (by decide)) (.string _)
  have hall : (DidChangeTextDocumentParams.exampleOf
      DidChangeTextDocumentParams.exampleLength).WellFormed :=
    .pair (by decide) (.array _ (List.forall_mem_singleton.2 hlength))
      (.pair (by decide) (.string _) (.int 2 (by decide) (by decide)))
  exact ⟨⟨q, hq, htexts⟩, (hrefused _ hall).1 _ List.mem_cons_self _ rfl, ⟨_, rfl⟩⟩

end LanguageServer
