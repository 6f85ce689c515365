import LanguageServer.Proofs.Protocol.Content
import LanguageServer.Protocol.Symbol

/-!
# Which symbols of a workspace are read back

The symbols of a workspace are a flat list, or a nested one whose items may carry data and may
leave out their range.  The reader decides by the first item alone.  A nested list is therefore
restored if its first item says that it is nested, or if no item does, since such a list is written
like a flat one (`WorkspaceSymbolResponse.IsTelling`).  Any other one is refused or loses data.
-/

namespace LanguageServer

open Field.IsFaithful (required trailing)

/-- Kinds of symbols are read back by their numbers. -/
theorem SymbolKind.isFaithful : SymbolKind.codec.IsFaithful :=
  Numbering.isFaithful fun k => by cases k <;> exact ⟨by decide, rfl⟩

/-- Tags of symbols are read back by their numbers. -/
theorem SymbolTag.isFaithful : SymbolTag.codec.IsFaithful :=
  Numbering.isFaithful fun | .deprecated => ⟨by decide, rfl⟩

/-- A symbol of the old form is read back. -/
theorem SymbolInformation.isFaithful : SymbolInformation.record.IsFaithful where
  nodup := by decide
  build_make _ := rfl
  fields := ⟨.required .string, .required SymbolKind.isFaithful,
    .trailing SymbolTag.isFaithful.list, .required Location.isFaithful.codec, .trailing .string,
    trivial⟩

/-! ## Places -/

/-- A location that is only a document is read back. -/
theorem UriLocation.isFaithful : UriLocation.record.IsFaithful where
  nodup := by decide
  build_make _ := rfl
  fields := ⟨.required .string, trivial⟩

/-- Only a place in a document has a range. -/
theorem WorkspaceLocation.member?_range (l : WorkspaceLocation) :
    (codec.encode l).member? "range" =
      match l with
      | .location l => some (Range.codec.encode l.range)
      | .uri _ => none := by
  cases l with
  | location l => exact (Location.isFaithful.shows l).2.1
  | uri u => exact UriLocation.isFaithful.member?_eq_none u "range" (by decide)

/-- Both forms of a location are read back: the range tells them apart. -/
theorem WorkspaceLocation.isFaithful : WorkspaceLocation.codec.IsFaithful where
  readsBack l := by
    -- The member `range` decides between the two.
    have hrange := member?_range l
    cases l with
    | location l =>
      refine .alternative (Location.isFaithful.codec.readsBack l) rfl ?_
      rw [show (Location.record.codec.encode l).member? "range" = some _ from hrange]
      rfl
    | uri u =>
      refine .alternative (UriLocation.isFaithful.codec.readsBack u) rfl ?_
      rw [show (UriLocation.record.codec.encode u).member? "range" = none from hrange]
      rfl
  ne_null
    | .location _ | .uri _ => nofun

/-! ## Symbols of a workspace -/

namespace WorkspaceSymbol

/-- The data of a symbol can be written and read. -/
def WellFormed (s : WorkspaceSymbol) : Prop := ∀ v ∈ s.data, v.IsData

/-- What a symbol is read back as: its data come in the first words that hold them. -/
def reread (s : WorkspaceSymbol) : WorkspaceSymbol :=
  { s with data := s.data.map fun v => .ofJson v.toJson }

/-- The fields of a symbol are read back, its data as equal ones. -/
theorem fields_readsBack {s : WorkspaceSymbol} (h : s.WellFormed) :
    record.fields.ReadsBack s s.reread :=
  ⟨required .string _, required SymbolKind.isFaithful _, trailing SymbolTag.isFaithful.list _,
    trailing .string _, required WorkspaceLocation.isFaithful _, (LspAny.data_readsBack h).trailing,
    trivial⟩

/-- A symbol is read back, its data as equal ones. -/
theorem readsBack {s : WorkspaceSymbol} (h : s.WellFormed) : codec.ReadsBack s s.reread :=
  Record.readsBack (by decide) rfl (fields_readsBack h)

/-- What a symbol is read back as is written like it. -/
theorem encode_reread {s : WorkspaceSymbol} (h : s.WellFormed) :
    codec.encode s.reread = codec.encode s := by
  obtain ⟨name, kind, tags, containerName, location, _ | v⟩ := s
  · rfl
  · have hv := LspAny.encode_ofJson_toJson (h v rfl).wellFormed
    simp only [codec, Record.codec, record, Fields.encode, reread, Field.trailing, Option.map_some,
      hv]

/-- A symbol that a flat list can hold: it has no data, and a range. -/
def IsPlain (s : WorkspaceSymbol) : Prop := s.data = none ∧ ∃ l, s.location = .location l

/-- Exactly the symbols that a flat list cannot hold say that their list is nested. -/
theorem isNested_encode_iff {s : WorkspaceSymbol} (h : s.WellFormed) :
    WorkspaceSymbolResponse.isNested (codec.encode s) = false ↔ s.IsPlain := by
  have hshows := Record.shows_encode (by decide) (fields_readsBack h)
  have hlocation : (codec.encode s).member? "location" =
      some (WorkspaceLocation.codec.encode s.location) := hshows.2.2.2.2.1
  have hdata : (codec.encode s).member? "data" = s.data.map LspAny.codec.encode :=
    hshows.2.2.2.2.2.1
  simp only [WorkspaceSymbolResponse.isNested, hlocation, hdata, WorkspaceLocation.member?_range,
    IsPlain, Bool.or_eq_false_iff]
  cases s.data <;> cases s.location <;> simp

/-- A plain symbol is written like one of a flat list. -/
theorem IsPlain.exists_encode_eq {s : WorkspaceSymbol} (h : s.IsPlain) :
    ∃ u, SymbolInformation.codec.encode u = codec.encode s := by
  obtain ⟨name, kind, tags, containerName, location, data⟩ := s
  obtain ⟨rfl, l, rfl⟩ := h
  let u : SymbolInformation := ⟨name, kind, tags, l, containerName⟩
  have hu := SymbolInformation.isFaithful
  refine ⟨u, congrArg Json.object (Members.ofList_eq_of_perm
    (Fields.nodup_encode (hu.fields.readsBack u) hu.nodup) ?_)⟩
  -- The two kinds of symbols name their members in different orders.
  cases containerName with
  | none => cases tags <;> exact .refl _
  | some c =>
    cases tags with
    | none => exact .cons _ (.cons _ (.swap _ _ _))
    | some ts => exact .cons _ (.cons _ (.cons _ (.swap _ _ _)))

end WorkspaceSymbol

/-! ## Lists of symbols -/

namespace WorkspaceSymbolResponse

/-- A symbol of a flat list does not say that its list is nested. -/
theorem isNested_flat (u : SymbolInformation) :
    isNested (SymbolInformation.codec.encode u) = false := by
  have h := SymbolInformation.isFaithful
  have hlocation : (SymbolInformation.codec.encode u).member? "location" =
      some (Location.codec.encode u.location) := (h.shows u).2.2.2.1
  have hrange : (Location.codec.encode u.location).member? "range" =
      some (Range.codec.encode u.location.range) := (Location.isFaithful.shows u.location).2.1
  have hdata : (SymbolInformation.codec.encode u).member? "data" = none :=
    h.member?_eq_none u "data" (by decide)
  simp only [isNested, hdata, hlocation, hrange]
  rfl

/-- The first item decides how a list is read. -/
theorem ofJson_array {items : List Json} (h : ∀ j ∈ items, j.WellFormed) :
    codec.ofJson (.array items) =
      (if items.head?.any isNested then
        (WorkspaceSymbol.codec.list.ofJson (.array items)).map .nested
      else (SymbolInformation.codec.list.ofJson (.array items)).map .flat).mapError
        DecodeError.withoutPlace := by
  show (Codec.json.list.decode (.ofJson .value (.array items))).bind _ = _
  rw [Codec.decode_items h]
  rfl

/-- The data of all symbols can be written and read. -/
def WellFormed : WorkspaceSymbolResponse → Prop
  | .flat _ => True
  | .nested symbols => ∀ s ∈ symbols, s.WellFormed

/-- The first item says what the list is: it is not plain, or no item is otherwise. -/
def IsTelling : WorkspaceSymbolResponse → Prop
  | .flat _ => True
  | .nested symbols => (∃ s ∈ symbols.head?, ¬ s.IsPlain) ∨ ∀ s ∈ symbols, s.IsPlain

/-- A flat list is read back. -/
theorem ofJson_flat (us : List SymbolInformation) :
    codec.ofJson (codec.encode (.flat us)) = .ok (.flat us) := by
  have hread := SymbolInformation.isFaithful.codec.list.readsBack us
  -- A symbol of the old form has a range and no data, so that the list is read as one of the old
  -- form.
  have hfirst : (us.map SymbolInformation.codec.encode).head?.any isNested = false := by
    cases us with
    | nil => rfl
    | cons u rest => exact isNested_flat u
  have hw : ∀ j ∈ us.map SymbolInformation.codec.encode, j.WellFormed :=
    List.forall_mem_map.2 fun u _ => (SymbolInformation.isFaithful.codec.readsBack u).wellFormed
  refine (ofJson_array hw).trans ?_
  rw [hfirst]
  show ((SymbolInformation.codec.list.ofJson (SymbolInformation.codec.list.encode us)).map
    flat).mapError _ = _
  rw [show SymbolInformation.codec.list.ofJson (SymbolInformation.codec.list.encode us) = .ok us
    from hread.ofJson_eq]
  rfl

variable {xs : List WorkspaceSymbol}

/-- Symbols that can be written are written as documents. -/
theorem wellFormed_items (h : (nested xs).WellFormed) :
    ∀ j ∈ xs.map WorkspaceSymbol.codec.encode, j.WellFormed :=
  List.forall_mem_map.2 fun s hs => (WorkspaceSymbol.readsBack (h s hs)).wellFormed

/-- The first item is taken for one of the new form when it is not plain. -/
theorem isNested_head? (h : (nested xs).WellFormed) :
    (xs.map WorkspaceSymbol.codec.encode).head?.any isNested = true ↔
      ∃ s ∈ xs.head?, ¬ s.IsPlain := by
  cases xs with
  | nil =>
    -- Nothing says that an empty list is nested.
    simp
  | cons s rest =>
    have hs := WorkspaceSymbol.isNested_encode_iff (h s List.mem_cons_self)
    simp [← hs]

/-- A nested list whose first item says so is read back. -/
theorem ofJson_nested (h : (nested xs).WellFormed) (hfirst : ∃ s ∈ xs.head?, ¬ s.IsPlain) :
    codec.ofJson (codec.encode (.nested xs)) = .ok (.nested (xs.map WorkspaceSymbol.reread)) := by
  have hread : WorkspaceSymbol.codec.list.ReadsBack xs (xs.map WorkspaceSymbol.reread) :=
    .list (List.forall₂_map_right_iff.2
      (List.forall₂_same.2 fun s hs => WorkspaceSymbol.readsBack (h s hs)))
  refine (ofJson_array (wellFormed_items h)).trans ?_
  rw [if_pos ((isNested_head? h).2 hfirst)]
  show ((WorkspaceSymbol.codec.list.ofJson (WorkspaceSymbol.codec.list.encode xs)).map
    nested).mapError _ = _
  rw [hread.ofJson_eq]
  rfl

/-- What comes back is written as before. -/
theorem encode_nested_reread (h : (nested xs).WellFormed) :
    codec.encode (.nested (xs.map WorkspaceSymbol.reread)) = codec.encode (.nested xs) := by
  show Json.array ((xs.map WorkspaceSymbol.reread).map _) = Json.array (xs.map _)
  rw [List.map_map]
  exact congrArg Json.array
    (List.map_congr_left fun s hs => WorkspaceSymbol.encode_reread (h s hs))

/-- Any other list is read as a flat one, if at all. -/
theorem exists_flat (h : (nested xs).WellFormed) (hfirst : ¬ ∃ s ∈ xs.head?, ¬ s.IsPlain)
    {y : WorkspaceSymbolResponse} (hy : codec.ofJson (codec.encode (.nested xs)) = .ok y) :
    ∃ us, y = .flat us := by
  -- The reader has only the flat form left, which may refuse the list.
  have hread := (ofJson_array (wellFormed_items h)).symm.trans hy
  rw [if_neg (mt (isNested_head? h).1 hfirst)] at hread
  cases hus : SymbolInformation.codec.list.ofJson
      (.array (xs.map WorkspaceSymbol.codec.encode)) with
  | error e => simp [hus, Except.map, Except.mapError] at hread
  | ok us =>
    rw [hus] at hread
    cases hread
    exact ⟨us, rfl⟩

/-- Plain symbols are written like those of a flat list. -/
theorem exists_encode_flat (h : ∀ s ∈ xs, s.IsPlain) :
    ∃ us, codec.encode (.flat us) = codec.encode (.nested xs) := by
  -- It is enough to find one for each, with the same document.
  suffices hus : ∃ us : List SymbolInformation, us.map SymbolInformation.codec.encode =
      xs.map WorkspaceSymbol.codec.encode from
    have ⟨us, hus⟩ := hus
    ⟨us, congrArg Json.array hus⟩
  induction xs with
  | nil => exact ⟨[], rfl⟩
  | cons s rest ih =>
    obtain ⟨hs, hrest⟩ := List.forall_mem_cons.1 h
    obtain ⟨u, hu⟩ := hs.exists_encode_eq
    obtain ⟨us, hus⟩ := ih hrest
    exact ⟨u :: us, by rw [List.map_cons, List.map_cons, hu, hus]⟩

/-- What is written like a flat list has plain symbols alone. -/
theorem isPlain_of_encode_flat (h : (nested xs).WellFormed) {us : List SymbolInformation}
    (hus : codec.encode (.flat us) = codec.encode (.nested xs)) : ∀ s ∈ xs, s.IsPlain := by
  intro s hs
  have hmap : us.map SymbolInformation.codec.encode = xs.map WorkspaceSymbol.codec.encode :=
    Json.array.inj hus
  have hmem : WorkspaceSymbol.codec.encode s ∈ us.map SymbolInformation.codec.encode :=
    hmap ▸ List.mem_map_of_mem hs
  obtain ⟨u, -, hu⟩ := List.mem_map.1 hmem
  exact (WorkspaceSymbol.isNested_encode_iff (h s hs)).1 (hu ▸ isNested_flat u)

/-- The symbols of a workspace are restored, all with their places and data, if and only if the
first item says what the list is. -/
theorem restored_iff {x : WorkspaceSymbolResponse} (h : x.WellFormed) :
    (∃ y, codec.ofJson (codec.encode x) = .ok y ∧ codec.encode y = codec.encode x) ↔
      x.IsTelling := by
  cases x with
  | flat us => exact iff_of_true ⟨.flat us, ofJson_flat us, rfl⟩ trivial
  | nested xs =>
    constructor
    · rintro ⟨y, hy, hrestored⟩
      by_cases hfirst : ∃ s ∈ xs.head?, ¬ s.IsPlain
      · exact .inl hfirst
      · -- A flat list is written without data and with every range, so nothing else is restored.
        obtain ⟨us, rfl⟩ := exists_flat h hfirst hy
        exact .inr (isPlain_of_encode_flat h hrestored)
    · -- An all plain list comes back as the flat list that is written the same.
      rintro (hfirst | hplain)
      · exact ⟨_, ofJson_nested h hfirst, encode_nested_reread h⟩
      · obtain ⟨us, hus⟩ := exists_encode_flat hplain
        exact ⟨.flat us, hus ▸ ofJson_flat us, hus⟩

/-- A symbol with a range and without data. -/
def exampleSymbol : WorkspaceSymbol :=
  { name := "a", kind := .function, location := .location ⟨"file:///a", .ofCounts 1 0 2 7⟩ }

/-- A symbol whose range is left out. -/
def exampleUnplaced : WorkspaceSymbol :=
  { name := "b", kind := .classKind, location := .uri ⟨"file:///b"⟩ }

/-- The symbol that says that the list is nested comes first. -/
theorem restored_exampleUnplaced :
    (nested [exampleUnplaced, exampleSymbol]).WellFormed ∧
      (nested [exampleUnplaced, exampleSymbol]).IsTelling ∧
      ∃ y, codec.ofJson (codec.encode (.nested [exampleUnplaced, exampleSymbol])) = .ok y ∧
        codec.encode y = codec.encode (.nested [exampleUnplaced, exampleSymbol]) := by
  have hw : (nested [exampleUnplaced, exampleSymbol]).WellFormed :=
    List.forall_mem_cons.2 ⟨nofun, List.forall_mem_singleton.2 nofun⟩
  have htelling : (nested [exampleUnplaced, exampleSymbol]).IsTelling :=
    .inl ⟨exampleUnplaced, rfl, fun h => nomatch h.2⟩
  exact ⟨hw, htelling, (restored_iff hw).2 htelling⟩

/-- A symbol with data. -/
def exampleData : WorkspaceSymbol := { exampleSymbol with data := some (.integer 1) }

/-- Behind a plain symbol, one without a range makes the list unreadable, and one with data loses
them. -/
theorem unrestored_exampleData :
    ((nested [exampleSymbol, exampleUnplaced]).WellFormed ∧
      codec.ofJson (codec.encode (.nested [exampleSymbol, exampleUnplaced])) =
        .error (.unplaced (.missingField "range"))) ∧
    (nested [exampleSymbol, exampleData]).WellFormed ∧
      ∃ y, codec.ofJson (codec.encode (.nested [exampleSymbol, exampleData])) = .ok y ∧
        codec.encode y ≠ codec.encode (.nested [exampleSymbol, exampleData]) := by
  have hdata : (nested [exampleSymbol, exampleData]).WellFormed := by
    refine List.forall_mem_cons.2 ⟨nofun, List.forall_mem_singleton.2 fun v hv => ?_⟩
    cases hv
    exact ⟨.integer 1, nofun⟩
  let u : SymbolInformation := ⟨"a", .function, none, ⟨"file:///a", .ofCounts 1 0 2 7⟩, none⟩
  refine ⟨⟨List.forall_mem_cons.2 ⟨nofun, List.forall_mem_singleton.2 nofun⟩, rfl⟩, hdata,
    .flat [u, u], rfl, fun hrestored => ?_⟩
  -- If nothing were lost, no symbol would have data.
  exact nomatch (isPlain_of_encode_flat hdata hrestored exampleData
    (List.mem_cons_of_mem _ List.mem_cons_self)).1

end WorkspaceSymbolResponse

end LanguageServer
