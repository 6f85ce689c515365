import LanguageServer.Proofs.Codec.Nesting
import LanguageServer.Proofs.Protocol.Symbol
import LanguageServer.Protocol.Navigation

/-!
# Places, symbols and selections are read back

Where a symbol leads to, the symbols of a document and the way a selection grows are read back from
their documents, at any size and depth: `Navigation.results_recovered`.

Locations and links, and the two kinds of symbols, are told apart by the first item of their list.
So only the empty list may come back as one of the other kind.
-/

namespace LanguageServer

open Json (Source Place)
open Field.IsFaithful (required optional trailing)

/-! ## Where a symbol leads to -/

theorem LocationLink.isFaithful : LocationLink.record.IsFaithful where
  nodup := by decide
  build_make _ := rfl
  fields := ⟨.optional Range.isFaithful.codec, .required .string, .required Range.isFaithful.codec,
    .required Range.isFaithful.codec, trivial⟩

namespace GotoDefinitionResponse

/-- Whether the places are an empty list. -/
def isEmpty : GotoDefinitionResponse → Bool
  | .scalar _ => false
  | .array locations => locations.isEmpty
  | .link links => links.isEmpty

/-- A location does not say that its list is one of links. -/
theorem member?_location (l : Location) : (Location.codec.encode l).member? "targetUri" = none :=
  Location.isFaithful.member?_eq_none l "targetUri" (by decide)

/-- A link says that its list is one of links. -/
theorem member?_link (l : LocationLink) :
    (LocationLink.codec.encode l).member? "targetUri" = some (.string l.targetUri) :=
  (LocationLink.isFaithful.shows l).2.1

/-- A list of locations comes back, be it empty or not. -/
theorem readsBack_array (locations : List Location) :
    codec.ReadsBack (.array locations) (.array locations) := by
  refine .alternative (Location.isFaithful.codec.list.readsBack locations) rfl (if_neg ?_)
  cases locations with
  | nil => nofun
  -- The first item is a location, and has no key of a link.
  | cons l rest =>
    show ¬ ((Location.codec.encode l).member? "targetUri").isSome = true
    simp [member?_location]

/-- A list of links comes back when there is a link to tell. -/
theorem readsBack_link (l : LocationLink) (rest : List LocationLink) :
    codec.ReadsBack (.link (l :: rest)) (.link (l :: rest)) := by
  refine .alternative (LocationLink.isFaithful.codec.list.readsBack (l :: rest)) rfl (if_pos ?_)
  show ((LocationLink.codec.encode l).member? "targetUri").isSome = true
  rw [member?_link]
  rfl

/-- All places come back, no links as no locations. -/
theorem exists_readsBack (x : GotoDefinitionResponse) :
    ∃ y, codec.ReadsBack x y ∧ codec.encode y = codec.encode x ∧ (x.isEmpty = false → y = x) := by
  match x with
  | .scalar l =>
    exact ⟨.scalar l, .alternative (Location.isFaithful.codec.readsBack l) rfl rfl, rfl,
      fun _ => rfl⟩
  | .array locations => exact ⟨.array locations, readsBack_array locations, rfl, fun _ => rfl⟩
  -- No links are written as no locations, and are read so.
  | .link [] => exact ⟨.array [], (readsBack_array []).of_encode_eq rfl, rfl, nofun⟩
  | .link (l :: rest) => exact ⟨.link (l :: rest), readsBack_link l rest, rfl, fun _ => rfl⟩

end GotoDefinitionResponse

/-! ## Selections -/

namespace SelectionRange

/-- The selection that a selection grows into. -/
def inside (x : SelectionRange) : List SelectionRange := x.parent.toList

variable {c : Codec SelectionRange} {x : SelectionRange}

/-- A selection says no key twice, whatever it grows into. -/
theorem nodup_keys (c : Codec SelectionRange) :
    ((record c).fields.keys ++ (record c).fields.partKeys).Nodup := by
  simp [record, Fields.keys, Fields.partKeys]

/-- A selection is put together again from its fields. -/
theorem build_make (x : SelectionRange) : (record c).fields.build x (record c).make = x := by
  cases x; rfl

/-- The fields of a selection come back if the selection does that it grows into. -/
theorem fields_readsBack (h : ∀ q ∈ x.inside, c.ReadsBack q q ∧ c.encode q ≠ .null) :
    (record c).fields.ReadsBack x x := by
  -- Only the field of the selection around it reads with the codec of selections.
  refine ⟨required Range.isFaithful.codec _, ?_, trivial⟩
  obtain ⟨range, _ | q⟩ := x
  · exact .omitted rfl rfl
  · obtain ⟨hread, hnull⟩ := h q List.mem_cons_self
    exact .trailing (.some hread hnull)

/-- A selection holds the one that it grows into. -/
theorem isNesting : Codec.IsNesting (fun c => (record c).codec) inside height where
  readsBack h := Record.readsBack (nodup_keys _) (build_make _) (fields_readsBack h)
  isObject _ _ := rfl
  encode_eq {c c' x} h := by
    obtain ⟨range, _ | q⟩ := x
    · rfl
    · simp only [Record.codec, record, Fields.encode, Field.trailing, Option.map_some,
        h q List.mem_cons_self]
  depth_lt {c x} h q hq p := by
    -- A member lies deeper than the object that has it.
    have hmember : ((record c).codec.encode x).member? "parent" = x.parent.map c.encode :=
      (Record.shows_encode (nodup_keys c) (fields_readsBack h)).2.1
    rw [Option.mem_toList.1 hq] at hmember
    exact Source.depth_lt_of_member? hmember
  height_lt {x q} hq := by
    obtain ⟨range, parent⟩ := x
    obtain rfl : parent = some q := Option.mem_toList.1 hq
    exact Nat.lt_succ_self _
  height_le {x d} _ h := by
    obtain ⟨range, _ | q⟩ := x
    · exact Nat.zero_le _
    · exact h q List.mem_cons_self

/-- A selection comes back with all that it grows into. -/
theorem isFaithful : codec.IsFaithful := isNesting.isFaithful ⟨⟨_, rfl⟩, fun _ => rfl⟩

end SelectionRange

/-! ## Symbols of a document -/

namespace DocumentSymbol

/-- The symbols inside a symbol. -/
def inside (x : DocumentSymbol) : List DocumentSymbol := x.children.getD []

variable {c : Codec DocumentSymbol} {x : DocumentSymbol}

theorem nodup_keys (c : Codec DocumentSymbol) :
    ((record c).fields.keys ++ (record c).fields.partKeys).Nodup := by
  simp [record, Fields.keys, Fields.partKeys]

theorem build_make (x : DocumentSymbol) : (record c).fields.build x (record c).make = x := by
  cases x; rfl

theorem fields_readsBack (h : ∀ y ∈ x.inside, c.ReadsBack y y ∧ c.encode y ≠ .null) :
    (record c).fields.ReadsBack x x := by
  refine ⟨required .string _, trailing .string _, required SymbolKind.isFaithful _,
    trailing SymbolTag.isFaithful.list _, required Range.isFaithful.codec _,
    required Range.isFaithful.codec _, ?_, trivial⟩
  obtain ⟨name, detail, kind, tags, range, selectionRange, _ | children⟩ := x
  · exact .omitted rfl rfl
  · have hlist : c.list.ReadsBack children children :=
      .list (List.forall₂_same.2 fun y hy => (h y hy).1)
    exact .trailing (.some hlist nofun)

/-- The height of symbols is the greatest among them. -/
theorem forestHeight_lt_iff {children : List DocumentSymbol} {d : Nat} (hd : 0 < d) :
    forestHeight children < d ↔ ∀ y ∈ children, y.height < d := by
  induction children with
  | nil => simpa [forestHeight] using hd
  | cons y rest ih =>
    rw [forestHeight, Nat.max_lt, ih, List.forall_mem_cons]

theorem isNesting : Codec.IsNesting (fun c => (record c).codec) inside height where
  readsBack h := Record.readsBack (nodup_keys _) (build_make _) (fields_readsBack h)
  isObject _ _ := rfl
  encode_eq {c c' x} h := by
    obtain ⟨name, detail, kind, tags, range, selectionRange, _ | children⟩ := x
    · rfl
    · have hchildren : children.map c.encode = children.map c'.encode := List.map_congr_left h
      simp only [Record.codec, record, Fields.encode, Field.trailing, Option.map_some, Codec.list,
        hchildren]
  depth_lt {c x} h y hy p := by
    -- An item lies deeper than its list, and the list deeper than the object that has it.
    have hmember : ((record c).codec.encode x).member? "children" = x.children.map c.list.encode :=
      (Record.shows_encode (nodup_keys c) (fields_readsBack h)).2.2.2.2.2.2.1
    cases hx : x.children with
    | none => simp [inside, hx] at hy
    | some children =>
      rw [inside, hx] at hy
      rw [hx] at hmember
      have hitem : c.encode y ∈ children.map c.encode := List.mem_map_of_mem hy
      exact Nat.lt_trans (Source.depth_item_lt hitem) (Source.depth_lt_of_member? hmember)
  height_lt {x y} hy := by
    obtain ⟨name, detail, kind, tags, range, selectionRange, _ | children⟩ := x
    · cases hy
    · exact (forestHeight_lt_iff (Nat.succ_pos _)).1 (Nat.lt_succ_self _) y hy
  height_le {x d} hd h := by
    obtain ⟨name, detail, kind, tags, range, selectionRange, _ | children⟩ := x
    · exact Nat.zero_le _
    · exact (forestHeight_lt_iff hd).2 h

theorem isUnrolled : Codec.IsUnrolled (fun c => (record c).codec) codecUpTo :=
  ⟨⟨_, rfl⟩, fun _ => rfl⟩

/-- A symbol comes back with all symbols inside it. -/
theorem isFaithful : codec.IsFaithful := isNesting.isFaithful isUnrolled

/-- A symbol that can hold others has no place. -/
theorem member?_location (x : DocumentSymbol) : (codec.encode x).member? "location" = none := by
  -- Unrolled once, the codec is one of a record, and the record has no such key.
  obtain ⟨c, hc, hinside⟩ := isNesting.exists_inside isUnrolled (Nat.le_refl x.height)
  show ((codecUpTo x.height).encode x).member? "location" = none
  rw [hc]
  exact Record.member?_eq_none (fields_readsBack hinside) "location"
    (by simp [record, Fields.keys, Fields.partKeys])

end DocumentSymbol

namespace DocumentSymbolResponse

/-- Whether there are no symbols. -/
def isEmpty : DocumentSymbolResponse → Bool
  | .flat symbols => symbols.isEmpty
  | .nested symbols => symbols.isEmpty

/-- The first item decides how a list is read. -/
theorem decode_array {items : List Json} (h : ∀ j ∈ items, j.WellFormed) (p : Place) :
    codec.decode (.ofJson p (.array items)) =
      (if (items.head?.bind (Json.member? "location")).isSome then
        (SymbolInformation.codec.list.ofJson (.array items)).map .flat
      else (DocumentSymbol.codec.list.ofJson (.array items)).map .nested).mapError
        DecodeError.withoutPlace := by
  show (Codec.json.list.decode (.ofJson p (.array items))).bind _ = _
  rw [Codec.decode_items h]
  rfl

/-- Symbols of either kind come back when the first of them says what kind they are of. -/
theorem readsBack_of_list {α : Type} {c : Codec α} (hc : c.IsFaithful) {symbols : List α}
    {wrap : List α → DocumentSymbolResponse}
    (he : codec.encode (wrap symbols) = c.list.encode symbols)
    (hread : (if ((symbols.map c.encode).head?.bind (Json.member? "location")).isSome then
        (SymbolInformation.codec.list.ofJson (c.list.encode symbols)).map flat
      else (DocumentSymbol.codec.list.ofJson (c.list.encode symbols)).map nested) =
        (c.list.ofJson (c.list.encode symbols)).map wrap) :
    codec.ReadsBack (wrap symbols) (wrap symbols) where
  wellFormed := he ▸ (hc.list.readsBack symbols).wellFormed
  decode_eq p := by
    have hitems : ∀ j ∈ symbols.map c.encode, j.WellFormed :=
      List.forall_mem_map.2 fun x _ => (hc.readsBack x).wellFormed
    rw [he]
    refine (decode_array hitems p).trans ((congrArg _ hread).trans ?_)
    rw [(hc.list.readsBack symbols).ofJson_eq]
    rfl

/-- Symbols that may hold others come back, be there any or none. -/
theorem readsBack_nested (symbols : List DocumentSymbol) :
    codec.ReadsBack (.nested symbols) (.nested symbols) := by
  refine readsBack_of_list DocumentSymbol.isFaithful rfl (if_neg ?_)
  cases symbols with
  | nil => nofun
  | cons x rest =>
    show ¬ ((DocumentSymbol.codec.encode x).member? "location").isSome = true
    simp [DocumentSymbol.member?_location]

theorem readsBack_flat (u : SymbolInformation) (rest : List SymbolInformation) :
    codec.ReadsBack (.flat (u :: rest)) (.flat (u :: rest)) := by
  refine readsBack_of_list SymbolInformation.isFaithful.codec rfl (if_pos ?_)
  show ((SymbolInformation.codec.encode u).member? "location").isSome = true
  rw [show (SymbolInformation.codec.encode u).member? "location" = some _ from
    (SymbolInformation.isFaithful.shows u).2.2.2.1]
  rfl

/-- All symbols come back, none of a list as none of a forest. -/
theorem exists_readsBack (x : DocumentSymbolResponse) :
    ∃ y, codec.ReadsBack x y ∧ codec.encode y = codec.encode x ∧ (x.isEmpty = false → y = x) := by
  match x with
  | .nested symbols => exact ⟨.nested symbols, readsBack_nested symbols, rfl, fun _ => rfl⟩
  -- An empty list shows no kind, and is read as a forest.
  | .flat [] => exact ⟨.nested [], (readsBack_nested []).of_encode_eq rfl, rfl, nofun⟩
  | .flat (u :: rest) => exact ⟨.flat (u :: rest), readsBack_flat u rest, rfl, fun _ => rfl⟩

end DocumentSymbolResponse

/-- Where a symbol leads to, the symbols of a document and the way a selection grows are read back,
however many they are and however deep they nest.  What is read is written in the same way again,
and it is the same unless it is an empty list. -/
theorem Navigation.results_recovered :
    (∀ x : GotoDefinitionResponse, ∃ y,
      GotoDefinitionResponse.codec.ofJson (GotoDefinitionResponse.codec.encode x) = .ok y ∧
      GotoDefinitionResponse.codec.encode y = GotoDefinitionResponse.codec.encode x ∧
      (x.isEmpty = false → y = x)) ∧
    (∀ x : DocumentSymbolResponse, ∃ y,
      DocumentSymbolResponse.codec.ofJson (DocumentSymbolResponse.codec.encode x) = .ok y ∧
      DocumentSymbolResponse.codec.encode y = DocumentSymbolResponse.codec.encode x ∧
      (x.isEmpty = false → y = x)) ∧
    (∀ x : SelectionRange, SelectionRange.codec.ofJson (SelectionRange.codec.encode x) = .ok x) ∧
    ∀ x : DocumentSymbol, DocumentSymbol.codec.ofJson (DocumentSymbol.codec.encode x) = .ok x := by
  refine ⟨fun x => ?places, fun x => ?symbols, fun x => ?selections, fun x => ?trees⟩
  case places =>
    obtain ⟨y, hread, hencode, hsame⟩ := GotoDefinitionResponse.exists_readsBack x
    exact ⟨y, hread.ofJson_eq, hencode, hsame⟩
  case symbols =>
    obtain ⟨y, hread, hencode, hsame⟩ := DocumentSymbolResponse.exists_readsBack x
    exact ⟨y, hread.ofJson_eq, hencode, hsame⟩
  case selections => exact (SelectionRange.isFaithful.readsBack x).ofJson_eq
  case trees => exact (DocumentSymbol.isFaithful.readsBack x).ofJson_eq

end LanguageServer
