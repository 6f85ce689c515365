import LanguageServer.Codec.Union
import LanguageServer.Proofs.Json.Source
import Mathlib.Data.List.Forall2

/-!
# Values are read back from their documents

`Codec.ReadsBack` says of one value what it is read back as, wherever its document stands.  A codec
that reads every value back as itself, and writes none as null, is `Codec.IsFaithful`; lists,
options and unions of faithful codecs are faithful.
-/

namespace LanguageServer

open Json (Source Place)

/-- Written and read again, `a` becomes `b`. -/
structure Codec.ReadsBack {α : Type} (c : Codec α) (a b : α) : Prop where
  wellFormed : (c.encode a).WellFormed
  decode_eq : ∀ p : Place, c.decode (.ofJson p (c.encode a)) = .ok b

/-- Every value is read back as it was. -/
structure Codec.IsFaithful {α : Type} (c : Codec α) : Prop where
  readsBack : ∀ a, c.ReadsBack a a
  ne_null : ∀ a, c.encode a ≠ .null

namespace Codec

variable {α β : Type} {c : Codec α}

/-- What is read back as a source is read back as a document. -/
theorem ReadsBack.ofJson_eq {a b : α} (h : c.ReadsBack a b) : c.ofJson (c.encode a) = .ok b :=
  h.decode_eq .value

/-- What is written the same is read back as the same. -/
theorem ReadsBack.of_encode_eq {a a' b : α} (h : c.ReadsBack a b) (he : c.encode a' = c.encode a) :
    c.ReadsBack a' b where
  wellFormed := he ▸ h.wellFormed
  decode_eq p := he ▸ h.decode_eq p

/-- What goes through another type is read back as the other one says. -/
theorem ReadsBack.map {forth : α → β} {back : β → α} {b : β} {a : α} (h : c.ReadsBack (back b) a) :
    (c.map forth back).ReadsBack b (forth a) where
  wellFormed := h.wellFormed
  decode_eq p := by simp only [Codec.map, h.decode_eq p, Except.map]

namespace IsFaithful

/-! ## Leaves -/

/-- Truth values are read back. -/
theorem bool : Codec.bool.IsFaithful where
  readsBack b := ⟨.bool b, fun _ => rfl⟩
  ne_null _ := nofun

/-- Texts are read back. -/
theorem string : Codec.string.IsFaithful where
  readsBack s := ⟨.string s, fun _ => rfl⟩
  ne_null _ := nofun

/-- Unsigned words are read back: they fit the integers of documents. -/
theorem uint32 : Codec.uint32.IsFaithful where
  readsBack n := by
    have hn : n.toNat < 0x100000000 := n.toNat_lt
    refine ⟨.int _ ?_ ?_, fun p => ?_⟩
    · simp only [Json.Number.minInt]; omega
    · simp only [Json.Number.maxInt]; omega
    · simp only [Codec.uint32, Source.ofJson]
      rw [if_pos (by omega), Int.toNat_natCast, UInt32.ofNat_toNat]
  ne_null _ := nofun

/-- Signed words are read back: they fit the integers of documents. -/
theorem int32 : Codec.int32.IsFaithful where
  readsBack n := by
    have hle := n.le_toInt
    have hlt := n.toInt_lt
    refine ⟨.int _ ?_ ?_, fun p => ?_⟩
    · simp only [Json.Number.minInt]; omega
    · simp only [Json.Number.maxInt]; omega
    · simp only [Codec.int32, Source.ofJson]
      rw [if_pos (by omega), Int32.ofInt_toInt]
  ne_null _ := nofun

/-- A codec that goes through another one, where every value comes back from its image. -/
theorem map (h : c.IsFaithful) {forth : α → β} {back : β → α} (hb : ∀ b, forth (back b) = b) :
    (c.map forth back).IsFaithful where
  readsBack b := by
    have hmap : (c.map forth back).ReadsBack b (forth (back b)) := (h.readsBack (back b)).map
    rwa [hb] at hmap
  ne_null b := h.ne_null (back b)

end IsFaithful

/-- A finite double is written as the number that it is. -/
theorem ReadsBack.float {f : Float} (h : f.isFinite = true) : Codec.float.ReadsBack f f := by
  have hencode : Codec.float.encode f = .number (.float f) := Json.ofFloat_of_isFinite h
  refine ⟨?_, fun p => ?_⟩
  · rw [hencode]
    exact .float f h
  · rw [hencode]
    rfl

/-- A document is read back as it is. -/
theorem ReadsBack.json {j : Json} (h : j.WellFormed) : Codec.json.ReadsBack j j where
  wellFormed := h
  decode_eq p := by
    simp only [Codec.json, id, Source.value, Source.toJson_ofJson h p, Except.mapError]

/-! ## Lists and options -/

/-- Items that are read back can be written. -/
theorem wellFormed_items {as bs : List α} (h : List.Forall₂ c.ReadsBack as bs) :
    ∀ j ∈ as.map c.encode, j.WellFormed := by
  induction h with
  | nil => nofun
  | cons ha _ ih => exact List.forall_mem_cons.2 ⟨ha.wellFormed, ih⟩

/-- Items that are read back one by one are read back as items. -/
theorem decodeItems_ofItems {as bs : List α} (h : List.Forall₂ c.ReadsBack as bs) (p : Place) :
    c.decodeItems (Source.ofItems p (as.map c.encode)) = .ok bs := by
  induction h with
  | nil => rfl
  | cons ha _ ih =>
    simp only [List.map_cons, Source.ofItems, decodeItems, ha.decode_eq p, ih]
    rfl

/-- Items are read back one by one. -/
theorem ReadsBack.list {as bs : List α} (h : List.Forall₂ c.ReadsBack as bs) :
    c.list.ReadsBack as bs where
  wellFormed := .array _ (wellFormed_items h)
  decode_eq p := by
    simp only [Codec.list, Source.ofJson, decodeItems_ofItems h p]
    rfl

/-- Lists are read back when their items are, and no list is written as null. -/
theorem IsFaithful.list (h : c.IsFaithful) : c.list.IsFaithful where
  readsBack _ := .list (List.forall₂_same.2 fun a _ => h.readsBack a)
  ne_null _ := nofun

/-- Items that stay documents are read as they are. -/
theorem decode_items {items : List Json} (h : ∀ j ∈ items, j.WellFormed) (p : Place) :
    Codec.json.list.decode (.ofJson p (.array items)) = .ok items := by
  have hitems : Codec.json.list.ReadsBack items items :=
    .list (List.forall₂_same.2 fun j hj => .json (h j hj))
  have hencode : Codec.json.list.encode items = .array items :=
    congrArg Json.array (List.map_id items)
  exact hencode ▸ hitems.decode_eq p

/-- What is not null is read as a value that is there. -/
theorem option_decode_ofJson (c : Codec α) {j : Json} (hj : j ≠ .null) (p : Place) :
    c.option.decode (.ofJson p j) = (c.decode (.ofJson p j)).map some := by
  cases j with
  | null => exact absurd rfl hj
  | bool _ | number _ | string _ | array _ | object _ => rfl

/-- A value that is not written as null is read back through an option. -/
theorem ReadsBack.some {a b : α} (h : c.ReadsBack a b) (hn : c.encode a ≠ .null) :
    c.option.ReadsBack (some a) (some b) where
  wellFormed := h.wellFormed
  decode_eq p := (option_decode_ofJson c hn p).trans (by rw [h.decode_eq p]; rfl)

/-- Nothing is written as null and read back as nothing. -/
theorem ReadsBack.none (c : Codec α) : c.option.ReadsBack none none := ⟨.null, fun _ => rfl⟩

/-- Two items are read back one after the other. -/
theorem IsFaithful.pair (h : c.IsFaithful) : c.pair.IsFaithful where
  readsBack x := by
    have hx := (h.readsBack x.1).decode_eq
    have hy := (h.readsBack x.2).decode_eq
    refine ⟨.array _ ?_, fun p => ?_⟩
    · exact List.forall_mem_cons.2 ⟨(h.readsBack x.1).wellFormed,
        List.forall_mem_singleton.2 (h.readsBack x.2).wellFormed⟩
    · simp only [Codec.pair, Source.ofJson, Source.ofItems, hx p, hy p]
      rfl
  ne_null _ := nofun

/-! ## Dictionaries -/

/-- Members are read back with their keys, one by one. -/
theorem decodeMembers_ofMembers (h : c.IsFaithful) (p : Place) (members : Members α) :
    c.decodeMembers (Source.ofMembers p (members.map fun m => (m.1, c.encode m.2))) =
      .ok members := by
  induction members with
  | nil => rfl
  | cons m rest ih =>
    simp only [List.map_cons, Source.ofMembers, decodeMembers, (h.readsBack m.2).decode_eq p, ih]
    rfl

/-- Values are read back under their keys, which ascend as they did. -/
theorem IsFaithful.dictionary (h : c.IsFaithful) : c.dictionary.IsFaithful where
  readsBack d := by
    refine ⟨.object _ (List.pairwise_map.2 d.ascending) fun m hm => ?_, fun p => ?_⟩
    · obtain ⟨m', _, rfl⟩ := List.mem_map.1 hm
      exact (h.readsBack m'.2).wellFormed
    · simp only [Codec.dictionary, Source.ofJson, decodeMembers_ofMembers h p]
      exact congrArg Except.ok (Dictionary.ext (Members.ofList_eq_self d.ascending))
  ne_null _ := nofun

/-! ## Unions -/

/-- A union that decides by the whole document reads back what its rule reads back. -/
theorem ReadsBack.byValue {encode : α → Json} {read : Json → Decoded α} {a b : α}
    (hw : (encode a).WellFormed) (hr : read (encode a) = .ok b) :
    (Codec.byValue encode read).ReadsBack a b where
  wellFormed := hw
  decode_eq p := by
    simp only [Codec.byValue, Source.value, Source.toJson_ofJson hw p, Except.mapError, bind,
      Except.bind, hr]

/-- An alternative that is written and read by a codec of its own. -/
theorem ReadsBack.alternative {encode : β → Json} {read : Json → Decoded β} {wrap : α → β} {b : β}
    {a a' : α} (h : c.ReadsBack a a') (he : encode b = c.encode a)
    (hr : read (c.encode a) = (c.ofJson (c.encode a)).map wrap) :
    (Codec.byValue encode read).ReadsBack b (wrap a') := by
  refine .byValue (he ▸ h.wellFormed) ?_
  rw [he, hr, h.ofJson_eq]
  rfl

/-! ## Strings or something else -/

section BareString

variable {union : String} {encode : β → Json} {ofBare : String → β} {wrap : α → β}

/-- The readers of a union of bare strings and something else. -/
def bareOr (ofBare : String → β) (c : Codec α) (wrap : α → β) : List (Source → Decoded β) :=
  [fun s => (Codec.string.decode s).map ofBare, fun s => (c.decode s).map wrap]

/-- A string is taken by the reader that is tried first. -/
theorem ReadsBack.bare {s : String} (he : encode (ofBare s) = .string s) :
    (Codec.untagged union encode (bareOr ofBare c wrap)).ReadsBack (ofBare s) (ofBare s) where
  wellFormed := (congrArg Json.WellFormed he).mpr (.string s)
  decode_eq p := by
    simp only [Codec.untagged, he]
    rfl

/-- What is not written as a string is left to the second reader. -/
theorem ReadsBack.notBare {a b : α} (h : c.ReadsBack a b) (hs : ∀ s, c.encode a ≠ .string s)
    (he : encode (wrap a) = c.encode a) :
    (Codec.untagged union encode (bareOr ofBare c wrap)).ReadsBack (wrap a) (wrap b) where
  wellFormed := (congrArg Json.WellFormed he).mpr h.wellFormed
  decode_eq p := by
    -- It is not taken for a bare text, so that the second reading is the one that counts.
    have hstring : ((Codec.string.decode (.ofJson .aside (c.encode a))).map ofBare).toOption =
        Option.none := by
      cases hj : c.encode a with
      | string s => exact absurd hj (hs s)
      | null | bool _ | number _ | array _ | object _ => rfl
    have hfirst : firstOf (bareOr ofBare c wrap) (.ofJson .aside (c.encode a)) =
        Option.some (wrap b) := by
      simp only [firstOf, bareOr, List.findSome?_cons, hstring, h.decode_eq]
      rfl
    simp only [Codec.untagged, he, Source.aside, Source.setAside_ofJson, Except.mapError, bind,
      Except.bind, hfirst]

end BareString

end Codec

/-! ## Enumerations -/

/-- Different values have different names, so that every value is read back from its name. -/
theorem Enumeration.isFaithful {α : Type} {e : Enumeration α}
    (h : ∀ a, e.ofName? (e.name a) = some a) : e.codec.IsFaithful where
  readsBack a := by
    refine ⟨.string _, fun p => ?_⟩
    simp only [codec, Source.ofJson, decode, ofName, h]
  ne_null _ := nofun

/-- A number that is read is looked up. -/
theorem Numbering.decode_eq {α : Type} {e : Numbering α} {s : Source} {n : UInt32} {a : α}
    (hn : e.ofNumber? n.toNat = some a) (hd : Codec.uint32.decode s = .ok n) :
    e.codec.decode s = .ok a := by
  simp only [codec, hd, bind, Except.bind, hn]

/-- Different values have different numbers. -/
theorem Numbering.isFaithful {α : Type} {e : Numbering α}
    (h : ∀ a, e.number a < UInt32.size ∧ e.ofNumber? (e.number a) = some a) :
    e.codec.IsFaithful where
  readsBack a := by
    obtain ⟨hlt, hnumber⟩ := h a
    have hn := UInt32.toNat_ofNat_of_lt' hlt
    -- The number is written like a 32-bit word and read like one.
    have hword : Codec.uint32.encode (UInt32.ofNat (e.number a)) = e.codec.encode a :=
      congrArg (fun n : Nat => Json.int n) hn
    obtain ⟨hw, hd⟩ := Codec.IsFaithful.uint32.readsBack (UInt32.ofNat (e.number a))
    rw [hword] at hw hd
    exact ⟨hw, fun p => decode_eq (by rw [hn, hnumber]) (hd p)⟩
  ne_null _ := nofun

end LanguageServer
