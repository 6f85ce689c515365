import LanguageServer.Codec.Union
import LanguageServer.Proofs.Codec.Record

/-!
# Tagged unions are read back

The tag of an object chooses the reader, and what the reader sees are the other members
(`Codec.splitTag_ofMembers`). An alternative that is a record is therefore read back as long as none
of its keys is the tag: `Codec.readsBack_tagged`.
-/

namespace LanguageServer.Codec

open Json (Source Place)

variable {α β : Type} {tag : String} {readers : List (String × (Source → Decoded α))}

/-- Members without the tag are all set aside. -/
theorem splitTag_of_not_mem {members : Members Json} (h : tag ∉ members.keys) (p : Place)
    (chosen : Option (Source → Decoded α)) :
    splitTag tag readers (Source.ofMembers p members) chosen =
      .ok (chosen, Source.ofMembers .aside members) := by
  induction members with
  | nil => rfl
  | cons m rest ih =>
    obtain ⟨k, j⟩ := m
    obtain ⟨hk, hrest⟩ := not_or.1 (mt List.mem_cons.2 h)
    -- A member of another key is set aside and nothing is chosen by it.
    simp only [Source.ofMembers, splitTag, if_neg (Ne.symm hk), Source.aside,
      Source.setAside_ofJson, Except.mapError, ih hrest]
    rfl

/-- The tag chooses its reader, and the other members are set aside. -/
theorem splitTag_ofMembers {members : Members Json} (hn : members.keys.Nodup) {name : String}
    (ht : members.get? tag = some (.string name)) {reader : String × (Source → Decoded α)}
    (hr : readers.find? (fun r => r.1 = name) = some reader) (p : Place) :
    splitTag tag readers (Source.ofMembers p members) none =
      .ok (some reader.2, Source.ofMembers .aside (Members.erase tag members)) := by
  induction members with
  | nil => cases ht
  | cons m rest ih =>
    obtain ⟨k, j⟩ := m
    obtain ⟨hk, hrest⟩ := List.nodup_cons.1 hn
    rw [Members.get?] at ht
    by_cases he : k = tag
    · subst he
      obtain rfl : j = .string name := by simpa using ht
      -- The tag stands once, so nothing behind it is taken away.
      have herase : Members.erase k ((k, .string name) :: rest) = rest := by
        rw [Members.erase, List.filter_cons_of_neg (by simp)]
        exact List.filter_eq_self.2 fun m hm =>
          decide_eq_true fun he => hk (List.mem_map.2 ⟨m, hm, he⟩)
      rw [herase]
      simp only [Source.ofMembers, splitTag, if_pos, Source.ofJson, readerOf, hr]
      exact splitTag_of_not_mem hk p (some reader.2)
    · rw [if_neg he] at ht
      have herase : Members.erase tag ((k, j) :: rest) = (k, j) :: Members.erase tag rest :=
        List.filter_cons_of_pos (decide_eq_true he)
      simp only [herase, Source.ofMembers, splitTag, if_neg he, Source.aside,
        Source.setAside_ofJson, Except.mapError, ih hrest ht]
      rfl

/-! ## Alternatives that are records -/

variable {union name : String} {encode : α → String × List (String × Json)}
  {r : Record β} {x : β} {a : α}

/-- The keys of an alternative beside the tag. -/
theorem nodup_keys_tagged (h : r.IsFaithful) (htag : tag ∉ r.fields.keys ++ r.fields.partKeys)
    (j : Json) : (Members.keys ((tag, j) :: r.fields.encode x)).Nodup :=
  List.nodup_cons.2 ⟨fun hk => htag (Fields.mem_keys_encode (h.fields.readsBack x) hk),
    Fields.nodup_encode (h.fields.readsBack x) h.nodup⟩

/-- The document of an alternative has the name of the alternative under the tag. -/
theorem member?_tagged (h : r.IsFaithful) (htag : tag ∉ r.fields.keys ++ r.fields.partKeys)
    (he : encode a = (name, r.fields.encode x)) :
    ((Codec.tagged union tag encode readers).encode a).member? tag = some (.string name) := by
  simp only [Codec.tagged, he]
  exact (Members.get?_ofList (nodup_keys_tagged h htag _) tag).trans (if_pos rfl)

/-- An alternative that is a record, none of whose keys is the tag, is read back. -/
theorem readsBack_tagged (wrap : β → α) (x : β) (h : r.IsFaithful)
    (htag : tag ∉ r.fields.keys ++ r.fields.partKeys)
    (he : encode (wrap x) = (name, r.fields.encode x))
    (hr : readers.find? (fun r => r.1 = name) =
      some (name, fun s => (r.codec.decode s).map wrap)) :
    (Codec.tagged union tag encode readers).ReadsBack (wrap x) (wrap x) := by
  have hx := h.fields.readsBack x
  have hn := nodup_keys_tagged (x := x) h htag (.string name)
  have hascending := Members.ascending_ofList ((tag, .string name) :: r.fields.encode x)
  refine ⟨?_, fun p => ?_⟩
  · simp only [Codec.tagged, he]
    refine .object _ hascending fun m hm => ?_
    rcases List.mem_cons.1 (Members.mem_of_mem_ofList hm) with rfl | hm
    · exact .string name
    · exact Fields.wellFormed_encode hx m hm
  · have hsplit := splitTag_ofMembers hascending.nodup_keys
      ((Members.get?_ofList hn tag).trans (if_pos rfl)) hr p
    -- Without the tag, what is left are the members of the record.
    have hdecode := Record.decodeEntries_of_get? h.nodup (h.build_make x) hx
      (hascending.filter fun m => m.1 ≠ tag) (fun k hk => by
        have hne : tag ≠ k := fun he => htag (he ▸ hk)
        exact (Members.get?_erase tag _ k).trans <| (if_neg hne).trans <|
          (Members.get?_ofList hn k).trans (if_neg hne)) .aside
    have hrecord : r.codec.decode (.object .aside (Source.ofMembers .aside (Members.erase tag
        (Members.ofList ((tag, .string name) :: r.fields.encode x)))) none) = .ok x := by
      show (r.decodeEntries _ none).mapError _ = _
      rw [Members.erase, hdecode]
      rfl
    simp only [Codec.tagged, he, Json.ofPairs, Source.ofJson, decodeTagged, hsplit, unlessBroken,
      bind, Except.bind, hrecord]
    rfl

end LanguageServer.Codec
