import LanguageServer.Proofs.Protocol.Content
import LanguageServer.Protocol.DiagnosticReport

/-!
# Diagnostic reports are read back

The kind of a report, its body and what else belongs to it lie side by side in one object.  No key
is written twice, so that a report is found whatever stands beside it
(`DiagnosticReport.exists_holds`).

`DiagnosticReport.Holds` is what a document has to be like to be a report.  All the documents in a
report have to be like that (`DocumentDiagnosticReport.documents?`), and of those that are not, the
first one decides the error (`DiagnosticReport.Unknown`).  Both readers of reports therefore accept
the same documents: `DocumentDiagnosticReport.survive_and_told_by_kind`.
-/

namespace LanguageServer

open Field.IsFaithful (required trailing)

/-! ## Bodies -/

/-- Reports that nothing has changed are read back. -/
theorem UnchangedDocumentDiagnosticReport.isFaithful :
    UnchangedDocumentDiagnosticReport.record.IsFaithful where
  nodup := by decide
  build_make _ := rfl
  fields := ⟨.required .string, trivial⟩

/-- The diagnostics of a report can be written and read. -/
def FullDocumentDiagnosticReport.WellFormed (f : FullDocumentDiagnosticReport) : Prop :=
  ∀ d ∈ f.items, d.WellFormed

/-- The fields of a full report are read back as those of an equal one. -/
theorem FullDocumentDiagnosticReport.exists_readsBack {f : FullDocumentDiagnosticReport}
    (h : f.WellFormed) : ∃ g, record.fields.ReadsBack f g ∧ (g == f) = true := by
  obtain ⟨items, hread, heq⟩ :=
    Field.Recovers.required (.list fun d hd => Diagnostic.recovers (h d hd))
  refine ⟨{ f with items }, ⟨trailing .string _, hread, trivial⟩, ?_⟩
  show instBEqFullDocumentDiagnosticReport.beq _ _ = true
  simp only [instBEqFullDocumentDiagnosticReport.beq, beq_self_eq_true, heq, Bool.and_self]

namespace DiagnosticReport

/-! ## What documents are reports -/

/-- A document says one of the two kinds. -/
def NamesKind (j : Json) : Prop :=
  j.member? "kind" = some (.string "full") ∨ j.member? "kind" = some (.string "unchanged")

/-- A document says the kind of a report and has the body of that kind. -/
inductive Holds (j : Json) : DiagnosticReport → Prop where
  | full {f : FullDocumentDiagnosticReport} (kind_eq : j.member? "kind" = some (.string "full"))
      (body_eq : FullDocumentDiagnosticReport.codec.ofJson j = .ok f) : Holds j (.full f)
  | unchanged {u : UnchangedDocumentDiagnosticReport}
      (kind_eq : j.member? "kind" = some (.string "unchanged"))
      (body_eq : UnchangedDocumentDiagnosticReport.codec.ofJson j = .ok u) : Holds j (.unchanged u)

/-- What a document says for a kind, in the words of an error. -/
def kindWords (j : Json) : String :=
  match j.member? "kind" with
  | some (.string name) => name
  | some other => other.render
  | none => ""

/-- Of several documents, the first one that is no report has another kind, in these words. -/
inductive Unknown (words : String) : List Json → Prop where
  | here {j : Json} {rest : List Json} (kind : ¬ NamesKind j) (words_eq : words = kindWords j) :
      Unknown words (j :: rest)
  | later {j : Json} {rest : List Json} {r : DiagnosticReport} (holds : Holds j r)
      (unknown : Unknown words rest) : Unknown words (j :: rest)

/-- A document of the full kind is read as a full report. -/
theorem ofJson_of_full {j : Json} (h : j.member? "kind" = some (.string "full")) :
    ofJson j =
      ((FullDocumentDiagnosticReport.codec.ofJson j).map .full).mapError .ofDecode := by
  simp only [ofJson, h]
  rfl

/-- A document of the unchanged kind is read as a report that nothing has changed. -/
theorem ofJson_of_unchanged {j : Json} (h : j.member? "kind" = some (.string "unchanged")) :
    ofJson j =
      ((UnchangedDocumentDiagnosticReport.codec.ofJson j).map .unchanged).mapError .ofDecode := by
  simp only [ofJson, h]
  rfl

/-- A document of neither kind is refused, and the error names what it found. -/
theorem ofJson_of_not_namesKind {j : Json} (h : ¬ NamesKind j) :
    ofJson j = .error (.unknownReportKind (kindWords j)) := by
  cases hkind : j.member? "kind" with
  | none =>
    simp only [ofJson, kindWords, hkind]
    rfl
  | some k =>
    cases k with
    | string name =>
      -- A name, but none of both.
      have hfull : name ≠ "full" := fun he => h (.inl (he ▸ hkind))
      have hunchanged : name ≠ "unchanged" := fun he => h (.inr (he ▸ hkind))
      simp only [ofJson, kindWords, hkind, DocumentDiagnosticReportKind.ofName, if_neg hfull,
        if_neg hunchanged]
      rfl
    | null | bool _ | number _ | array _ | object _ =>
      simp only [ofJson, kindWords, hkind]
      rfl

section Body

variable {α : Type} {d : Decoded α} {wrap : α → DiagnosticReport}

/-- A body that is read is wrapped, whatever words its errors have. -/
private theorem body_eq_ok_iff {r : DiagnosticReport} :
    (d.map wrap).mapError LspError.ofDecode = .ok r ↔ ∃ a, d = .ok a ∧ wrap a = r := by
  cases d <;> simp [Except.map, Except.mapError]

/-- A body that is not read is no unknown kind. -/
private theorem body_ne_unknown {words : String} :
    (d.map wrap).mapError LspError.ofDecode ≠ .error (.unknownReportKind words) := by
  cases d <;> simp [Except.map, Except.mapError, LspError.ofDecode]

end Body

/-- Exactly the documents of a kind with its body are read. -/
theorem ofJson_eq_ok_iff {j : Json} {r : DiagnosticReport} : ofJson j = .ok r ↔ Holds j r := by
  constructor
  · intro h
    by_cases hkind : NamesKind j
    · rcases hkind with hfull | hunchanged
      · rw [ofJson_of_full hfull] at h
        obtain ⟨f, hf, rfl⟩ := body_eq_ok_iff.1 h
        exact .full hfull hf
      · rw [ofJson_of_unchanged hunchanged] at h
        obtain ⟨u, hu, rfl⟩ := body_eq_ok_iff.1 h
        exact .unchanged hunchanged hu
    · rw [ofJson_of_not_namesKind hkind] at h
      cases h
  · -- The kind chooses the body, so that a document of one kind is never read as the other.
    rintro (⟨hfull, hf⟩ | ⟨hunchanged, hu⟩)
    · rw [ofJson_of_full hfull]
      exact body_eq_ok_iff.2 ⟨_, hf, rfl⟩
    · rw [ofJson_of_unchanged hunchanged]
      exact body_eq_ok_iff.2 ⟨_, hu, rfl⟩

/-- The error of an unknown kind is kept for documents that say another kind: a body that does not
decode has an error of its own. -/
theorem ofJson_eq_unknown_iff {j : Json} {words : String} :
    ofJson j = .error (.unknownReportKind words) ↔ ¬ NamesKind j ∧ words = kindWords j := by
  by_cases hkind : NamesKind j
  · refine iff_of_false (fun h => ?_) fun h => h.1 hkind
    rcases hkind with hfull | hunchanged
    · exact body_ne_unknown ((ofJson_of_full hfull).symm.trans h)
    · exact body_ne_unknown ((ofJson_of_unchanged hunchanged).symm.trans h)
  · rw [ofJson_of_not_namesKind hkind]
    simp [hkind, eq_comm]

/-! ## Several documents -/

/-- One document that is no report fails all. -/
theorem exists_ofMembers_iff {members : Members Json} :
    (∃ rs, ofMembers members = .ok rs) ↔ ∀ j ∈ members.map (·.2), ∃ r, Holds j r := by
  induction members with
  | nil => simp [ofMembers]
  | cons m rest ih =>
    obtain ⟨k, j⟩ := m
    rw [List.map_cons, List.forall_mem_cons, ← ih]
    simp only [← ofJson_eq_ok_iff, ofMembers]
    cases ofJson j with
    | error e => simp [bind, Except.bind]
    | ok r => cases ofMembers rest <;> simp [bind, Except.bind]

/-- An unknown kind is that of the first document, or the first one holds a report and it is behind.
-/
theorem unknown_cons_iff {words : String} {j : Json} {rest : List Json} :
    Unknown words (j :: rest) ↔
      (¬ NamesKind j ∧ words = kindWords j) ∨ (∃ r, Holds j r) ∧ Unknown words rest := by
  constructor
  · rintro (⟨hkind, hwords⟩ | ⟨holds, unknown⟩)
    · exact .inl ⟨hkind, hwords⟩
    · exact .inr ⟨⟨_, holds⟩, unknown⟩
  · rintro (⟨hkind, hwords⟩ | ⟨⟨r, holds⟩, unknown⟩)
    · exact .here hkind hwords
    · exact .later holds unknown

/-- An unknown kind is in the front, or all in front hold reports and it is behind. -/
theorem unknown_append_iff {words : String} {front back : List Json} :
    Unknown words (front ++ back) ↔
      Unknown words front ∨ (∀ j ∈ front, ∃ r, Holds j r) ∧ Unknown words back := by
  induction front with
  | nil => simpa using fun h : Unknown words [] => nomatch h
  | cons j rest ih =>
    rw [List.cons_append, unknown_cons_iff, unknown_cons_iff, ih, List.forall_mem_cons]
    tauto

/-- The first document that is no report decides the error. -/
theorem ofMembers_eq_unknown_iff {members : Members Json} {words : String} :
    ofMembers members = .error (.unknownReportKind words) ↔
      Unknown words (members.map (·.2)) := by
  induction members with
  | nil => exact iff_of_false nofun nofun
  | cons m rest ih =>
    obtain ⟨k, j⟩ := m
    rw [List.map_cons, unknown_cons_iff, ← ofJson_eq_unknown_iff, ← ih]
    simp only [← ofJson_eq_ok_iff, ofMembers]
    cases ofJson j with
    | error e => simp [bind, Except.bind]
    | ok r => cases ofMembers rest <;> simp [bind, Except.bind]

end DiagnosticReport

namespace DocumentDiagnosticReport

/-- The documents that have to be reports, in the order in which they are read: those of related
documents and then the report itself. -/
def documents? (v : Json) : Option (List Json) :=
  match v.member? "relatedDocuments" with
  | none | some .null => some [v]
  | some (.object members) => some (members.map (·.2) ++ [v])
  | some _ => none

/-- What is read of a document: the report alone, or related ones before it; or related documents
are no object. -/
theorem ofJson_cases (v : Json) :
    (documents? v = some [v] ∧
      ofJson v = (DiagnosticReport.ofJson v).map fun report => ⟨report, none⟩) ∨
    (∃ members, documents? v = some (members.map (·.2) ++ [v]) ∧
      ofJson v = (DiagnosticReport.ofMembers members).bind fun reports =>
        (DiagnosticReport.ofJson v).map fun report => ⟨report, some (.ofList reports)⟩) ∨
    (documents? v = none ∧ ∃ text, ofJson v = .error (.other text)) := by
  -- There are no related documents, or there are some, or something else stands in their place.
  cases hrelated : v.member? "relatedDocuments" with
  | none =>
    refine .inl ⟨by simp only [documents?, hrelated], ?_⟩
    simp only [ofJson, hrelated]
    rfl
  | some related =>
    cases related with
    | null =>
      refine .inl ⟨by simp only [documents?, hrelated], ?_⟩
      simp only [ofJson, hrelated]
      rfl
    | object members =>
      refine .inr (.inl ⟨members, by simp only [documents?, hrelated], ?_⟩)
      simp only [ofJson, hrelated]
      cases DiagnosticReport.ofMembers members <;> rfl
    | bool _ | number _ | string _ | array _ =>
      refine .inr (.inr ?_)
      simp [documents?, ofJson, hrelated, bind, Except.bind]

/-- A report is read if and only if all its documents are reports. -/
theorem exists_ofJson_iff {v : Json} :
    (∃ r, ofJson v = .ok r) ↔
      ∃ js, documents? v = some js ∧ ∀ j ∈ js, ∃ r, DiagnosticReport.Holds j r := by
  -- A report of one document, one with related documents, or no object at all.
  rcases ofJson_cases v with ⟨hjs, hread⟩ | ⟨members, hjs, hread⟩ | ⟨hjs, text, hread⟩
  · simp only [hread, hjs, Option.some.injEq, exists_eq_left', List.forall_mem_singleton,
      ← DiagnosticReport.ofJson_eq_ok_iff]
    cases DiagnosticReport.ofJson v <;> simp [Except.map]
  · simp only [hread, hjs, Option.some.injEq, exists_eq_left', List.forall_mem_append,
      List.forall_mem_singleton]
    rw [← DiagnosticReport.exists_ofMembers_iff]
    simp only [← DiagnosticReport.ofJson_eq_ok_iff]
    cases DiagnosticReport.ofMembers members <;> cases DiagnosticReport.ofJson v <;>
      simp [Except.bind, Except.map]
  · simp [hread, hjs]

/-- The error is that of an unknown kind if and only if the first document that is no report says
another kind. -/
theorem ofJson_eq_unknown_iff {v : Json} {words : String} :
    ofJson v = .error (.unknownReportKind words) ↔
      ∃ js, documents? v = some js ∧ DiagnosticReport.Unknown words js := by
  -- Related documents come first, so that the document itself counts last.
  have hself : DiagnosticReport.Unknown words [v] ↔
      DiagnosticReport.ofJson v = .error (.unknownReportKind words) := by
    rw [DiagnosticReport.unknown_cons_iff, DiagnosticReport.ofJson_eq_unknown_iff]
    exact or_iff_left fun h => nomatch h.2
  rcases ofJson_cases v with ⟨hjs, hread⟩ | ⟨members, hjs, hread⟩ | ⟨hjs, text, hread⟩
  · simp only [hread, hjs, Option.some.injEq, exists_eq_left', hself]
    cases DiagnosticReport.ofJson v <;> simp [Except.map]
  · simp only [hread, hjs, Option.some.injEq, exists_eq_left', DiagnosticReport.unknown_append_iff,
      ← DiagnosticReport.exists_ofMembers_iff, ← DiagnosticReport.ofMembers_eq_unknown_iff, hself]
    cases DiagnosticReport.ofMembers members <;> cases DiagnosticReport.ofJson v <;>
      simp [Except.bind, Except.map]
  · simp [hread, hjs]

end DocumentDiagnosticReport

/-! ## Reports beside other members -/

namespace DiagnosticReport

/-- The diagnostics of a report can be written and read. -/
def WellFormed : DiagnosticReport → Prop
  | .full f => f.WellFormed
  | .unchanged _ => True

/-- The keys of reports, whatever their kind. -/
def keys : List String := ["kind", "resultId", "items"]

/-- Members that can stand beside a report: no key stands twice, and none is one of the report's. -/
structure IsExtra (extra : Members Json) : Prop where
  nodup : extra.keys.Nodup
  not_mem_keys : ∀ k ∈ extra.keys, k ∉ keys

/-- The members of `r` are its kind and those of a record, of which `r'` is read. -/
structure IsBody {β : Type} (b : Record β) (x y : β) (r r' : DiagnosticReport) : Prop where
  members_eq : r.members = ("kind", .string r.kind.name) :: b.fields.encode x
  readsBack : b.fields.ReadsBack x y
  build_make : b.fields.build y b.make = y
  nodup : ("kind" :: (b.fields.keys ++ b.fields.partKeys)).Nodup
  subset_keys : "kind" :: (b.fields.keys ++ b.fields.partKeys) ⊆ keys
  holds : ∀ j : Json, j.member? "kind" = some (.string r.kind.name) → b.codec.ofJson j = .ok y →
    Holds j r'
  beq : (r' == r) = true

/-- A report of either kind comes back as an equal one. -/
theorem exists_isBody {r : DiagnosticReport} (h : r.WellFormed) :
    ∃ (β : Type) (b : Record β) (x y : β) (r' : DiagnosticReport), IsBody b x y r r' := by
  cases r with
  | full f =>
    obtain ⟨g, hg, heq⟩ := FullDocumentDiagnosticReport.exists_readsBack h
    exact ⟨_, _, f, g, .full g, rfl, hg, rfl, by decide, by decide, fun _ => .full, heq⟩
  | unchanged u =>
    have hu := UnchangedDocumentDiagnosticReport.isFaithful.fields.readsBack u
    exact ⟨_, _, u, u, .unchanged u, rfl, hu, rfl, by decide, by decide, fun _ => .unchanged,
      beq_self_eq_true u⟩

section Beside

variable {β : Type} {b : Record β} {x y : β} {r r' : DiagnosticReport} {extra : Members Json}

/-- The members of a report are under its keys. -/
theorem IsBody.mem_keys (h : IsBody b x y r r') {k : String} (hk : k ∈ Members.keys r.members) :
    k ∈ keys := by
  rw [h.members_eq] at hk
  rcases List.mem_cons.1 hk with rfl | hk
  · exact List.mem_cons_self
  · exact h.subset_keys (List.mem_cons_of_mem _ (Fields.mem_keys_encode h.readsBack hk))

/-- What stands beside a report keeps its keys apart. -/
theorem IsBody.nodup_append (h : IsBody b x y r r') (he : IsExtra extra) :
    (Members.keys (r.members ++ extra)).Nodup := by
  have ⟨hkind, hbody⟩ := List.nodup_cons.1 h.nodup
  have hmembers : (Members.keys r.members).Nodup := by
    rw [h.members_eq]
    exact List.nodup_cons.2 ⟨fun hk => hkind (Fields.mem_keys_encode h.readsBack hk),
      Fields.nodup_encode h.readsBack hbody⟩
  rw [Members.keys, List.map_append]
  exact List.nodup_append.2 ⟨hmembers, he.nodup, fun k hk l hl hkl =>
    he.not_mem_keys l hl (hkl ▸ h.mem_keys hk)⟩

/-- What stands beside a report does not keep it from being read. -/
theorem IsBody.holds_append (h : IsBody b x y r r') (he : IsExtra extra) :
    Holds (.ofPairs (r.members ++ extra)) r' := by
  have hp := h.nodup_append he
  have ⟨hkind, hbody⟩ := List.nodup_cons.1 h.nodup
  refine h.holds _ ?_ ?_
  · refine (Members.get?_ofList hp "kind").trans ?_
    rw [h.members_eq]
    rfl
  · -- The tag stands before the body and the others behind it, all under other keys.
    rw [h.members_eq] at hp ⊢
    refine Record.decode_between hbody h.build_make h.readsBack hp hkind
      (fun k hk hmem => ?_) .value
    exact he.not_mem_keys k hk (h.subset_keys (List.mem_cons_of_mem _ hmem))

/-- A report is found beside members of other keys. -/
theorem exists_holds (hr : r.WellFormed) (he : IsExtra extra) :
    ∃ r', Holds (.ofPairs (r.members ++ extra)) r' ∧ (r' == r) = true := by
  obtain ⟨β, b, x, y, r', h⟩ := exists_isBody hr
  exact ⟨r', h.holds_append he, h.beq⟩

/-- What stands beside a report is found under its keys. -/
theorem member?_append (hr : r.WellFormed) (he : IsExtra extra) {k : String} (hk : k ∉ keys) :
    (Json.ofPairs (r.members ++ extra)).member? k = extra.get? k := by
  obtain ⟨β, b, x, y, r', h⟩ := exists_isBody hr
  have hnone : Members.get? k r.members = none :=
    Members.get?_eq_none_iff.2 fun hmem => hk (h.mem_keys hmem)
  refine (Members.get?_ofList (h.nodup_append he) k).trans ?_
  rw [Members.get?_append, hnone, Option.none_or]

/-- A report and what stands beside it can be written. -/
theorem wellFormed_append (hr : r.WellFormed) (hw : ∀ m ∈ extra, m.2.WellFormed) :
    (Json.ofPairs (r.members ++ extra)).WellFormed := by
  obtain ⟨β, b, x, y, r', h⟩ := exists_isBody hr
  refine .object _ (Members.ascending_ofList _) fun m hm => ?_
  rw [h.members_eq] at hm
  rcases List.mem_append.1 (Members.mem_of_mem_ofList hm) with hm | hm
  · rcases List.mem_cons.1 hm with rfl | hm
    · exact .string _
    · exact Fields.wellFormed_encode h.readsBack m hm
  · exact hw m hm

end Beside

/-! ## Reports under keys -/

/-- What is written of a report holds an equal one. -/
theorem exists_holds_toJson {r : DiagnosticReport} (h : r.WellFormed) :
    ∃ r', Holds r.toJson r' ∧ (r' == r) = true := by
  have hholds : ∃ r', Holds (.ofPairs (r.members ++ [])) r' ∧ (r' == r) = true :=
    exists_holds h ⟨.nil, nofun⟩
  rwa [List.append_nil] at hholds

/-- A report can be written. -/
theorem wellFormed_toJson {r : DiagnosticReport} (h : r.WellFormed) : r.toJson.WellFormed := by
  have hw : (Json.ofPairs (r.members ++ [])).WellFormed := wellFormed_append h nofun
  rwa [List.append_nil] at hw

/-- Reports under keys come back under the same keys. -/
theorem exists_ofMembers {members : Members DiagnosticReport} (h : ∀ m ∈ members, m.2.WellFormed) :
    ∃ rs, ofMembers (members.map fun m => (m.1, m.2.toJson)) = .ok rs ∧ (rs == members) = true ∧
      Members.keys rs = Members.keys members := by
  induction members with
  | nil => exact ⟨[], rfl, rfl, rfl⟩
  | cons m rest ih =>
    obtain ⟨k, r⟩ := m
    obtain ⟨hr, hrest⟩ := List.forall_mem_cons.1 h
    obtain ⟨r', hholds, heq⟩ := exists_holds_toJson hr
    obtain ⟨rs, hread, hrs, hkeys⟩ := ih hrest
    refine ⟨(k, r') :: rs, ?_, ?_, congrArg (k :: ·) hkeys⟩
    · simp only [List.map_cons, ofMembers, ofJson_eq_ok_iff.2 hholds, hread]
      rfl
    · -- The key stays, and the report comes back as an equal one.
      have hpair : ((k, r') == (k, r)) = true := by
        show (k == k && r' == r) = true
        rw [beq_self_eq_true, heq, Bool.and_self]
      rw [List.cons_beq_cons, hpair, hrs, Bool.and_self]

end DiagnosticReport

/-! ## Reports of documents -/

namespace DocumentDiagnosticReport

/-- The diagnostics of a report and of those related to it can be written and read. -/
structure WellFormed (r : DocumentDiagnosticReport) : Prop where
  report : r.report.WellFormed
  related : ∀ d ∈ r.relatedDocuments, ∀ m ∈ d.members, m.2.WellFormed

/-- What is written beside the report itself. -/
def beside (r : DocumentDiagnosticReport) : Members Json :=
  match r.relatedDocuments with
  | some d => [("relatedDocuments", .object (d.members.map fun m => (m.1, m.2.toJson)))]
  | none => []

/-- What stands beside a report has keys of its own. -/
theorem isExtra_beside (r : DocumentDiagnosticReport) : DiagnosticReport.IsExtra r.beside := by
  obtain ⟨report, _ | d⟩ := r
  · exact ⟨.nil, nofun⟩
  · refine ⟨List.pairwise_singleton _ _, fun k hk => ?_⟩
    obtain rfl : k = "relatedDocuments" := List.mem_singleton.1 hk
    decide

/-- A report of a document is written with what stands beside it. -/
theorem toJson_eq (r : DocumentDiagnosticReport) :
    r.toJson = .ofPairs (r.report.members ++ r.beside) := by
  obtain ⟨report, _ | d⟩ := r <;> rfl

/-- A report comes back with those related to it. -/
theorem exists_ofJson {r : DocumentDiagnosticReport} (h : r.WellFormed) :
    ∃ r', ofJson r.toJson = .ok r' ∧ (r' == r) = true := by
  obtain ⟨report', hholds, hreport⟩ :=
    DiagnosticReport.exists_holds h.report r.isExtra_beside
  have hrelated : r.toJson.member? "relatedDocuments" = r.beside.get? "relatedDocuments" := by
    rw [toJson_eq]
    exact DiagnosticReport.member?_append h.report r.isExtra_beside (by decide)
  rw [← toJson_eq] at hholds
  have hread := DiagnosticReport.ofJson_eq_ok_iff.2 hholds
  obtain ⟨report, _ | d⟩ := r
  · refine ⟨⟨report', none⟩, ?_, ?_⟩
    · simp only [ofJson, hrelated, beside, Members.get?, hread]
      rfl
    · show instBEqDocumentDiagnosticReport.beq _ _ = true
      simp [instBEqDocumentDiagnosticReport.beq, hreport]
  · obtain ⟨rs, hmembers, hrs, hkeys⟩ := DiagnosticReport.exists_ofMembers (h.related d rfl)
    -- The keys are those of a dictionary, so that the reports stay in their places.
    have hascending : Members.Ascending rs := by
      rw [Members.ascending_iff, hkeys]
      exact Members.ascending_iff.1 d.ascending
    refine ⟨⟨report', some ⟨rs, hascending⟩⟩, ?_, ?_⟩
    · simp only [ofJson, hrelated, beside, Members.get?, if_true, hmembers, hread]
      show Except.ok (DocumentDiagnosticReport.mk report' (some (Dictionary.ofList rs))) = _
      rw [show Dictionary.ofList rs = ⟨rs, hascending⟩ from
        Dictionary.ext (Members.ofList_eq_self hascending)]
    · show instBEqDocumentDiagnosticReport.beq _ _ = true
      have hd : (some (⟨rs, hascending⟩ : Dictionary DiagnosticReport) == some d) = true := hrs
      simp only [instBEqDocumentDiagnosticReport.beq, hreport, hd, Bool.and_self]

/-- A report of a document is written as a document in its own right. -/
theorem wellFormed_toJson {r : DocumentDiagnosticReport} (h : r.WellFormed) :
    r.toJson.WellFormed := by
  rw [toJson_eq]
  refine DiagnosticReport.wellFormed_append h.report ?_
  obtain ⟨report, _ | d⟩ := r
  · nofun
  · refine List.forall_mem_singleton.2 (.object _ (List.pairwise_map.2 d.ascending) ?_)
    exact List.forall_mem_map.2 fun m hm =>
      DiagnosticReport.wellFormed_toJson (h.related d rfl m hm)

end DocumentDiagnosticReport

/-! ## Codecs of reports -/

namespace Codec

variable {α : Type} {encode : α → Json} {read : Json → Outcome α}

/-- The codec reads what the reader reads, and has the words of its errors. -/
theorem ofJson_ofReports {v : Json} (h : v.WellFormed) :
    (Codec.ofReports encode read).ofJson v =
      (read v).mapError fun e => .unplaced (.ofWords e.message) := by
  simp only [Codec.ofJson, Codec.ofReports, Codec.byValue, Json.Source.value,
    Json.Source.toJson_ofJson h, Except.mapError, bind, Except.bind]
  cases read v <;> rfl

/-- What reads and writes reports reads back what it writes. -/
theorem ReadsBack.ofReports {a b : α} (hw : (encode a).WellFormed) (hr : read (encode a) = .ok b) :
    (Codec.ofReports encode read).ReadsBack a b :=
  .byValue hw (by rw [hr]; rfl)

end Codec

/-! ## Reports of workspaces -/

namespace WorkspaceDocumentDiagnosticReport

/-- What is written beside the report itself. -/
def beside (r : WorkspaceDocumentDiagnosticReport) : Members Json :=
  [("uri", .string r.uri), ("version", Codec.int32.option.encode r.version)]

/-- What stands beside a report of the workspace does not touch the report. -/
theorem isExtra_beside (r : WorkspaceDocumentDiagnosticReport) :
    DiagnosticReport.IsExtra r.beside where
  nodup := by
    show ["uri", "version"].Nodup
    decide
  not_mem_keys := by
    show ∀ k ∈ ["uri", "version"], k ∉ DiagnosticReport.keys
    decide

/-- A report comes back with its document and its version. -/
theorem recovers {r : WorkspaceDocumentDiagnosticReport} (h : r.report.WellFormed) :
    codec.Recovers r := by
  obtain ⟨report', hholds, hreport⟩ :=
    DiagnosticReport.exists_holds h r.isExtra_beside
  have hmember {k : String} (hk : k ∉ DiagnosticReport.keys) :
      r.toJson.member? k = r.beside.get? k :=
    DiagnosticReport.member?_append h r.isExtra_beside hk
  have huri : r.toJson.member? "uri" = some (.string r.uri) := hmember (by decide)
  have hversion : r.toJson.member? "version" = some (Codec.int32.option.encode r.version) :=
    hmember (by decide)
  have hread : DiagnosticReport.ofJson r.toJson = .ok report' :=
    DiagnosticReport.ofJson_eq_ok_iff.2 hholds
  refine ⟨{ r with report := report' }, .ofReports ?_ ?_, ?_⟩
  · refine DiagnosticReport.wellFormed_append h
      (List.forall_mem_cons.2 ⟨.string _, List.forall_mem_singleton.2 ?_⟩)
    cases r.version with
    | none => exact .null
    | some n => exact (Codec.IsFaithful.int32.readsBack n).wellFormed
  · -- A version is always written, be it null, and null is read as none.
    cases hv : r.version with
    | none =>
      simp only [ofJson, huri, hversion, hv, Codec.option, hread]
      rfl
    | some n =>
      simp only [ofJson, huri, hversion, hv, Codec.option]
      show Except.bind (((Codec.int32.ofJson (Codec.int32.encode n)).map some).mapError
        LspError.ofDecode) _ = _
      rw [(Codec.IsFaithful.int32.readsBack n).ofJson_eq]
      simp only [Except.map, Except.mapError, Except.bind, hread]
      rfl
  · show instBEqWorkspaceDocumentDiagnosticReport.beq _ _ = true
    simp only [instBEqWorkspaceDocumentDiagnosticReport.beq, hreport, beq_self_eq_true,
      Bool.and_self]

end WorkspaceDocumentDiagnosticReport

/-- The diagnostics of all reports can be written and read. -/
def WorkspaceDiagnosticReport.WellFormed (r : WorkspaceDiagnosticReport) : Prop :=
  ∀ d ∈ r.items, d.report.WellFormed

/-- Reports of a workspace are recovered, each one in its place. -/
theorem WorkspaceDiagnosticReport.recovers {r : WorkspaceDiagnosticReport} (h : r.WellFormed) :
    codec.Recovers r := by
  obtain ⟨items, hread, heq⟩ := Field.Recovers.required
    (.list fun d hd => WorkspaceDocumentDiagnosticReport.recovers (h d hd))
  exact ⟨⟨items⟩, Record.readsBack (by decide) rfl ⟨hread, trivial⟩, heq⟩

/-! ## Reports survive and are told by their kinds -/

/-- Reports of documents and of workspaces come back as equal ones, a document in both ways of
reading.  A document is read as a report if and only if its kind and those of related documents are
known and each body is one of its kind; the codec reads the same reports, and has the words of the
same errors.  The error of an unknown kind is that of the first document that is no report, and
arises exactly if this one says another kind. -/
theorem DocumentDiagnosticReport.survive_and_told_by_kind :
    (∀ r : DocumentDiagnosticReport, r.WellFormed →
      ∃ r', ofJson r.toJson = .ok r' ∧ codec.ofJson (codec.encode r) = .ok r' ∧ (r' == r) = true) ∧
    (∀ r : WorkspaceDiagnosticReport, r.WellFormed →
      ∃ r', WorkspaceDiagnosticReport.codec.ofJson (WorkspaceDiagnosticReport.codec.encode r) =
        .ok r' ∧ (r' == r) = true) ∧
    (∀ v : Json, (∃ r, ofJson v = .ok r) ↔
      ∃ js, documents? v = some js ∧ ∀ j ∈ js, ∃ r, DiagnosticReport.Holds j r) ∧
    (∀ v : Json, v.WellFormed →
      codec.ofJson v = (ofJson v).mapError fun e => .unplaced (.ofWords e.message)) ∧
    ∀ (v : Json) (words : String), ofJson v = .error (.unknownReportKind words) ↔
      ∃ js, documents? v = some js ∧ DiagnosticReport.Unknown words js := by
  refine ⟨fun r h => ?_, fun r h => (WorkspaceDiagnosticReport.recovers h).exists_ofJson,
    fun v => exists_ofJson_iff, fun v h => Codec.ofJson_ofReports h,
    fun v words => ofJson_eq_unknown_iff⟩
  obtain ⟨r', hread, heq⟩ := exists_ofJson h
  exact ⟨r', hread, (Codec.ReadsBack.ofReports (wellFormed_toJson h) hread).ofJson_eq, heq⟩

namespace DocumentDiagnosticReport

/-- A diagnostic that carries an unsigned word. -/
def exampleDiagnostic : Diagnostic :=
  { Diagnostic.plain (.ofCounts 0 0 0 1) "m" with data := some (.object [("n", .uinteger 5)]) }

/-- The data of the diagnostic can be written. -/
theorem wellFormed_exampleDiagnostic : exampleDiagnostic.WellFormed := by
  intro v hv
  cases hv
  exact ⟨.single (.uinteger 5), nofun⟩

/-- A full report with an unchanged one beside it. -/
def exampleReport : DocumentDiagnosticReport where
  report := .full ⟨some "1", [exampleDiagnostic]⟩
  relatedDocuments := some (.ofList [("file:///b", .unchanged ⟨"2"⟩)])

/-- Both reports can be written. -/
theorem wellFormed_exampleReport : exampleReport.WellFormed where
  report := List.forall_mem_singleton.2 wellFormed_exampleDiagnostic
  related d hd := by
    cases hd
    exact List.forall_mem_singleton.2 trivial

/-- A full report beside which stands one of another kind. -/
def examplePartial : Json :=
  .object [("items", .array []), ("kind", .string "full"),
    ("relatedDocuments", .object [("file:///b", .object [("kind", .string "partial")])])]

/-- The document can be written: its keys ascend. -/
theorem wellFormed_examplePartial : examplePartial.WellFormed := by
  refine .object _ (by rw [Members.Ascending]; decide) ?_
  simp only [List.forall_mem_cons, List.not_mem_nil, IsEmpty.forall_iff, implies_true, and_true]
  exact ⟨.array _ (List.forall_mem_nil _), .string _, .single (.single (.string _))⟩

/-- The word comes back as a signed one, which is equal; the kind of one related document fails the
whole. -/
theorem told_by_kind_examplePartial :
    (∃ r, ofJson exampleReport.toJson = .ok r ∧
      codec.ofJson (codec.encode exampleReport) = .ok r ∧ (r == exampleReport) = true) ∧
    (∃ r, WorkspaceDiagnosticReport.codec.ofJson (WorkspaceDiagnosticReport.codec.encode
        ⟨[⟨"file:///a", none, exampleReport.report⟩]⟩) = .ok r ∧
      (r == ⟨[⟨"file:///a", none, exampleReport.report⟩]⟩) = true) ∧
    (¬ ∃ r, ofJson examplePartial = .ok r) ∧
    codec.ofJson examplePartial =
      .error (.unplaced (.ofWords "invalid diagnostic report kind: partial")) := by
  obtain ⟨hdocument, hworkspace, haccepts, hcodec, hunknown⟩ := survive_and_told_by_kind
  have hkind : ¬ DiagnosticReport.NamesKind (.object [("kind", .string "partial")]) := by
    rintro (h | h) <;> simp [Json.member?, Members.get?] at h
  refine ⟨hdocument _ wellFormed_exampleReport,
    hworkspace _ (List.forall_mem_singleton.2 wellFormed_exampleReport.report), ?_, ?_⟩
  · rw [haccepts]
    rintro ⟨js, hjs, hall⟩
    cases hjs
    obtain ⟨r, hr⟩ := hall _ List.mem_cons_self
    cases hr with
    | full kind _ => exact hkind (.inl kind)
    | unchanged kind _ => exact hkind (.inr kind)
  · rw [hcodec _ wellFormed_examplePartial, (hunknown _ "partial").2 ⟨_, rfl, .here hkind rfl⟩]
    rfl

end DocumentDiagnosticReport

end LanguageServer
