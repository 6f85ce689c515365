import LanguageServer.Advertised
import LanguageServer.Proofs.Codec.Growth
import LanguageServer.Proofs.Protocol.ServerCapabilities

/-!
# More handlers, more capabilities

A handler more takes nothing back of what is announced: `ServerCapabilities.grows_ofMethods`
compares the documents of what two lists of methods announce, path by path.  What is announced
depends on the set of the methods alone.

Every feature is read off the question which methods are there, and grows with the answers.
-/

namespace LanguageServer

open Json (Keeps)

namespace ServerCapabilities

/-! ## Parts of features -/

/-- A field that is there under a condition grows with the condition and with its value. -/
theorem grows_given {α : Type} {c : Codec α} {b b' : Bool} {a a' : α} (hb : b = true → b' = true)
    (h : (c.encode a).Grows (c.encode a')) :
    (Field.optional c).Grows (given b a) (given b' a') := by
  cases b with
  -- Where only a truth value stood, options may come to stand.
  | false => exact .none c _
  | true =>
    rw [hb rfl]
    exact .some h

/-- A flag that is set under a condition grows with the condition. -/
theorem grows_flag {b b' : Bool} (hb : b = true → b' = true) :
    (Field.optional Codec.bool).Grows (flag b) (flag b') :=
  grows_given hb (.refl _)

/-- A truth value grows with the condition that it shows. -/
theorem grows_bool {b b' : Bool} (hb : b = true → b' = true) :
    (Codec.bool.encode b).Grows (Codec.bool.encode b') := by
  cases b with
  | true =>
    rw [hb rfl]
    exact .refl _
  | false =>
    cases b' with
    | false => exact .refl _
    | true => exact .bool .agreed

/-- Options take the place of a bare yes. -/
theorem grows_detailed {α : Type} {c : Codec α} {b b' : Bool} (hb : b = true → b' = true) {o a : α}
    {members : List (String × Json)} (ho : c.encode o = .object members)
    (ha : c.encode a = .bool true) :
    (c.encode (if b then o else a)).Grows (c.encode (if b' then o else a)) := by
  cases b with
  | true =>
    rw [hb rfl]
    exact .refl _
  | false =>
    cases b' with
    | false => exact .refl _
    -- The one step that can be taken: from a truth value to options.
    | true =>
      simp only [Bool.false_eq_true, if_false, if_true, ho, ha]
      exact .bool (.detailed members)

variable {has has' : String → Bool}

/-- If any of the methods was there before, it still is. -/
theorem any_of_has (h : ∀ m, has m = true → has' m = true) {methods : List String}
    (hany : methods.any has = true) : methods.any has' = true := by
  obtain ⟨m, hm, hhas⟩ := List.any_eq_true.1 hany
  exact List.any_eq_true.2 ⟨m, hm, h m hhas⟩

/-- If both methods were there before, they still are. -/
theorem and_of_has (h : ∀ m, has m = true → has' m = true) {m m' : String}
    (hand : (has m && has m') = true) : (has' m && has' m') = true := by
  have ⟨hm, hm'⟩ := Bool.and_eq_true_iff.1 hand
  exact Bool.and_eq_true_iff.2 ⟨h m hm, h m' hm'⟩

/-- If either method was there before, it still is. -/
theorem or_of_has (h : ∀ m, has m = true → has' m = true) {m m' : String}
    (hor : (has m || has m') = true) : (has' m || has' m') = true :=
  Bool.or_eq_true_iff.2 ((Bool.or_eq_true_iff.1 hor).imp (h m) (h m'))

/-! ## Features -/

variable (h : ∀ m, has m = true → has' m = true) (c : ServerConfig)

include h

/-- What is said of documents grows with the methods. -/
theorem grows_documentSync :
    (Field.optional TextDocumentSyncCapability.codec).Grows (documentSync has c)
      (documentSync has' c) := by
  have hopen : (has Method.didOpen && has Method.didClose) = true →
      (has' Method.didOpen && has' Method.didClose) = true := and_of_has h
  refine grows_given ?_ ?_
  · -- One of the parts is there, and each of them stays.
    simp only [List.any_cons, List.any_nil, id, Bool.or_eq_true]
    grind
  · refine TextDocumentSyncOptions.isFaithful.grows_encode
      ⟨?openClose, ?change, ?willSave, ?willSaveWaitUntil, ?save, trivial⟩
    case openClose => exact grows_flag hopen
    case change => exact grows_given (h _) (.refl _)
    case willSave => exact grows_flag (h _)
    case willSaveWaitUntil => exact grows_flag (h _)
    case save => exact grows_given (h _) (.refl _)

/-- What is said of notebooks grows with the methods. -/
theorem grows_notebookSync :
    (Field.optional NotebookDocumentSyncCapability.codec).Grows (notebookSync has)
      (notebookSync has') :=
  grows_given (any_of_has h) <| NotebookDocumentSyncOptions.isFaithful.grows_encode
    ⟨.refl _ _, grows_flag (h _), trivial⟩

/-- Changes of tokens take the place of a bare yes to all of them. -/
theorem grows_semanticTokens :
    (Field.optional (OptionsOrRegistration.codec SemanticTokensOptions.record)).Grows
      (semanticTokens has c) (semanticTokens has' c) := by
  refine grows_given (any_of_has h) <| SemanticTokensOptions.isFaithful.grows_encode
    ⟨.refl _ _, .refl _ _, grows_given (h _) (.refl _), ?_, trivial⟩
  -- Whichever handler makes tokens come, the one for changes decides how they are announced.
  have full_eq (d f : Bool) (a b : SemanticTokensFullOption) :
      (if d then some a else given f b) = given (d || f) (if d then a else b) := by
    cases d <;> rfl
  show (Field.optional _).Grows (if _ then _ else _) (if _ then _ else _)
  rw [full_eq, full_eq]
  exact grows_given (or_of_has h) (grows_detailed (h _) rfl rfl)

/-- What is said of files grows with the methods. -/
theorem grows_fileOperations :
    (Field.optional FileOperationOptions.codec).Grows (fileOperations has) (fileOperations has') :=
  have every (m : String) := grows_given (c := FileOperationRegistrationOptions.codec)
    (a := { filters := [] }) (h m) (.refl _)
  grows_given (any_of_has h) <| FileOperationOptions.isFaithful.grows_encode
    ⟨every _, every _, every _, every _, every _, every _, trivial⟩

/-- What is said of the workspace grows with the methods. -/
theorem grows_workspaceOf :
    (Field.optional WorkspaceServerCapabilities.codec).Grows (workspaceOf has)
      (workspaceOf has') := by
  have hfolders := grows_given (c := WorkspaceFoldersServerCapabilities.codec)
    (a := { supported := some true, changeNotifications := some (.bool true) })
    (h Method.didChangeWorkspaceFolders) (.refl _)
  have hfiles := grows_fileOperations h
  refine grows_given (fun hsome => ?_) <| WorkspaceServerCapabilities.isFaithful.grows_encode
    ⟨hfolders, hfiles, trivial⟩
  exact Bool.or_eq_true_iff.2 ((Bool.or_eq_true_iff.1 hsome).imp hfolders.isSome hfiles.isSome)

/-! ## Capabilities -/

/-- All capabilities grow with the methods. -/
theorem grows_ofHandled :
    (codec.encode (ofHandled has c)).Grows (codec.encode (ofHandled has' c)) := by
  have switch (m : String) := grows_given (c := BoolOrOptions.codec WorkDoneProgressOptions.codec)
    (a := .bool true) (h m) (.refl _)
  have provider (b b' : Bool) (hb : b = true → b' = true) := grows_given
    (c := ProviderCapability.codec WorkDoneProgressOptions.record) (a := .bool true) hb (.refl _)
  have resolve (m m' : String) : (Field.optional ResolveOptions.codec).Grows
      (given (has m) { resolveProvider := flag (has m') })
      (given (has' m) { resolveProvider := flag (has' m') }) :=
    grows_given (h m) <| ResolveOptions.isFaithful.grows_encode
      ⟨.refl _ _, grows_flag (h m'), trivial⟩
  refine Record.grows_encode nodup_keys (fields_readsBack (.omitted rfl rfl))
    (fields_readsBack (.omitted rfl rfl)) ⟨.refl _ _, grows_documentSync h c, grows_notebookSync h,
    ?completion, switch _, ?signatureHelp, provider _ _ (h _), switch _, provider _ _ (h _),
    provider _ _ (h _), switch _, switch _, ?documentSymbol, ?codeAction, resolve _ _, resolve _ _,
    provider _ _ (or_of_has h), switch _, switch _, ?onTypeFormatting, ?rename, provider _ _ (h _),
    ?executeCommand, provider _ _ (h _), provider _ _ (h _), provider _ _ (h _),
    grows_semanticTokens h c, provider _ _ (h _), provider _ _ (h _), provider _ _ (h _),
    ?inlayHint, ?diagnostic, ?workspaceSymbol, grows_workspaceOf h, .refl _ _, trivial⟩
  -- Providers with options: each option is a flag of a method, or does not depend on any.
  case completion =>
    exact grows_given (h _) <| CompletionOptions.isFaithful.grows_encode
      ⟨.refl _ _, .refl _ _, .refl _ _, grows_flag (h _), .refl _ _, trivial⟩
  case signatureHelp => exact grows_given (h _) (.refl _)
  case documentSymbol => exact grows_given (h _) (.refl _)
  case codeAction => exact grows_given (h _) (grows_detailed (h _) rfl rfl)
  case onTypeFormatting => exact grows_given (h _) (.refl _)
  case rename => exact grows_given (h _) (grows_detailed (h _) rfl rfl)
  case executeCommand => exact grows_given (h _) (.refl _)
  case inlayHint => exact grows_given (h _) (grows_detailed (h _) rfl rfl)
  case diagnostic =>
    exact grows_given (or_of_has h) <| DiagnosticOptions.isFaithful.grows_encode
      ⟨.refl _ _, .refl _ _, .refl _ _, .required (grows_bool (h _)), trivial⟩
  case workspaceSymbol => exact grows_given (h _) (grows_detailed (h _) rfl rfl)

omit h

/-- More methods announce more, in the same places, and the same methods announce the same. -/
theorem grows_ofMethods (c : ServerConfig) (S T : List String) (hsub : ∀ m ∈ S, m ∈ T) :
    (codec.encode (ofMethods S c)).Grows (codec.encode (ofMethods T c)) ∧
      ((∀ m ∈ T, m ∈ S) → ofMethods S c = ofMethods T c) := by
  have hhas (m : String) (hm : S.contains m = true) : T.contains m = true :=
    List.contains_iff_mem.2 (hsub m (List.contains_iff_mem.1 hm))
  refine ⟨grows_ofHandled hhas c, fun hback => ?_⟩
  -- The capabilities see the methods by membership only.
  have heq : (fun m => S.contains m) = fun m => T.contains m := by
    funext m
    rw [Bool.eq_iff_iff, List.contains_iff_mem, List.contains_iff_mem]
    exact ⟨hsub m, hback m⟩
  rw [ofMethods, heq]
  rfl

/-- Handlers whose features turn from a bare yes to options when their companions come. -/
def exampleFewer : List String :=
  [Method.codeAction, Method.semanticTokensFull, Method.diagnostic, "custom/unknown"]

def exampleMore : List String :=
  ["custom/other", "custom/unknown", Method.diagnostic, Method.workspaceDiagnostic,
    Method.codeActionResolve, Method.codeAction, Method.codeAction, Method.semanticTokensFullDelta,
    Method.semanticTokensFull, Method.hover]

/-- With two methods more the server says no less. -/
theorem grows_exampleFewer :
    (∀ m ∈ exampleFewer, m ∈ exampleMore) ∧
    (codec.encode (ofMethods exampleFewer .default)).Grows
      (codec.encode (ofMethods exampleMore .default)) ∧
    ((∀ m ∈ exampleMore, m ∈ exampleFewer) →
      ofMethods exampleFewer .default = ofMethods exampleMore .default) :=
  have hsub : ∀ m ∈ exampleFewer, m ∈ exampleMore := by decide
  ⟨hsub, grows_ofMethods .default exampleFewer exampleMore hsub⟩

end ServerCapabilities

end LanguageServer
