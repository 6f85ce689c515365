import LanguageServer.Proofs.Protocol.Content
import LanguageServer.Proofs.Protocol.Options
import LanguageServer.Protocol.CodeAction
import LanguageServer.Protocol.Completion
import LanguageServer.Protocol.Rename

/-!
# Completions, code actions and renamings are read back

The unions among them nest, and each is told apart by a clue of its own: a list from an object, an
edit with one range from one with two, a bare string from a text that says how it is to be read, a
command by its name from an action that holds a command.  The clue of an alternative is never
written by another one, so that every value comes back as the alternative that it was.
-/

namespace LanguageServer

open Field.IsFaithful (required trailing)

/-! ## Completion items -/

theorem CompletionItemKind.isFaithful : CompletionItemKind.codec.IsFaithful :=
  Numbering.isFaithful fun k => by cases k <;> exact ⟨by decide, rfl⟩

theorem CompletionItemTag.isFaithful : CompletionItemTag.codec.IsFaithful :=
  Numbering.isFaithful fun | .deprecated => ⟨by decide, rfl⟩

theorem InsertTextFormat.isFaithful : InsertTextFormat.codec.IsFaithful :=
  Numbering.isFaithful fun k => by cases k <;> exact ⟨by decide, rfl⟩

theorem InsertTextMode.isFaithful : InsertTextMode.codec.IsFaithful :=
  Numbering.isFaithful fun k => by cases k <;> exact ⟨by decide, rfl⟩

theorem CompletionItemLabelDetails.isFaithful : CompletionItemLabelDetails.record.IsFaithful where
  nodup := by decide
  build_make _ := rfl
  fields := ⟨.trailing .string, .trailing .string, trivial⟩

theorem InsertReplaceEdit.isFaithful : InsertReplaceEdit.record.IsFaithful where
  nodup := by decide
  build_make _ := rfl
  fields := ⟨.required .string, .required Range.isFaithful.codec,
    .required Range.isFaithful.codec, trivial⟩

/-- Where to put in is said by edits with two ranges alone. -/
theorem CompletionTextEdit.isFaithful : CompletionTextEdit.codec.IsFaithful where
  readsBack
    | .edit e => by
      -- Only an edit that inserts or replaces has the member `insert`.
      have hinsert := TextEdit.isFaithful.member?_eq_none e "insert" (by decide)
      refine .alternative (TextEdit.isFaithful.codec.readsBack e) rfl ?_
      rw [hinsert]
      rfl
    | .insertAndReplace e => by
      have hinsert : (InsertReplaceEdit.record.codec.encode e).member? "insert" = some _ :=
        (InsertReplaceEdit.isFaithful.shows e).2.1
      refine .alternative (InsertReplaceEdit.isFaithful.codec.readsBack e) rfl ?_
      rw [hinsert]
      rfl
  ne_null
    | .edit _ | .insertAndReplace _ => nofun

/-- The command and the data of an item can be written and read. -/
structure CompletionItem.WellFormed (i : CompletionItem) : Prop where
  command : ∀ c ∈ i.command, c.WellFormed
  data : ∀ v ∈ i.data, v.IsData

/-- A proposal is recovered with its command and its data. -/
theorem CompletionItem.recovers {i : CompletionItem} (h : i.WellFormed) : codec.Recovers i := by
  obtain ⟨command, hcommand, heqc⟩ := Command.member_recovers h.command
  obtain ⟨data, hdata, heqd⟩ := Field.Recovers.trailing (LspAny.data_recovers h.data)
  refine ⟨{ i with command, data }, Record.readsBack (by decide) rfl ?_, ?_⟩
  · exact ⟨required .string _, trailing CompletionItemLabelDetails.isFaithful.codec _,
      trailing CompletionItemKind.isFaithful _, trailing CompletionItemTag.isFaithful.list _,
      trailing .string _, trailing StringOrMarkupContent.isFaithful _, trailing .bool _,
      trailing .bool _, trailing .string _, trailing .string _, trailing .string _,
      trailing InsertTextFormat.isFaithful _, trailing InsertTextMode.isFaithful _,
      trailing CompletionTextEdit.isFaithful _, trailing .string _,
      trailing TextEdit.isFaithful.codec.list _, trailing (.list .string) _, hcommand, hdata,
      trivial⟩
  · -- Every other field is the same, so equality is that of command and data.
    show instBEqCompletionItem.beq _ _ = true
    simp only [instBEqCompletionItem.beq, beq_self_eq_true, heqc, heqd, Bool.and_self]

/-! ## Completion lists -/

/-- The data of defaults can be written and read. -/
def CompletionListItemDefaults.WellFormed (d : CompletionListItemDefaults) : Prop :=
  ∀ v ∈ d.data, v.IsData

/-- What holds for all proposals of a list is recovered with its data. -/
theorem CompletionListItemDefaults.recovers {d : CompletionListItemDefaults} (h : d.WellFormed) :
    codec.Recovers d := by
  obtain ⟨data, hdata, heq⟩ := Field.Recovers.trailing (LspAny.data_recovers h)
  refine ⟨{ d with data }, Record.readsBack (by decide) rfl ?_, ?_⟩
  · exact ⟨trailing (.list .string) _, trailing InsertTextFormat.isFaithful _,
      trailing InsertTextMode.isFaithful _, hdata, trivial⟩
  · show instBEqCompletionListItemDefaults.beq _ _ = true
    simp only [instBEqCompletionListItemDefaults.beq, beq_self_eq_true, heq, Bool.and_self]

/-- The items of a list and their defaults can be written and read. -/
structure CompletionList.WellFormed (l : CompletionList) : Prop where
  itemDefaults : ∀ d ∈ l.itemDefaults, d.WellFormed
  items : ∀ i ∈ l.items, i.WellFormed

/-- A list of proposals is recovered, if each of them is. -/
theorem CompletionList.recovers {l : CompletionList} (h : l.WellFormed) : codec.Recovers l := by
  obtain ⟨itemDefaults, hdefaults, heqd⟩ := Field.Recovers.trailing (.optional
    (fun d hd => CompletionListItemDefaults.recovers (h.itemDefaults d hd)) fun _ _ => nofun)
  obtain ⟨items, hitems, heqi⟩ :=
    Field.Recovers.required (.list fun i hi => CompletionItem.recovers (h.items i hi))
  refine ⟨{ l with itemDefaults, items }, Record.readsBack (by decide) rfl ?_, ?_⟩
  · exact ⟨required .bool _, hdefaults, hitems, trivial⟩
  · show instBEqCompletionList.beq _ _ = true
    simp only [instBEqCompletionList.beq, beq_self_eq_true, heqd, heqi, Bool.and_self]

/-- All items can be written and read. -/
def CompletionResponse.WellFormed : CompletionResponse → Prop
  | .items is => ∀ i ∈ is, i.WellFormed
  | .list l => l.WellFormed

/-- Items are written as an array, and a list as an object. -/
theorem CompletionResponse.recovers {r : CompletionResponse} (h : r.WellFormed) :
    codec.Recovers r := by
  cases r with
  | items is =>
    -- The clue is the kind of the document, so both rules reduce.
    exact .alternative (.list fun i hi => CompletionItem.recovers (h i hi)) rfl rfl fun _ => rfl
  | list l => exact .alternative (CompletionList.recovers h) rfl rfl fun _ => rfl

/-! ## Code actions -/

theorem CodeActionDisabled.isFaithful : CodeActionDisabled.record.IsFaithful where
  nodup := by decide
  build_make _ := rfl
  fields := ⟨.required .string, trivial⟩

/-- The diagnostics, the command and the data of an action can be written and read. -/
structure CodeAction.WellFormed (a : CodeAction) : Prop where
  diagnostics : ∀ ds ∈ a.diagnostics, ∀ d ∈ ds, d.WellFormed
  command : ∀ c ∈ a.command, c.WellFormed
  data : ∀ v ∈ a.data, v.IsData

/-- The fields of an action come back, with an equal action. -/
theorem CodeAction.exists_readsBack {a : CodeAction} (h : a.WellFormed) :
    ∃ a', record.fields.ReadsBack a a' ∧ (a' == a) = true := by
  obtain ⟨diagnostics, hdiagnostics, heqs⟩ := Field.Recovers.trailing (.optional
    (fun ds hds => .list fun d hd => Diagnostic.recovers (h.diagnostics ds hds d hd))
    fun _ _ => nofun)
  obtain ⟨command, hcommand, heqc⟩ := Command.member_recovers h.command
  obtain ⟨data, hdata, heqd⟩ := Field.Recovers.trailing (LspAny.data_recovers h.data)
  refine ⟨{ a with diagnostics, command, data }, ?_, ?_⟩
  · exact ⟨required .string _, trailing CodeActionKind.isFaithful _, hdiagnostics,
      trailing .bool _, trailing CodeActionDisabled.isFaithful.codec _,
      trailing WorkspaceEdit.isFaithful.codec _, hcommand, hdata, trivial⟩
  · -- Diagnostics, command and data alone may come back as equals.
    show instBEqCodeAction.beq _ _ = true
    simp only [instBEqCodeAction.beq, beq_self_eq_true, heqs, heqc, heqd, Bool.and_self]

/-- An action is recovered with its diagnostics, its command and its data. -/
theorem CodeAction.recovers {a : CodeAction} (h : a.WellFormed) : codec.Recovers a :=
  have ⟨a', hread, heq⟩ := exists_readsBack h
  ⟨a', Record.readsBack (by decide) rfl hread, heq⟩

namespace CodeActionOrCommand

/-- A bare command gives its name. -/
theorem isCommand_command {c : Command} (h : c.WellFormed) :
    isCommand (Command.codec.encode c) = true := by
  obtain ⟨c', hread, -⟩ := Command.exists_readsBack h
  have hname : (Command.record.codec.encode c).member? "command" = some (.string c.command) :=
    (Record.shows_encode (by decide) hread).2.1
  rw [isCommand, Command.codec, hname]

/-- Where a bare command has a name, an action has a whole command or nothing. -/
theorem isCommand_action {a : CodeAction} (h : a.WellFormed) :
    isCommand (CodeAction.codec.encode a) = false := by
  obtain ⟨a', hread, -⟩ := CodeAction.exists_readsBack h
  have hcommand : (CodeAction.record.codec.encode a).member? "command" =
      a.command.map Command.codec.encode :=
    (Record.shows_encode (by decide) hread).2.2.2.2.2.2.1
  rw [isCommand, CodeAction.codec, hcommand]
  -- A command is written as an object, never as a string.
  cases a.command <;> rfl

/-- A bare command or an action that can be written and read. -/
def WellFormed : CodeActionOrCommand → Prop
  | .command c => c.WellFormed
  | .action a => a.WellFormed

/-- An action and a command are recovered each as what it is. -/
theorem recovers {x : CodeActionOrCommand} (h : x.WellFormed) : codec.Recovers x := by
  cases x with
  | command c =>
    refine .alternative (Command.recovers h) rfl ?_ fun _ => rfl
    rw [isCommand_command h]
    rfl
  | action a =>
    refine .alternative (CodeAction.recovers h) rfl ?_ fun _ => rfl
    rw [isCommand_action h]
    rfl

end CodeActionOrCommand

/-! ## Renaming -/

theorem RangeWithPlaceholder.isFaithful : RangeWithPlaceholder.record.IsFaithful where
  nodup := by decide
  build_make _ := rfl
  fields := ⟨.required Range.isFaithful.codec, .required .string, trivial⟩

theorem DefaultBehavior.isFaithful : DefaultBehavior.record.IsFaithful where
  nodup := by decide
  build_make _ := rfl
  fields := ⟨.required .bool, trivial⟩

/-- The three answers to a rename are told apart by their members. -/
theorem PrepareRenameResponse.isFaithful : PrepareRenameResponse.codec.IsFaithful where
  readsBack
    | .range r => by
      have h := Range.isFaithful
      refine .alternative (h.codec.readsBack r) rfl ?_
      rw [h.member?_eq_none r "placeholder" (by decide),
        -- A bare range has neither of the members that tell the others.
        h.member?_eq_none r "defaultBehavior" (by decide)]
      rfl
    | .placeholder p => by
      have hplaceholder : (RangeWithPlaceholder.record.codec.encode p).member? "placeholder" =
          some (.string p.placeholder) :=
        (RangeWithPlaceholder.isFaithful.shows p).2.1
      refine .alternative (RangeWithPlaceholder.isFaithful.codec.readsBack p) rfl ?_
      rw [hplaceholder]
      rfl
    | .defaultBehavior d => by
      have h := DefaultBehavior.isFaithful
      have hdefault : (DefaultBehavior.record.codec.encode d).member? "defaultBehavior" =
          some (.bool d.defaultBehavior) :=
        (h.shows d).1
      refine .alternative (h.codec.readsBack d) rfl ?_
      rw [h.member?_eq_none d "placeholder" (by decide), hdefault]
      rfl
  ne_null
    | .range _ | .placeholder _ | .defaultBehavior _ => nofun

/-! ## Proposals come back -/

/-- Completions, their items, lists of code actions and answers on renaming come back as equal
ones, which are the same alternatives of the same unions. -/
theorem CompletionResponse.proposals_recovered :
    (∀ r : CompletionResponse, r.WellFormed →
      ∃ r', codec.ofJson (codec.encode r) = .ok r' ∧ (r' == r) = true) ∧
    (∀ i : CompletionItem, i.WellFormed →
      ∃ i', CompletionItem.codec.ofJson (CompletionItem.codec.encode i) = .ok i' ∧
        (i' == i) = true) ∧
    (∀ xs : List CodeActionOrCommand, (∀ x ∈ xs, x.WellFormed) →
      ∃ xs', CodeActionOrCommand.codec.list.ofJson (CodeActionOrCommand.codec.list.encode xs) =
        .ok xs' ∧ (xs' == xs) = true) ∧
    ∀ p : PrepareRenameResponse,
      PrepareRenameResponse.codec.ofJson (PrepareRenameResponse.codec.encode p) = .ok p := by
  refine ⟨fun r h => (recovers h).exists_ofJson,
    fun i h => (CompletionItem.recovers h).exists_ofJson, fun xs h => ?_,
    fun p => (PrepareRenameResponse.isFaithful.readsBack p).ofJson_eq⟩
  exact (Codec.Recovers.list fun x hx => CodeActionOrCommand.recovers (h x hx)).exists_ofJson

/-- A command with arguments, one of which is null. -/
def Command.exampleCommand : Command :=
  { Command.new "Apply" "apply" with arguments := some [.null, .uinteger 5] }

theorem Command.wellFormed_exampleCommand : exampleCommand.WellFormed := by
  intro vs hvs
  cases hvs
  exact List.forall_mem_cons.2 ⟨.null, List.forall_mem_singleton.2 (.uinteger 5)⟩

/-- An item with an edit of two ranges, a Markdown text, a command and data. -/
def CompletionItem.exampleItem : CompletionItem :=
  { CompletionItem.plain "map" "fn" with
    documentation := some (.markup (.ofMarkdown "*maps*"))
    textEdit := some (.insertAndReplace ⟨"map", .ofCounts 0 0 0 1, .ofCounts 0 0 0 3⟩)
    command := some .exampleCommand
    data := some (.uinteger 7) }

theorem CompletionItem.wellFormed_exampleItem : exampleItem.WellFormed where
  command c hc := by
    cases hc
    exact Command.wellFormed_exampleCommand
  data v hv := by
    cases hv
    exact ⟨.uinteger 7, nofun⟩

/-- A bare command comes back as such beside an action that holds the same command. -/
theorem CompletionResponse.recovered_exampleItem :
    (∃ r, codec.ofJson (codec.encode (.list { items := [.exampleItem] })) = .ok r ∧
      (r == .list { items := [.exampleItem] }) = true) ∧
    (∃ i, CompletionItem.codec.ofJson (CompletionItem.codec.encode .exampleItem) = .ok i ∧
      (i == .exampleItem) = true) ∧
    (∃ xs, CodeActionOrCommand.codec.list.ofJson (CodeActionOrCommand.codec.list.encode
        [.command .exampleCommand, .action { command := some .exampleCommand }]) = .ok xs ∧
      (xs == [.command .exampleCommand, .action { command := some .exampleCommand }]) = true) ∧
    PrepareRenameResponse.codec.ofJson
        (PrepareRenameResponse.codec.encode (.defaultBehavior ⟨true⟩)) =
      .ok (.defaultBehavior ⟨true⟩) := by
  obtain ⟨hresponse, hitem, hactions, hrename⟩ := proposals_recovered
  have hitems := List.forall_mem_singleton.2 CompletionItem.wellFormed_exampleItem
  refine ⟨hresponse _ ⟨nofun, hitems⟩, hitem _ CompletionItem.wellFormed_exampleItem,
    hactions _ (List.forall_mem_cons.2 ⟨Command.wellFormed_exampleCommand,
      List.forall_mem_singleton.2 ⟨nofun, fun c hc => ?_, nofun⟩⟩), hrename _⟩
  cases hc
  exact Command.wellFormed_exampleCommand

end LanguageServer
