import LanguageServer.Proofs.Codec.ValueSet
import LanguageServer.Protocol.ClientCapabilities

/-!
# What newer clients can do

For each record of what a client can do, `layout` says where in its document the reader finds
records and sets of values, and `tolerates` that it passes over what it does not know there.  Where
there are such sets, `sets` lists them, and `keeps` says that what the reader knows of them is kept.
-/

namespace LanguageServer

open Json (Source)

open Field.Tolerates (leaf required trailing known knownSet)

/-! ## Sets of known values -/

namespace SymbolKindCapabilities

def layout : Layout := record.layout fun
  | "valueSet" => .known SymbolKind.codec
  | _ => .leaf

theorem tolerates : codec.Tolerates layout := Record.tolerates ⟨known _, trivial⟩

theorem isProjective : record.IsProjective := ⟨rfl, by decide, by simp [record, Fields.Projects]⟩

def sets : List (ValueSet SymbolKindCapabilities) :=
  [.own record "valueSet" SymbolKind.codec (·.valueSet)]

theorem keeps : codec.Keeps sets :=
  isProjective.keeps_own fun h _ hm hw => Field.eq_some_of_known hw (h.1 _ hm)

end SymbolKindCapabilities

namespace CompletionItemKindCapabilities

def layout : Layout := record.layout fun
  | "valueSet" => .known CompletionItemKind.codec
  | _ => .leaf

theorem tolerates : codec.Tolerates layout := Record.tolerates ⟨known _, trivial⟩

theorem isProjective : record.IsProjective := ⟨rfl, by decide, by simp [record, Fields.Projects]⟩

def sets : List (ValueSet CompletionItemKindCapabilities) :=
  [.own record "valueSet" CompletionItemKind.codec (·.valueSet)]

theorem keeps : codec.Keeps sets :=
  isProjective.keeps_own fun h _ hm hw => Field.eq_some_of_known hw (h.1 _ hm)

end CompletionItemKindCapabilities

namespace CompletionItemClientCapabilities

def layout : Layout := record.layout fun
  | "documentationFormat" => .known MarkupKind.codec
  | _ => .leaf

theorem tolerates : codec.Tolerates layout :=
  Record.tolerates ⟨leaf _, leaf _, known _, leaf _, leaf _, trivial⟩

theorem isProjective : record.IsProjective := ⟨rfl, by decide, by simp [record, Fields.Projects]⟩

def sets : List (ValueSet CompletionItemClientCapabilities) :=
  [.own record "documentationFormat" MarkupKind.codec (·.documentationFormat)]

theorem keeps : codec.Keeps sets :=
  isProjective.keeps_own fun h _ hm hw => Field.eq_some_of_known hw (h.2.2.1 _ hm)

end CompletionItemClientCapabilities

namespace HoverClientCapabilities

def layout : Layout := record.layout fun
  | "contentFormat" => .known MarkupKind.codec
  | _ => .leaf

theorem tolerates : codec.Tolerates layout := Record.tolerates ⟨leaf _, known _, trivial⟩

theorem isProjective : record.IsProjective := ⟨rfl, by decide, by simp [record, Fields.Projects]⟩

def sets : List (ValueSet HoverClientCapabilities) :=
  [.own record "contentFormat" MarkupKind.codec (·.contentFormat)]

theorem keeps : codec.Keeps sets :=
  isProjective.keeps_own fun h _ hm hw => Field.eq_some_of_known hw (h.2.1 _ hm)

end HoverClientCapabilities

namespace DiagnosticTagSupport

def layout : Layout := record.layout fun
  | "valueSet" => .known DiagnosticTag.codec
  | _ => .leaf

theorem tolerates : codec.Tolerates layout := Record.tolerates ⟨knownSet _, trivial⟩

theorem isProjective : record.IsProjective := ⟨rfl, by decide, by simp [record, Fields.Projects]⟩

def sets : List (ValueSet DiagnosticTagSupport) :=
  [.own record "valueSet" DiagnosticTag.codec fun x => some x.valueSet]

theorem keeps : codec.Keeps sets :=
  isProjective.keeps_own fun h _ hm hw => congrArg some (Field.eq_of_knownSet hw (h.1 _ hm))

end DiagnosticTagSupport

namespace WorkspaceEditClientCapabilities

def layout : Layout := record.layout fun
  | "resourceOperations" => .known ResourceOperationKind.codec
  | "changeAnnotationSupport" => ChangeAnnotationsSupportOptions.record.plain
  | _ => .leaf

theorem tolerates : codec.Tolerates layout :=
  Record.tolerates ⟨leaf _, known _, leaf _, leaf _, trailing (Record.tolerates_plain rfl), trivial⟩

theorem isProjective : record.IsProjective := ⟨rfl, by decide, by simp [record, Fields.Projects]⟩

def sets : List (ValueSet WorkspaceEditClientCapabilities) :=
  [.own record "resourceOperations" ResourceOperationKind.codec (·.resourceOperations)]

theorem keeps : codec.Keeps sets :=
  isProjective.keeps_own fun h _ hm hw => Field.eq_some_of_known hw (h.2.1 _ hm)

end WorkspaceEditClientCapabilities

/-! ## Encodings of positions -/

namespace PositionEncodingKind

/-- Encodings, where names of others do not count. -/
def offers : Layout :=
  .set fun j => ∃ name, j = .string name ∧ name ∉ ["utf-8", "utf-16", "utf-32"]

theorem ofName?_eq_none {name : String} (h : name ∉ ["utf-8", "utf-16", "utf-32"]) :
    ofName? name = none := by
  refine List.find?_eq_none.2 fun k hk he => h ?_
  rw [← of_decide_eq_true he]
  cases k <;> simp [enumeration, PositionEncodingKind.name]

theorem toOption_ofJson_string (name : String) :
    (codec.ofJson (.string name)).toOption = ofName? name := by
  show (enumeration.ofName name none).toOption = enumeration.ofName? name
  unfold Enumeration.ofName
  cases enumeration.ofName? name <;> rfl

/-- Strings are read as the encodings that they name. -/
theorem decode_knownEncodings {items : List Json} {names : List String}
    (h : Codec.string.decodeItems (Source.ofItems .value items) = .ok names) :
    Field.knownEncodings.decode (.ofJson .value (.array items)) =
      .ok (some (Field.decodable codec items)) := by
  have hne : Json.array items ≠ .null := nofun
  have hnames : Field.decodable codec items = names.filterMap ofName? := by
    induction items generalizing names with
    | nil =>
      cases h
      rfl
    | cons j items ih =>
      obtain ⟨name, rest, hj, hrest, rfl⟩ := Codec.decodeItems_cons_eq_ok_iff.1 h
      -- Only a string is read as a name.
      cases j with
      | string text =>
        cases hj
        rw [List.filterMap_cons, ← ih hrest nofun, ← toOption_ofJson_string]
        rfl
      | _ => cases hj
  simp only [Field.knownEncodings, Codec.option_decode_ofJson _ hne, Codec.decode_list, h, bind,
    Except.bind, Except.map, Option.map_some, hnames]

/-- Names of other encodings are strings as well. -/
theorem exists_decodeItems {items items' : List Json}
    (h : Inserts (fun j => ∃ name, j = .string name ∧ name ∉ ["utf-8", "utf-16", "utf-32"])
      items items') {names : List String}
    (hn : Codec.string.decodeItems (Source.ofItems .value items) = .ok names) :
    ∃ names', Codec.string.decodeItems (Source.ofItems .value items') = .ok names' := by
  induction h generalizing names with
  | nil => exact ⟨names, hn⟩
  | @keep j items items' _ ih =>
    obtain ⟨name, rest, hj, hrest, rfl⟩ := Codec.decodeItems_cons_eq_ok_iff.1 hn
    obtain ⟨rest', hrest'⟩ := ih hrest
    exact ⟨name :: rest', Codec.decodeItems_cons_eq_ok_iff.2 ⟨name, rest', hj, hrest', rfl⟩⟩
  | insert new _ ih =>
    obtain ⟨name, rfl, -⟩ := new
    obtain ⟨names', hnames'⟩ := ih hn
    exact ⟨name :: names', Codec.decodeItems_cons_eq_ok_iff.2 ⟨name, names', rfl, hnames', rfl⟩⟩

/-- Encodings are read only from strings. -/
theorem exists_of_decode_knownEncodings {items : List Json}
    {encodings : Option (List PositionEncodingKind)}
    (h : Field.knownEncodings.decode (.ofJson .value (.array items)) = .ok encodings) :
    ∃ names, Codec.string.decodeItems (Source.ofItems .value items) = .ok names := by
  have hne : Json.array items ≠ .null := nofun
  simp only [Field.knownEncodings, Codec.option_decode_ofJson _ hne, Codec.decode_list, bind,
    Except.bind] at h
  cases hn : Codec.string.decodeItems (Source.ofItems .value items) with
  | error e => rw [hn] at h; cases h
  | ok names => exact ⟨names, rfl⟩

/-- Encodings that are not known may be offered beside the known ones. -/
theorem tolerates_knownEncodings : Field.knownEncodings.Tolerates offers := by
  intro j j' _ _ hext a ha
  obtain rfl | ⟨items, items', rfl, rfl, hext⟩ := hext
  · exact ha
  · obtain ⟨names, hn⟩ := exists_of_decode_knownEncodings ha
    obtain ⟨names', hn'⟩ := exists_decodeItems hext hn
    -- What was put in are strings that name no encoding.
    have heq : Field.decodable codec items' = Field.decodable codec items := by
      refine hext.filterMap_eq fun j ⟨name, hj, hname⟩ => ?_
      rw [hj, toOption_ofJson_string, ofName?_eq_none hname]
    rw [decode_knownEncodings hn] at ha
    rw [decode_knownEncodings hn', heq, ha]

end PositionEncodingKind

namespace GeneralClientCapabilities

def layout : Layout := record.layout fun
  | "regularExpressions" => RegularExpressionsClientCapabilities.record.plain
  | "markdown" => MarkdownClientCapabilities.record.plain
  | "positionEncodings" => PositionEncodingKind.offers
  | _ => .leaf

theorem tolerates : codec.Tolerates layout :=
  Record.tolerates ⟨trailing (Record.tolerates_plain rfl), trailing (Record.tolerates_plain rfl),
    PositionEncodingKind.tolerates_knownEncodings, trivial⟩

theorem isProjective : record.IsProjective := ⟨rfl, by decide, by simp [record, Fields.Projects]⟩

def sets : List (ValueSet GeneralClientCapabilities) :=
  [.own record "positionEncodings" PositionEncodingKind.codec (·.positionEncodings)]

theorem keeps : codec.Keeps sets := by
  refine isProjective.keeps_own fun h items hm _ => ?_
  -- The set has been read, so all its items are strings.
  have hd := h.2.2.1 _ hm
  obtain ⟨names, hn⟩ := PositionEncodingKind.exists_of_decode_knownEncodings hd
  rw [PositionEncodingKind.decode_knownEncodings hn] at hd
  exact (Except.ok.inj hd).symm

end GeneralClientCapabilities

/-! ## Records that hold sets -/

namespace WorkspaceSymbolClientCapabilities

def layout : Layout := record.layout fun
  | "symbolKind" => SymbolKindCapabilities.layout
  | _ => .leaf

theorem tolerates : codec.Tolerates layout :=
  Record.tolerates ⟨leaf _, trailing SymbolKindCapabilities.tolerates, trivial⟩

theorem isProjective : record.IsProjective := ⟨rfl, by decide, by simp [record, Fields.Projects]⟩

def sets : List (ValueSet WorkspaceSymbolClientCapabilities) :=
  SymbolKindCapabilities.sets.map (.under record "symbolKind" (·.symbolKind))

theorem keeps : codec.Keeps sets :=
  isProjective.keeps_under SymbolKindCapabilities.keeps fun h _ hm hne =>
    Field.exists_of_trailing hne (h.2.1 _ hm)

end WorkspaceSymbolClientCapabilities

namespace DocumentSymbolClientCapabilities

def layout : Layout := record.layout fun
  | "symbolKind" => SymbolKindCapabilities.layout
  | _ => .leaf

theorem tolerates : codec.Tolerates layout :=
  Record.tolerates ⟨leaf _, trailing SymbolKindCapabilities.tolerates, leaf _, trivial⟩

theorem isProjective : record.IsProjective := ⟨rfl, by decide, by simp [record, Fields.Projects]⟩

def sets : List (ValueSet DocumentSymbolClientCapabilities) :=
  SymbolKindCapabilities.sets.map (.under record "symbolKind" (·.symbolKind))

theorem keeps : codec.Keeps sets :=
  isProjective.keeps_under SymbolKindCapabilities.keeps fun h _ hm hne =>
    Field.exists_of_trailing hne (h.2.1 _ hm)

end DocumentSymbolClientCapabilities

namespace CompletionClientCapabilities

def layout : Layout := record.layout fun
  | "completionItem" => CompletionItemClientCapabilities.layout
  | "completionItemKind" => CompletionItemKindCapabilities.layout
  | _ => .leaf

theorem tolerates : codec.Tolerates layout :=
  Record.tolerates ⟨leaf _, trailing CompletionItemClientCapabilities.tolerates,
    trailing CompletionItemKindCapabilities.tolerates, leaf _, trivial⟩

theorem isProjective : record.IsProjective := ⟨rfl, by decide, by simp [record, Fields.Projects]⟩

def sets : List (ValueSet CompletionClientCapabilities) :=
  CompletionItemClientCapabilities.sets.map (.under record "completionItem" (·.completionItem)) ++
  CompletionItemKindCapabilities.sets.map
    (.under record "completionItemKind" (·.completionItemKind))

theorem keeps : codec.Keeps sets :=
  .append
    (isProjective.keeps_under CompletionItemClientCapabilities.keeps fun h _ hm hne =>
      Field.exists_of_trailing hne (h.2.1 _ hm))
    (isProjective.keeps_under CompletionItemKindCapabilities.keeps fun h _ hm hne =>
      Field.exists_of_trailing hne (h.2.2.1 _ hm))

end CompletionClientCapabilities

namespace PublishDiagnosticsClientCapabilities

def layout : Layout := record.layout fun
  | "tagSupport" => DiagnosticTagSupport.layout
  | _ => .leaf

theorem tolerates : codec.Tolerates layout :=
  Record.tolerates ⟨leaf _, trailing DiagnosticTagSupport.tolerates, leaf _, leaf _, leaf _,
    trivial⟩

theorem isProjective : record.IsProjective := ⟨rfl, by decide, by simp [record, Fields.Projects]⟩

def sets : List (ValueSet PublishDiagnosticsClientCapabilities) :=
  DiagnosticTagSupport.sets.map (.under record "tagSupport" (·.tagSupport))

theorem keeps : codec.Keeps sets :=
  isProjective.keeps_under DiagnosticTagSupport.keeps fun h _ hm hne =>
    Field.exists_of_trailing hne (h.2.1 _ hm)

end PublishDiagnosticsClientCapabilities

/-! ## Records without sets -/

namespace CodeActionLiteralSupport

def layout : Layout := record.layout fun
  | "codeActionKind" => CodeActionKindValueSet.record.plain
  | _ => .leaf

theorem tolerates : codec.Tolerates layout :=
  Record.tolerates ⟨required (Record.tolerates_plain rfl), trivial⟩

end CodeActionLiteralSupport

namespace CodeActionClientCapabilities

def layout : Layout := record.layout fun
  | "codeActionLiteralSupport" => CodeActionLiteralSupport.layout
  | _ => .leaf

theorem tolerates : codec.Tolerates layout :=
  Record.tolerates ⟨leaf _, trailing CodeActionLiteralSupport.tolerates, leaf _, leaf _, trivial⟩

end CodeActionClientCapabilities

namespace FoldingRangeClientCapabilities

/-- The kinds of folding ranges are no set of known values: they are read all or not at all. -/
def layout : Layout := record.layout fun
  | "foldingRangeKind" => FoldingRangeKindCapabilities.record.plain
  | _ => .leaf

theorem tolerates : codec.Tolerates layout :=
  Record.tolerates ⟨leaf _, leaf _, leaf _, trailing (Record.tolerates_plain rfl), trivial⟩

end FoldingRangeClientCapabilities

namespace InlayHintClientCapabilities

def layout : Layout := record.layout fun
  | "resolveSupport" => InlayHintResolveSupport.record.plain
  | _ => .leaf

theorem tolerates : codec.Tolerates layout :=
  Record.tolerates ⟨leaf _, trailing (Record.tolerates_plain rfl), trivial⟩

end InlayHintClientCapabilities

namespace NotebookDocumentClientCapabilities

def layout : Layout := record.layout fun
  | "synchronization" => NotebookDocumentSyncClientCapabilities.record.plain
  | _ => .leaf

theorem tolerates : codec.Tolerates layout :=
  Record.tolerates ⟨required (Record.tolerates_plain rfl), trivial⟩

end NotebookDocumentClientCapabilities

namespace ShowMessageRequestClientCapabilities

def layout : Layout := record.layout fun
  | "messageActionItem" => MessageActionItemClientCapabilities.record.plain
  | _ => .leaf

theorem tolerates : codec.Tolerates layout :=
  Record.tolerates ⟨trailing (Record.tolerates_plain rfl), trivial⟩

end ShowMessageRequestClientCapabilities

namespace WindowClientCapabilities

def layout : Layout := record.layout fun
  | "showMessage" => ShowMessageRequestClientCapabilities.layout
  | "showDocument" => ShowDocumentClientCapabilities.record.plain
  | _ => .leaf

theorem tolerates : codec.Tolerates layout :=
  Record.tolerates ⟨leaf _, trailing ShowMessageRequestClientCapabilities.tolerates,
    trailing (Record.tolerates_plain rfl), trivial⟩

end WindowClientCapabilities

/-! ## All that a client can do -/

namespace WorkspaceClientCapabilities

def layout : Layout := record.layout fun
  | "workspaceEdit" => WorkspaceEditClientCapabilities.layout
  | "didChangeConfiguration" => DynamicRegistrationClientCapabilities.record.plain
  | "didChangeWatchedFiles" => DidChangeWatchedFilesClientCapabilities.record.plain
  | "symbol" => WorkspaceSymbolClientCapabilities.layout
  | "executeCommand" => DynamicRegistrationClientCapabilities.record.plain
  | "semanticTokens" => RefreshClientCapabilities.record.plain
  | "codeLens" => RefreshClientCapabilities.record.plain
  | "fileOperations" => FileOperationClientCapabilities.record.plain
  | "inlineValue" => RefreshClientCapabilities.record.plain
  | "inlayHint" => RefreshClientCapabilities.record.plain
  | "diagnostics" => RefreshClientCapabilities.record.plain
  | _ => .leaf

theorem tolerates : codec.Tolerates layout := by
  have registered : (Field.trailing DynamicRegistrationClientCapabilities.codec).Tolerates
      DynamicRegistrationClientCapabilities.record.plain := trailing (Record.tolerates_plain rfl)
  have refreshed : (Field.trailing RefreshClientCapabilities.codec).Tolerates
      RefreshClientCapabilities.record.plain := trailing (Record.tolerates_plain rfl)
  exact Record.tolerates ⟨leaf _, trailing WorkspaceEditClientCapabilities.tolerates, registered,
    trailing (Record.tolerates_plain rfl), trailing WorkspaceSymbolClientCapabilities.tolerates,
    registered, leaf _, leaf _, refreshed, refreshed, trailing (Record.tolerates_plain rfl),
    refreshed, refreshed, refreshed, trivial⟩

theorem isProjective : record.IsProjective := ⟨rfl, by decide, by simp [record, Fields.Projects]⟩

def sets : List (ValueSet WorkspaceClientCapabilities) :=
  WorkspaceEditClientCapabilities.sets.map (.under record "workspaceEdit" (·.workspaceEdit)) ++
  WorkspaceSymbolClientCapabilities.sets.map (.under record "symbol" (·.symbol))

theorem keeps : codec.Keeps sets :=
  .append
    (isProjective.keeps_under WorkspaceEditClientCapabilities.keeps fun h _ hm hne =>
      Field.exists_of_trailing hne (h.2.1 _ hm))
    (isProjective.keeps_under WorkspaceSymbolClientCapabilities.keeps fun h _ hm hne =>
      Field.exists_of_trailing hne (h.2.2.2.2.1 _ hm))

end WorkspaceClientCapabilities

namespace TextDocumentClientCapabilities

def layout : Layout := record.layout fun
  | "synchronization" => TextDocumentSyncClientCapabilities.record.plain
  | "completion" => CompletionClientCapabilities.layout
  | "hover" => HoverClientCapabilities.layout
  | "declaration" => GotoClientCapabilities.record.plain
  | "definition" => GotoClientCapabilities.record.plain
  | "typeDefinition" => GotoClientCapabilities.record.plain
  | "implementation" => GotoClientCapabilities.record.plain
  | "documentSymbol" => DocumentSymbolClientCapabilities.layout
  | "codeAction" => CodeActionClientCapabilities.layout
  | "rename" => RenameClientCapabilities.record.plain
  | "publishDiagnostics" => PublishDiagnosticsClientCapabilities.layout
  | "foldingRange" => FoldingRangeClientCapabilities.layout
  | "semanticTokens" => SemanticTokensClientCapabilities.record.plain
  | "inlayHint" => InlayHintClientCapabilities.layout
  | "diagnostic" => DiagnosticClientCapabilities.record.plain
  -- About all other requests a client says only whether they can be registered later.
  | _ => DynamicRegistrationClientCapabilities.record.plain

theorem tolerates : codec.Tolerates layout := by
  have registered : (Field.trailing DynamicRegistrationClientCapabilities.codec).Tolerates
      DynamicRegistrationClientCapabilities.record.plain := trailing (Record.tolerates_plain rfl)
  have linked : (Field.trailing GotoClientCapabilities.codec).Tolerates
      GotoClientCapabilities.record.plain := trailing (Record.tolerates_plain rfl)
  exact Record.tolerates ⟨trailing (Record.tolerates_plain rfl),
    trailing CompletionClientCapabilities.tolerates, trailing HoverClientCapabilities.tolerates,
    -- The fields in the order of the record: most say no more than whether they can be registered.
    registered, linked, linked, linked, linked, registered, registered,
    trailing DocumentSymbolClientCapabilities.tolerates,
    trailing CodeActionClientCapabilities.tolerates, registered, registered, registered, registered,
    registered, registered, trailing (Record.tolerates_plain rfl),
    trailing PublishDiagnosticsClientCapabilities.tolerates,
    trailing FoldingRangeClientCapabilities.tolerates, registered, registered, registered,
    trailing (Record.tolerates_plain rfl), registered, registered, registered,
    trailing InlayHintClientCapabilities.tolerates, trailing (Record.tolerates_plain rfl), trivial⟩

theorem isProjective : record.IsProjective := ⟨rfl, by decide, by simp [record, Fields.Projects]⟩

def sets : List (ValueSet TextDocumentClientCapabilities) :=
  CompletionClientCapabilities.sets.map (.under record "completion" (·.completion)) ++
  HoverClientCapabilities.sets.map (.under record "hover" (·.hover)) ++
  DocumentSymbolClientCapabilities.sets.map (.under record "documentSymbol" (·.documentSymbol)) ++
  PublishDiagnosticsClientCapabilities.sets.map
    (.under record "publishDiagnostics" (·.publishDiagnostics))

theorem keeps : codec.Keeps sets := by
  -- The four fields with sets, each under its own key.
  refine .append (.append (.append ?completion ?hover) ?documentSymbol) ?publishDiagnostics
  case completion =>
    exact isProjective.keeps_under CompletionClientCapabilities.keeps fun h _ hm hne =>
      Field.exists_of_trailing hne (h.2.1 _ hm)
  case hover =>
    exact isProjective.keeps_under HoverClientCapabilities.keeps fun h _ hm hne =>
      Field.exists_of_trailing hne (h.2.2.1 _ hm)
  case documentSymbol =>
    exact isProjective.keeps_under DocumentSymbolClientCapabilities.keeps fun h _ hm hne =>
      Field.exists_of_trailing hne (h.2.2.2.2.2.2.2.2.2.2.1 _ hm)
  case publishDiagnostics =>
    exact isProjective.keeps_under PublishDiagnosticsClientCapabilities.keeps fun h _ hm hne =>
      Field.exists_of_trailing hne (h.2.2.2.2.2.2.2.2.2.2.2.2.2.2.2.2.2.2.2.1 _ hm)

end TextDocumentClientCapabilities

namespace ClientCapabilities

def layout : Layout := record.layout fun
  | "workspace" => WorkspaceClientCapabilities.layout
  | "textDocument" => TextDocumentClientCapabilities.layout
  | "notebookDocument" => NotebookDocumentClientCapabilities.layout
  | "window" => WindowClientCapabilities.layout
  | "general" => GeneralClientCapabilities.layout
  | _ => .leaf

theorem tolerates : codec.Tolerates layout :=
  Record.tolerates ⟨trailing WorkspaceClientCapabilities.tolerates,
    trailing TextDocumentClientCapabilities.tolerates,
    trailing NotebookDocumentClientCapabilities.tolerates,
    trailing WindowClientCapabilities.tolerates, trailing GeneralClientCapabilities.tolerates,
    leaf _, trivial⟩

theorem isProjective : record.IsProjective := ⟨rfl, by decide, by simp [record, Fields.Projects]⟩

def sets : List (ValueSet ClientCapabilities) :=
  WorkspaceClientCapabilities.sets.map (.under record "workspace" (·.workspace)) ++
  TextDocumentClientCapabilities.sets.map (.under record "textDocument" (·.textDocument)) ++
  GeneralClientCapabilities.sets.map (.under record "general" (·.general))

theorem keeps : codec.Keeps sets := by
  -- The three parts with sets, each under its own key.
  refine .append (.append ?workspace ?textDocument) ?general
  case workspace =>
    exact isProjective.keeps_under WorkspaceClientCapabilities.keeps fun h _ hm hne =>
      Field.exists_of_trailing hne (h.1 _ hm)
  case textDocument =>
    exact isProjective.keeps_under TextDocumentClientCapabilities.keeps fun h _ hm hne =>
      Field.exists_of_trailing hne (h.2.1 _ hm)
  case general =>
    exact isProjective.keeps_under GeneralClientCapabilities.keeps fun h _ hm hne =>
      Field.exists_of_trailing hne (h.2.2.2.2.1 _ hm)

end ClientCapabilities

end LanguageServer
