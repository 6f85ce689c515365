import LanguageServer.Proofs.Protocol.ClientCapabilities
import LanguageServer.Protocol.Initialize

/-!
# A client that says more than a server knows

The first request of a client is read as it is, whatever a newer client adds to it: members that no
record declares, and values that no set knows, are passed over, and the values that a set knows stay
as they stand (`InitializeParams.ofJson_of_extends`).
-/

namespace LanguageServer

open Field.Tolerates (leaf trailing orElse)

namespace InitializeParams

/-- Where the reader finds records and sets of known values; there are none in the options of the
client and in what is experimental. -/
def layout : Layout := record.layout fun
  | "clientInfo" => ClientInfo.record.plain
  | "capabilities" => ClientCapabilities.layout
  | "workspaceFolders" => .list WorkspaceFolder.record.plain
  | _ => .leaf

/-- What the first request does not declare does not matter to it. -/
theorem tolerates : codec.Tolerates layout :=
  Record.tolerates ⟨leaf _, trailing (Record.tolerates_plain rfl), leaf _, leaf _, leaf _, leaf _,
    orElse ClientCapabilities.tolerates _, leaf _,
    trailing (Codec.Tolerates.list (Record.tolerates_plain rfl)), leaf _, trivial⟩

theorem isProjective : record.IsProjective := ⟨rfl, by decide, by simp [record, Fields.Projects]⟩

/-- The sets of known values, those of what the client can do. -/
def sets : List (ValueSet InitializeParams) :=
  ClientCapabilities.sets.map (.under record "capabilities" fun x => some x.capabilities)

/-- The sets of the first request keep just what they know. -/
theorem keeps : codec.Keeps sets :=
  isProjective.keeps_under ClientCapabilities.keeps fun h _ hm _ =>
    ⟨_, rfl, h.2.2.2.2.2.2.1 _ hm⟩

/-- A request to start with more in it, members that no record declares and values that no set
knows, is read as the request is; each set holds what is known of its values, in their order and as
often as they stand there. -/
theorem ofJson_of_extends {j j' : Json} (hj : j.WellFormed) (hj' : j'.WellFormed)
    (h : layout.Extends j j') {x : InitializeParams} (hx : codec.ofJson j = .ok x) :
    codec.ofJson j' = .ok x ∧ ∀ s ∈ sets, ∀ items, s.find? j' = some (.array items) →
      s.get x = some (Field.decodable s.codec items) := by
  have hx' : codec.ofJson j' = .ok x := tolerates hj hj' h hx
  exact ⟨hx', fun s hs items hitems => keeps s hs hj' hx' hitems⟩

/-- What a client can do that knows some encodings and formats. -/
def exampleCapabilities (encodings formats : List Json) : Json :=
  .object [("general", .object [("positionEncodings", .array encodings)]),
    ("textDocument", .object [("hover", .object [("contentFormat", .array formats)])])]

/-- The request to start of a client that knows as much as the server. -/
def exampleRequest : Json :=
  .object [("capabilities", exampleCapabilities [.string "utf-16"] [.string "markdown"])]

/-- The request to start of a newer client. -/
def exampleNewer : Json :=
  .object [("capabilities", exampleCapabilities [.string "utf-7", .string "utf-16"]
    [.string "markdown", .int 3]), ("telemetry", .bool true)]

/-- Capabilities with two sets in them are a document. -/
theorem wellFormed_exampleCapabilities {encodings formats : List Json}
    (he : ∀ j ∈ encodings, j.WellFormed) (hf : ∀ j ∈ formats, j.WellFormed) :
    (exampleCapabilities encodings formats).WellFormed :=
  .pair (by decide) (.single (.array _ he)) (.single (.single (.array _ hf)))

/-- So is the request that has them. -/
theorem wellFormed_exampleRequest : exampleRequest.WellFormed :=
  .single <| wellFormed_exampleCapabilities (List.forall_mem_singleton.2 (.string _))
    (List.forall_mem_singleton.2 (.string _))

/-- So is that of a newer client. -/
theorem wellFormed_exampleNewer : exampleNewer.WellFormed := by
  refine .pair (by decide) (wellFormed_exampleCapabilities ?_ ?_) (.bool true)
  · exact List.forall_mem_cons.2 ⟨.string _, List.forall_mem_singleton.2 (.string _)⟩
  · exact List.forall_mem_cons.2
      ⟨.string _, List.forall_mem_singleton.2 (.int 3 (by decide) (by decide))⟩

/-- Capabilities extend others if their sets do. -/
theorem extends_exampleCapabilities {encodings encodings' formats formats' : List Json}
    (he : PositionEncodingKind.offers.Extends (.array encodings) (.array encodings'))
    (hf : (Layout.known MarkupKind.codec).Extends (.array formats) (.array formats')) :
    ClientCapabilities.layout.Extends (exampleCapabilities encodings formats)
      (exampleCapabilities encodings' formats') := by
  have hgeneral : ClientCapabilities.layout.Extends (exampleCapabilities encodings formats)
      (exampleCapabilities encodings' formats) :=
    Layout.extends_insert_of_extends "general" (by decide) rfl <|
      Layout.extends_insert_of_extends "positionEncodings" (by decide) rfl he
  -- One set after the other, each at its own path.
  have hdocument : ClientCapabilities.layout.Extends (exampleCapabilities encodings' formats)
      (exampleCapabilities encodings' formats') :=
    Layout.extends_insert_of_extends "textDocument" (by decide) rfl <|
      Layout.extends_insert_of_extends "hover" (by decide) rfl <|
        Layout.extends_insert_of_extends "contentFormat" (by decide) rfl hf
  exact hgeneral.trans hdocument

/-- The request of the newer client extends the other. -/
theorem extends_exampleNewer : layout.Extends exampleRequest exampleNewer := by
  have hencodings : PositionEncodingKind.offers.Extends (.array [.string "utf-16"])
      (.array [.string "utf-7", .string "utf-16"]) :=
    .inr ⟨_, _, rfl, rfl, .insert ⟨_, rfl, by decide⟩ (.refl _ _)⟩
  -- An entry that is not even a text is no entry of the set.
  have hformats : (Layout.known MarkupKind.codec).Extends (.array [.string "markdown"])
      (.array [.string "markdown", .int 3]) :=
    .inr ⟨_, _, rfl, rfl, .keep _ (.insert nofun (.refl _ _))⟩
  have hcapabilities : layout.Extends exampleRequest (.object [("capabilities",
      exampleCapabilities [.string "utf-7", .string "utf-16"] [.string "markdown", .int 3])]) :=
    Layout.extends_insert_of_extends "capabilities" (by decide) rfl
      (extends_exampleCapabilities hencodings hformats)
  exact hcapabilities.trans
    (Layout.extends_insert_of_not_mem "telemetry" (by decide) rfl (.bool true))

/-- A server reads what a newer client says of encodings, formats and telemetry as if it had said
only what the server knows. -/
theorem ofJson_exampleNewer : exampleRequest.WellFormed ∧ exampleNewer.WellFormed ∧
    layout.Extends exampleRequest exampleNewer ∧
    ∃ x, codec.ofJson exampleRequest = .ok x ∧ codec.ofJson exampleNewer = .ok x ∧
      ∀ s ∈ sets, ∀ items, s.find? exampleNewer = some (.array items) →
        s.get x = some (Field.decodable s.codec items) := by
  refine ⟨wellFormed_exampleRequest, wellFormed_exampleNewer, extends_exampleNewer, _, rfl, ?_⟩
  exact ofJson_of_extends wellFormed_exampleRequest wellFormed_exampleNewer extends_exampleNewer rfl

end InitializeParams

end LanguageServer
