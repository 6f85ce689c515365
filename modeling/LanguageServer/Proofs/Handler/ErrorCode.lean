import LanguageServer.Handler.Client
import LanguageServer.Proofs.Handler.Dispatch

/-!
# What the code of an answer says

An error answer has a code.  `LspError.causeCode` is the code that says where an error comes from;
the parameters of the message are never where the error of a callback comes from.  Errors are
answered with this code, except those that are `LspError.IsMisread`: whatever did not decode, be it
an answer of the client, a result or a report, is answered as if the parameters had not.

* `LspError.toResponse_code`: the two cases.
* `Client.request_yields_error`: how an answer of the client that does not decode gets to the
  callback that has asked for it.
* `Handler.code_of_error`: the answers to a message whose parameters do not decode and to one whose
  callback fails, and what an answer with the code for invalid parameters comes from.
-/

namespace LanguageServer

/-! ## Errors and codes -/

namespace ErrorCode

/-- Two of the codes lie in the range of JSON-RPC, which is about the life of a server. -/
theorem isIn_jsonrpcReserved_iff (code : ErrorCode) :
    code.isIn jsonrpcReserved = true ↔ code = .serverNotInitialized ∨ code = .unknownErrorCode := by
  cases code <;> decide

/-- Four of the codes lie in the range of the language server protocol, at the end of it. -/
theorem isIn_lspReserved_iff (code : ErrorCode) :
    code.isIn lspReserved = true ↔
      code = .requestFailed ∨ code = .serverCancelled ∨ code = .contentModified ∨
        code = .requestCancelled := by
  cases code <;> decide

/-- The number of a code says which one it is. -/
theorem value_inj {code code' : ErrorCode} (h : code.value = code'.value) : code = code' := by
  revert h
  cases code <;> cases code' <;> decide

end ErrorCode

namespace LspError

/-- The code that says where an error comes from. -/
def causeCode : LspError → Int32
  | .protocol error => error.code
  | .notInitialized => ErrorCode.serverNotInitialized.value
  | .requestCancelled => ErrorCode.requestCancelled.value
  | .io _ | .json _ | .transport _ | .connection _ | .unknownReportKind _ | .other _ =>
    ErrorCode.internalError.value

/-- Data that could not be read, wherever they came from. -/
inductive IsMisread : LspError → Prop
  | json (text : String) : IsMisread (.json text)
  | unknownReportKind (kind : String) : IsMisread (.unknownReportKind kind)

/-- The parameters are never the cause. -/
theorem causeCode_ne {e : LspError} (h : ∀ error, e ≠ .protocol error) :
    e.causeCode ≠ ErrorCode.invalidParams.value := by
  have hinit : ErrorCode.serverNotInitialized.value ≠ ErrorCode.invalidParams.value := by decide
  have hcancel : ErrorCode.requestCancelled.value ≠ ErrorCode.invalidParams.value := by decide
  have hinternal : ErrorCode.internalError.value ≠ ErrorCode.invalidParams.value := by decide
  cases e with
  | protocol error => exact absurd rfl (h error)
  | notInitialized => exact hinit
  | requestCancelled => exact hcancel
  | io _ | json _ | transport _ | connection _ | unknownReportKind _ | other _ => exact hinternal

/-- An error is answered with the code of its cause, except for data that could not be read. -/
theorem toResponse_code (e : LspError) :
    (e.IsMisread → e.toResponse.code = ErrorCode.invalidParams.value) ∧
      (¬ e.IsMisread → e.toResponse.code = e.causeCode) := by
  cases e with
  | json text => exact ⟨fun _ => rfl, fun h => absurd (.json text) h⟩
  | unknownReportKind kind => exact ⟨fun _ => rfl, fun h => absurd (.unknownReportKind kind) h⟩
  | _ => exact ⟨nofun, fun _ => rfl⟩

/-- The errors that are answered with the code for invalid parameters. -/
theorem toResponse_code_eq_iff (e : LspError) :
    e.toResponse.code = ErrorCode.invalidParams.value ↔
      e.IsMisread ∨ ∃ error, e = .protocol error ∧ error.code = ErrorCode.invalidParams.value := by
  obtain ⟨hmisread, hcause⟩ := e.toResponse_code
  constructor
  · intro h
    -- Any other error has the code of its cause, which parameters never are.
    by_cases hm : e.IsMisread
    · exact .inl hm
    · rw [hcause hm] at h
      cases e with
      | protocol error => exact .inr ⟨error, rfl, h⟩
      | _ => exact absurd h (causeCode_ne nofun)
  · rintro (hm | ⟨error, rfl, h⟩)
    · exact hmisread hm
    · exact h

end LspError

/-! ## Answers of the client that do not decode -/

/-- The first error is what is left of the rest. -/
theorem Act.Yields.andThen_error {σ α β : Type} {hooks : Hooks σ} {cancelled : Bool}
    {h h' : Handler} {w w' : σ} {t : Act (Outcome α)} {e : LspError}
    (ht : t.Yields hooks cancelled h w (.error e) h' w') (f : α → Act (Outcome β)) :
    (t.andThen f).Yields hooks cancelled h w (.error e) h' w' :=
  fun _ => ht _

/-- A callback that asks the client gets an error of its own when the answer does not decode. -/
theorem Client.request_yields_error {σ π ρ : Type} {hooks : Hooks σ} (cancelled : Bool)
    (h : Handler) {w w' : σ} {method : String} {c : Codec π} {params : π} {r : Codec ρ}
    {answer : LspAny} {e : DecodeError}
    (hcall : hooks.call method (.ofTyped c params) w = (.ok answer, w'))
    (hdecode : answer.decodeAs r = .error e) :
    (Client.request method c params r).Yields hooks cancelled h w (.error (.ofDecode e)) h w' := by
  intro k
  show (Activity.call method (.ofTyped c params) _).run hooks cancelled h w = _
  rw [Activity.run, hcall]
  -- The client has answered, and it is its answer that does not decode.
  show ((pure ((answer.decodeAs r).mapError .ofDecode) : Act (Outcome ρ)) k).run _ _ _ _ = _
  rw [hdecode]
  rfl

/-! ## Answers to requests -/

/-- An error of the function that is called is the outcome of the callback. -/
theorem Callback.Returns.of_error {σ π ρ : Type} {hooks : Hooks σ} {cancelled : Bool} {x : Context}
    {h h' : Handler} {w w' : σ} {params : Codec π} {write : ρ → Outcome LspAny}
    {f : Context → π → Act (Outcome ρ)} {a : π} {e : LspError} (ha : x.Reads params a)
    (hf : (f x a).Yields hooks cancelled h w (.error e) h' w') :
    Returns hooks cancelled x h w (.request params write f) (.error e) h' w' := by
  have hr : Returns hooks cancelled x h w (.request params write f)
    ((Except.error e : Outcome ρ).bind fun r => (write r).map some) h' w' := .request ha hf
  exact hr

/-- Only an error is answered by an error object, which is the one of the error. -/
theorem DispatchResult.error_of_response {outcome : Outcome (Option LspAny)} {id : Id}
    {method : String} {error : ResponseError}
    (h : (ofOutcome outcome).response id method = .failure (some id) error) :
    ∃ e, outcome = .error e ∧ error = e.toResponse := by
  have herror := congrArg ResponseMessage.error h
  cases outcome with
  | ok result => cases herror
  | error e => exact ⟨e, rfl, (Option.some.inj herror).symm⟩

namespace Handler

variable {σ : Type}

/-- A message has a result only when its callback ends. -/
theorem conclude_eq_result {method : String} {e : Ending × Handler × σ} {r : DispatchResult}
    {h' : Handler} {w' : σ} (he : conclude method e = (.result r, h', w')) :
    ∃ outcome, e.1 = .done outcome ∧ r = .ofOutcome outcome := by
  obtain ⟨ending, g, v⟩ := e
  cases ending with
  | done outcome =>
    simp only [conclude, Prod.mk.injEq, Handled.result.injEq] at he
    exact ⟨outcome, rfl, he.1.symm⟩
  | panicked message | stuck => simp [conclude] at he

/-- What a message is answered with that is not refused.  Parameters that do not decode have the
code for invalid parameters.  An error of the callback, or of the writing of its result, is answered
as it is if it is an error object, and else with the code of its cause, but for data that could not
be read; so the code for invalid parameters says that they do not decode, or that the callback has
failed with such data, or with an error object of that code. -/
theorem code_of_error (hooks : Hooks σ) (h : Handler) (x : Context) (token : Bool) (w : σ)
    (id : Id) (callback : Callback) (hreg : h.entries.get? x.method = some callback.entry)
    (hp : h.Passes x.method) (hd : x.IsDue token) :
    (∀ e, callback.Refuses x e → ∃ r h', h.handle hooks x token w = (.result r, h', w) ∧
      r.response id x.method =
        .failure (some id) (.of .invalidParams (LspError.ofDecode e).message)) ∧
    (∀ e h' w', callback.Returns hooks (x.isCancelled token) x h w (.error e) h' w' →
      ∃ r h'', h.handle hooks x token w = (.result r, h'', w') ∧
        r.response id x.method = .failure (some id) e.toResponse ∧
        (¬ e.IsMisread → e.toResponse.code = e.causeCode) ∧
        (¬ e.IsMisread → (∀ error, e ≠ .protocol error) →
          e.toResponse.code ≠ ErrorCode.invalidParams.value) ∧
        (e.IsMisread → e.toResponse.code = ErrorCode.invalidParams.value)) ∧
    ∀ r h' w' error, h.handle hooks x token w = (.result r, h', w') →
      r.response id x.method = .failure (some id) error →
      error.code = ErrorCode.invalidParams.value →
      (∃ e, callback.Refuses x e) ∨
        ∃ activity e, h.invocation? x token = some activity ∧
          (activity.run hooks (x.isCancelled token) h w).1 = .done (.error e) ∧
          (e.IsMisread ∨ ∃ pe, e = .protocol pe ∧ pe.code = ErrorCode.invalidParams.value) := by
  have hdecide := decide_of_handles hreg hp hd
  refine ⟨fun e he => ?refused, fun e h' w' hr => ?failed,
    fun r h' w' error hr hres hcode => ?invalidParams⟩
  case refused =>
    -- Parameters that are refused: no callback is invoked.
    exact ⟨_, _, handle_of_error hooks hdecide he.start_eq w, rfl⟩
  case failed =>
    obtain ⟨activity, hs, hrun⟩ := hr.run_eq
    obtain ⟨hmisread, hcause⟩ := e.toResponse_code
    refine ⟨.failure e, h'.finish x.method (.failure e), ?_, rfl, hcause, fun hm hpe => ?_,
      hmisread⟩
    · rw [handle_of_ok hooks hdecide hs, hrun]
      rfl
    · rw [hcause hm]
      exact LspError.causeCode_ne hpe
  case invalidParams =>
    -- Backwards: an answer with this code comes from refused parameters, or from the end of the
    -- callback.
    rcases callback.accepts_or_refuses x with ha | he
    case inr => exact .inl he
    obtain ⟨activity, hs⟩ := ha.start_eq
    have hi : h.invocation? x token = some activity := by
      simp only [invocation?, hdecide, hs, Except.toOption]
    rw [handle_of_some hooks hi] at hr
    obtain ⟨outcome, hend, rfl⟩ := conclude_eq_result hr
    obtain ⟨e, rfl, rfl⟩ := DispatchResult.error_of_response hres
    exact .inr ⟨activity, e, hi, hend, e.toResponse_code_eq_iff.1 hcode⟩

/-- A callback that asks the client for its folders. -/
def exampleFolders : Callback :=
  .request ExecuteCommandParams.codec (fun result => .ok (.ofTyped LspAny.codec.option result))
    fun _ _ => Client.workspaceFolders.andThen fun _ => pure (.ok none)

/-- A handler that is initialized and asks for the folders to execute a command. -/
def exampleCommands : Handler where
  entries := .ofList [(Method.executeCommand, exampleFolders.entry)]
  life := { state := .initialized }

/-- A command without arguments. -/
def exampleCommand : Context where
  method := Method.executeCommand
  params := .object [("command", .string "c")]
  id := some (.int 2)

/-- A client that answers every request with the number five. -/
def exampleFive : Hooks Unit where
  notify _ _ w := (.ok (), w)
  call _ _ w := (.ok (.integer 5), w)
  note _ w := w

/-- The parameters of the command are read. -/
theorem reads_exampleCommand :
    exampleCommand.Reads ExecuteCommandParams.codec { command := "c" } := .given rfl

/-- Without a client the callback fails, and the answer says that the server has failed. -/
theorem code_of_exampleFolders :
    exampleCommands.entries.get? exampleCommand.method = some exampleFolders.entry ∧
      exampleCommands.Passes exampleCommand.method ∧ exampleCommand.IsDue false ∧
      ∃ r h' error,
        exampleCommands.handle (.detached fun _ w => w) exampleCommand false () =
          (.result r, h', ()) ∧
        r.response (.int 2) exampleCommand.method = .failure (some (.int 2)) error ∧
        error.code = -32603 := by
  have hreg : exampleCommands.entries.get? exampleCommand.method = some exampleFolders.entry := rfl
  have hp : exampleCommands.Passes exampleCommand.method := .inr (.inr rfl)
  have hd : exampleCommand.IsDue false := .inr (.inr rfl)
  -- Without a transport the call of the callback fails, and so does the callback.
  have hreturns : exampleFolders.Returns (.detached fun _ w => w) false exampleCommand
      exampleCommands ()
      (.error (.connection "cannot call workspace/workspaceFolders: no transport attached"))
      exampleCommands () :=
    .of_error reads_exampleCommand fun _ => rfl
  obtain ⟨-, herror, -⟩ := code_of_error (.detached fun _ w => w) exampleCommands exampleCommand
    false () (.int 2) exampleFolders hreg hp hd
  obtain ⟨r, h', hr, hres, hcode, -, -⟩ := herror _ _ _ hreturns
  exact ⟨hreg, hp, hd, r, h', _, hr, hres, hcode nofun⟩

/-- A client that answers with no list of folders has the server say that the parameters were
invalid, though they decode. -/
theorem misread_exampleFolders :
    exampleCommands.entries.get? exampleCommand.method = some exampleFolders.entry ∧
      exampleCommands.Passes exampleCommand.method ∧ exampleCommand.IsDue false ∧
      exampleFolders.Accepts exampleCommand ∧
      ∃ e r h' error,
        exampleFolders.Returns exampleFive false exampleCommand exampleCommands () (.error e)
          exampleCommands () ∧
        (∀ error, e ≠ .protocol error) ∧
        exampleCommands.handle exampleFive exampleCommand false () = (.result r, h', ()) ∧
        r.response (.int 2) exampleCommand.method = .failure (some (.int 2)) error ∧
        error.code = ErrorCode.invalidParams.value := by
  -- The client answers with a number, where folders are asked for.
  have hdecode : ∃ e, (LspAny.integer 5).decodeAs WorkspaceFolder.codec.list.option = .error e :=
    ⟨_, rfl⟩
  obtain ⟨e, he⟩ := hdecode
  have hasks : Client.workspaceFolders.Yields exampleFive false exampleCommands ()
      (.error (.ofDecode e)) exampleCommands () :=
    Client.request_yields_error false exampleCommands rfl he
  have hyields := hasks.andThen_error fun _ => (pure (.ok none) : Act (Outcome (Option LspAny)))
  exact ⟨rfl, .inr (.inr rfl), .inr (.inr rfl), ⟨_, reads_exampleCommand⟩, .ofDecode e, _, _, _,
    .of_error reads_exampleCommand hyields, nofun, rfl, rfl, rfl⟩

end Handler

end LanguageServer
