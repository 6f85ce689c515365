import LanguageServer.Server.Schedule

/-!
# Runs of a session

A `Session.Run` is any finite order of steps of the parties, with anything that the client does in
between.  `Session.run_settle` says that the turns of `Session.settle` are such an order, and
`Session.run_play` says so of any list of moves.
-/

namespace LanguageServer

/-- What can happen next in a session. -/
inductive Move where
  /-- Bytes come from the client. -/
  | receive (bytes : List UInt8)
  /-- The client sends nothing any more. -/
  | endInput
  /-- The client receives nothing any more. -/
  | hangUp
  /-- A party takes a step. -/
  | step (party : Party)

namespace Session

/-- Let something happen; a party that waits takes no step. -/
def move (s : Session) : Move → Option (Event × Session)
  | .receive bytes => some (.received bytes, s.receive bytes)
  | .endInput => some (.quiet, s.endInput)
  | .hangUp => some (.quiet, s.hangUp)
  | .step party => s.step party

/-- The events on the way from a session to a later state of it. -/
inductive Run (s : Session) : List Event → Session → Prop
  | start : Run s [] s
  | next {events : List Event} {t u : Session} {event : Event} (m : Move) :
      Run s events t → t.move m = some (event, u) → Run s (events ++ [event]) u

namespace Run

/-- A run after a run is a run. -/
theorem trans {s t u : Session} {before after : List Event} (first : s.Run before t)
    (second : t.Run after u) : s.Run (before ++ after) u := by
  induction second with
  | start => simpa using first
  | next m _ h ih =>
    rw [← List.append_assoc]
    exact .next m ih h

/-- A single move is a run. -/
theorem single {s t : Session} {event : Event} (m : Move) (h : s.move m = some (event, t)) :
    s.Run [event] t :=
  .next m .start h

end Run

/-- Moves one after the other; those that are not possible are left out. -/
def play (s : Session) : List Move → List Event × Session
  | [] => ([], s)
  | m :: rest =>
    match s.move m with
    | none => s.play rest
    | some (event, t) =>
      let (events, u) := t.play rest
      (event :: events, u)

/-- Such moves are a run. -/
theorem run_play (s : Session) (moves : List Move) : s.Run (s.play moves).1 (s.play moves).2 := by
  induction moves generalizing s with
  | nil => exact .start
  | cons m rest ih =>
    simp only [play]
    split
    · exact ih s
    · rename_i event t hm
      exact .trans (.single m hm) (ih t)

/-- A turn is a step of some party. -/
theorem exists_step_of_turn {s t : Session} {event : Event} (h : s.turn = some (event, t)) :
    ∃ party, s.step party = some (event, t) := by
  obtain ⟨party, _, hp⟩ := List.exists_of_findSome?_eq_some h
  exact ⟨party, hp⟩

/-- Turns are a run. -/
theorem run_settle (fuel : Nat) (s : Session) : s.Run (s.settle fuel).1 (s.settle fuel).2 := by
  induction fuel generalizing s with
  | zero => exact .start
  | succ fuel ih =>
    unfold settle
    cases h : s.turn with
    | none => exact .start
    | some next =>
      obtain ⟨event, t⟩ := next
      obtain ⟨party, hp⟩ := exists_step_of_turn h
      exact .trans (.single (.step party) hp) (ih t)

end Session

end LanguageServer
