import Deeds.System.State

/-!
# Moves of a system

Everything that can happen, one move at a time and in any order: calls come in, tokens are fired,
collaborators answer, checks time out, findings are taken, hours pass, and the world changes by
itself.

* `System.poll`, `System.answer`, `System.expire` : the ways in which a question goes on; a fired
  token always wins;
* `Move`, `System.step` : all moves;
* `System.run` : a sequence of moves, with everything that the engine puts out.
-/

namespace Deeds

namespace Question

/-- The token that cancels the question. -/
def token? : Question → Option Token
  | .actor _ _ _ token _ => some token
  | .start _ _ token => some token
  | .again .. => none

/-- The finding of a cancelled question. -/
def cancelled (deed : DeedId) : Question → Finding
  | .actor .. => .resolved deed none
  | .start .. => .verified deed .cancelled
  | .again .. => .reverified deed .cancelled

/-- The finding of a question that took too long; only checks have a limit. -/
def timedOut (deed : DeedId) : Question → Option Finding
  | .actor .. => none
  | .start .. => some (.verified deed .timedOut)
  | .again .. => some (.reverified deed .timedOut)

/-- The balance that a question waits for. -/
def awaits : Question → Option Resource
  | .actor .. => none
  | .start check _ _ => check.awaits
  | .again check _ => check.awaits

/-- The finding of a question that needs nothing more. -/
def finding? (deed : DeedId) : Question → Option Finding
  | .actor .. => none
  | .start check _ _ => check.verdict?.map fun v => .verified deed (.checked v)
  | .again check _ => check.verdict?.map fun v => .reverified deed (.checked v)

end Question

namespace System

/-- The question that a deed waits for. -/
def question? (s : System) (deed : DeedId) : Option Question :=
  (s.waiting.find? (·.deed = deed)).map Suspension.question

/-- The token of a question was fired. -/
def isCancelled (s : System) (q : Question) : Bool := q.token?.any s.fired.contains

/-- Drops the question of a deed without a finding. -/
def lose (s : System) (deed : DeedId) : System :=
  { s with waiting := s.waiting.filter (·.deed != deed) }

/-- Ends the question of a deed with a finding. -/
def finish (s : System) (finding : Finding) : System :=
  { s.lose finding.deed with finished := s.finished ++ [finding] }

/-- The question of a deed is now another one; when it needs nothing more it is finished. -/
def goOn (s : System) (deed : DeedId) (q : Question) : System :=
  match q.finding? deed with
  | some finding => s.finish finding
  | none =>
    let update (w : Suspension) : Suspension :=
      if w.deed = deed then { w with question := q } else w
    { s with waiting := s.waiting.map update }

/-- Looks at a question: one with a fired token ends, a question for an actor is put, and a check
that needs no balance is finished. -/
def poll (s : System) (deed : DeedId) : System :=
  match s.question? deed with
  | none => s
  | some q =>
    if s.isCancelled q then s.finish (q.cancelled deed)
    else match q with
      | .actor mode action target token _ => s.goOn deed (.actor mode action target token true)
      | q => s.goOn deed q

/-- The answer of the cast to a question for an actor. -/
def chooseActor (s : System) (mode : ActorMode) : Option CharacterId × System :=
  match mode with
  | .personal => (s.world.cast.protagonist, s)
  | .organization =>
    let (selection, cast) := s.world.cast.select
    (selection.actor?, { s with world := { s.world with cast } })

/-- The collaborator that a question waits for answers: the cast with an actor, the treasury with
the next balance. A fired token wins, and then nobody is asked. -/
def answer (s : System) (deed : DeedId) : System :=
  match s.question? deed with
  | none => s
  | some q =>
    if s.isCancelled q then s.finish (q.cancelled deed)
    else match q with
      | .actor mode _ _ _ _ =>
        let (actor, s) := s.chooseActor mode
        s.finish (.resolved deed actor)
      | .start check target token => match check.awaits with
        | some r =>
          s.goOn deed (.start (check.supply target (s.world.treasury.balance r)) target token)
        | none => s.goOn deed q
      | .again check target => match check.awaits with
        | some r => s.goOn deed (.again (check.supply target (s.world.treasury.balance r)) target)
        | none => s.goOn deed q

/-- The time for a check is over. A fired token wins. -/
def expire (s : System) (deed : DeedId) : System :=
  match s.question? deed with
  | none => s
  | some q =>
    if s.isCancelled q then s.finish (q.cancelled deed)
    else match q.timedOut deed with
      | some finding => s.finish finding
      | none => s

/-- Takes out one of the findings, as an input of the engine. -/
def nextFinding (s : System) (index : Nat) : System × Option Input :=
  ({ s with finished := s.finished.eraseIdx index }, s.finished[index]?.map .finding)

/-- The engine takes one of the findings. -/
def take (s : System) (index : Nat) : System × List Output :=
  let (s, input) := s.nextFinding index
  s.deliver? input

/-- Something is there to be read for an engine that takes hours. -/
def hasTick (s : System) : Bool :=
  s.ticks.any fun position => position < s.clock.ticks.sent || !s.clockIsOpen

/-- Reads the clock's channel on behalf of the engine: an hour, or the end of all hours. A notice of
missed hours only moves the reader on. -/
def readClock (s : System) : System × Option Input :=
  match s.ticks with
  | none => (s, none)
  | some position =>
    let (reading, next) := s.clock.ticks.receive position
    ({ s with ticks := some next }, match reading with
      | .value hour => some (.tick hour)
      | .lagged _ => none
      | .empty => if s.clockIsOpen then none else some .clockClosed)

/-- The engine takes what the clock's channel has for it. -/
def takeTick (s : System) : System × List Output :=
  let (s, input) := s.readClock
  s.deliver? input

/-- The clock moves on by an hour. -/
def advanceClock (s : System) : System :=
  if s.clockIsOpen then { s with clock := s.clock.advance } else s

/-- No hours will come any more. -/
def closeClock (s : System) : System := { s with clockIsOpen := false }

end System

/-- Something that happens to a system. -/
inductive Move where
  | invoke (call : CallId) (name : String) (target : Target) (token : Token)
  | stop (deed : DeedId)
  /-- An invoker fires a token. -/
  | fire (token : Token)
  | poll (deed : DeedId)
  | answer (deed : DeedId)
  | expire (deed : DeedId)
  /-- A collaborator fails, and the question is never answered. -/
  | lose (deed : DeedId)
  | take (index : Nat)
  | takeTick
  | advanceClock
  | closeClock
  /-- The treasury and the cast change in any way, without the engine. -/
  | outside (world : World)
  deriving DecidableEq

namespace System

/-- Makes a move. -/
def step (s : System) : Move → System × List Output
  | .invoke call name target token => s.deliver (.invoke call name target token)
  | .stop deed => s.deliver (.stop deed)
  | .fire token => (s.fire token, [])
  | .poll deed => (s.poll deed, [])
  | .answer deed => (s.answer deed, [])
  | .expire deed => (s.expire deed, [])
  | .lose deed => (s.lose deed, [])
  | .take index => s.take index
  | .takeTick => s.takeTick
  | .advanceClock => (s.advanceClock, [])
  | .closeClock => (s.closeClock, [])
  | .outside world => ({ s with world }, [])

/-- Makes moves in order, and collects what the engine puts out. -/
def run (s : System) : List Move → System × List Output
  | [] => (s, [])
  | m :: rest =>
    let (s, outputs) := s.step m
    let (s, more) := s.run rest
    (s, outputs ++ more)

end System

end Deeds
