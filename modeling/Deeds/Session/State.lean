import Deeds.Session.Gate
import Deeds.System.Move

/-!
# Sessions

A session drives a system in a fixed order, so that the same requests always have the same outcome.
It adds what the system leaves open: gates before the collaborators, limits on the time of checks,
and collaborators that fail.

* `Session.deliver` : an input of the engine, which may be the one that breaks it;
* `Session.look` : lets one question go as far as it can.
-/

namespace Deeds

/-- The collaborators whose next call fails. -/
structure Failures where
  reads : Bool := false
  actors : Bool := false
  adjustments : Bool := false
  deriving DecidableEq, Repr

/-- A question that was put to the cast. -/
structure MemberRequest where
  deed : DeedId
  action : String
  target : Target
  deriving DecidableEq, Repr

/-- A system, what holds it up, and what it has said since it was last asked. -/
structure Session where
  system : System
  isAlive : Bool
  readGate : Gate
  actorGate : Gate
  /-- Questions that can go on, and whether each was just given the permit that it waited for. -/
  ready : List (DeedId × Bool)
  /-- When the checks that wait run out of time, in the order in which they began to wait. -/
  deadlines : List (DeedId × Nat)
  /-- How long a check may take. -/
  limit : Option Nat
  now : Nat
  failures : Failures
  /-- Inputs that the engine has not yet taken. -/
  commands : List Input
  calls : Nat
  /-- Calls that cannot be cancelled. -/
  plain : List CallId
  /-- Calls that wait for an answer. -/
  unanswered : List CallId
  replies : List (CallId × Except InvocationError Receipt)
  asked : List MemberRequest
  acknowledged : List (Except EngineError Unit)
  actionEvents : Receiver
  trackerEvents : Receiver

namespace Session

/-- A session at rest. -/
def ofSystem (system : System) (readPermits actorPermits limit : Option Nat) : Session where
  system := system
  isAlive := true
  readGate := .ofPermits readPermits
  actorGate := .ofPermits actorPermits
  ready := []
  deadlines := []
  limit := limit
  now := 0
  failures := {}
  commands := []
  calls := 0
  plain := []
  unanswered := []
  replies := []
  asked := []
  acknowledged := []
  actionEvents := system.bus.subscribe .action
  trackerEvents := system.bus.subscribe .tracker

/-! ## What the engine puts out -/

/-- Notes an answer for a call that still waits for one. -/
def reply (s : Session) (call : CallId) (result : Except InvocationError Receipt) : Session :=
  if s.unanswered.contains call then
    { s with
      unanswered := s.unanswered.filter (· != call)
      replies := s.replies ++ [(call, result)] }
  else s

/-- Notes an output: answers, and questions that are ready to be looked at. -/
def note (s : Session) : Output → Session
  | .answer call result => s.reply call result
  | .acknowledge _ result => { s with acknowledged := s.acknowledged ++ [result] }
  | .resolve deed .. => { s with ready := s.ready ++ [(deed, false)] }
  | .verify deed .. => { s with ready := s.ready ++ [(deed, false)] }
  | .reverify deed .. => { s with ready := s.ready ++ [(deed, false)] }
  | _ => s

/-- A question waits for nothing any more. -/
def depart (s : Session) (deed : DeedId) : Session :=
  { s with
    readGate := s.readGate.leave deed
    actorGate := s.actorGate.leave deed
    deadlines := s.deadlines.filter (·.1 != deed) }

/-- Ends every waiting question whose token was fired. One that was not yet looked at ends when it
is. -/
def endCancelled (s : Session) : Session :=
  let ended := s.system.waiting.filter fun w =>
    s.system.isCancelled w.question && !s.ready.any (·.1 = w.deed)
  ended.foldl (fun s w => { s with system := s.system.poll w.deed }.depart w.deed) s

/-- The outputs up to the first change of a resource, if there is one. -/
def untilAdjustment : List Output → Option (List Output)
  | [] => none
  | .apply deed actor what effects :: rest =>
    if effects.any (·.resourceDelta.isSome) then
      some [.apply deed actor what (effects.takeWhile (·.resourceDelta.isNone))]
    else (untilAdjustment rest).map (.apply deed actor what effects :: ·)
  | o :: rest => (untilAdjustment rest).map (o :: ·)

/-- The engine breaks after some outputs. All questions are dropped, and every call that waits
learns that the engine has stopped. -/
def crash (s : Session) (before : List Output) : Session :=
  let system := s.system.performAll before
  let s := before.foldl note { s with
    system := { system with waiting := [], finished := [], ticks := none }
    isAlive := false }
  let s := s.unanswered.foldl (fun s call => s.reply call (.error .engineStopped)) s
  { s with
    ready := []
    deadlines := []
    commands := []
    readGate := { s.readGate with queue := [] }
    actorGate := { s.actorGate with queue := [] } }

/-- Gives an input to the engine. -/
def deliver (s : Session) (input : Input) : Session :=
  if s.isAlive then
    let (system, outputs) := s.system.deliver input
    match if s.failures.adjustments then untilAdjustment outputs else none with
    | some before => s.crash before
    | none => (outputs.foldl note { s with system }).endCancelled
  else s

/-- Gives an input to the engine, if there is one. -/
def deliver? (s : Session) (r : System × Option Input) : Session :=
  match r with
  | (system, some input) => { s with system }.deliver input
  | (system, none) => { s with system }

/-! ## Questions -/

/-- The question has to wait at a gate. A check that waits for the first time gets its deadline, and
ends at once when it has no time at all. -/
def await (s : Session) (deed : DeedId) : Session :=
  match s.limit with
  | none => s
  | some 0 => { s with system := s.system.expire deed }.depart deed
  | some limit =>
    if s.deadlines.any (·.1 = deed) then s
    else { s with deadlines := s.deadlines ++ [(deed, s.now + limit)] }

/-- Lets a check read balances until it is finished or waits; it takes at most the given number of
steps. -/
def goOn (s : Session) (deed : DeedId) (granted : Bool) : Nat → Session
  | 0 => s
  | n + 1 => match (s.system.question? deed).bind Question.awaits with
    | none => { s with system := s.system.poll deed }.depart deed
    | some _ =>
      let (readGate, passes) := if granted then (s.readGate, true) else s.readGate.enter deed
      let s := { s with readGate }
      if !passes then s.await deed
      else if s.failures.reads then
        { s with
          system := s.system.lose deed
          failures := { s.failures with reads := false } }.depart deed
      else { s with system := s.system.answer deed }.goOn deed false n

/-- Lets a question for an actor pass its gate, and be answered. -/
def askActor (s : Session) (deed : DeedId) (granted : Bool) : Session :=
  let (actorGate, passes) := if granted then (s.actorGate, true) else s.actorGate.enter deed
  let s := { s with actorGate }
  if !passes then s
  else if s.failures.actors then
    { s with
      system := s.system.lose deed
      failures := { s.failures with actors := false } }
  else { s with system := s.system.answer deed }

/-- Notes that a member is asked for. -/
def noteAsked (s : Session) (deed : DeedId) : Question → Session
  | .actor .organization action target _ false =>
    { s with asked := s.asked ++ [⟨deed, action, target⟩] }
  | _ => s

/-- Lets a question go as far as it can: its token comes first. -/
def look (s : Session) (deed : DeedId) (granted : Bool) : Session :=
  match s.system.question? deed with
  | none => s
  | some q =>
    if s.system.isCancelled q then { s with system := s.system.poll deed }.depart deed
    else match q with
      | .actor .. =>
        let s := s.noteAsked deed q
        { s with system := s.system.poll deed }.askActor deed granted
      | .start check _ _ => s.goOn deed granted (check.remaining + 1)
      | .again check _ => s.goOn deed granted (check.remaining + 1)

/-- Ends the checks whose time is over. -/
def expireDue (s : Session) : Session :=
  let due := s.deadlines.filter (·.2 ≤ s.now)
  due.foldl (fun s (deed, _) => { s with system := s.system.expire deed }.depart deed) s

end Session

end Deeds
