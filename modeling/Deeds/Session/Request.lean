import Deeds.Session.Settle

/-!
# Requests to a session

Everything that can be asked of a session from outside. After each request the session settles; then
`Session.report` tells what has happened.
-/

namespace Deeds

/-- An invocation to be made. -/
structure Call where
  name : String
  target : Target
  /-- Its token is fired before it begins. -/
  isCancelled : Bool
  /-- It has no token that could be fired. -/
  isPlain : Bool
  deriving DecidableEq, Repr

/-- An invocation whose token can be fired, and is not yet. -/
def Call.ofName (name : String) (target : Target) : Call where
  name := name
  target := target
  isCancelled := false
  isPlain := false

/-- What has happened since the last report. -/
structure Report where
  replies : List (CallId × Except InvocationError Receipt)
  actions : List (Reading Event)
  tracker : List (Reading Event)
  asked : List MemberRequest

/-- How a session ends. -/
inductive Closing where
  | ended
  /-- Calls without an answer keep the engine alive. -/
  | waiting
  | failed (error : EngineError)
  deriving DecidableEq, Repr

namespace Session

/-- Takes a call; a stopped engine answers it at once. Each call has a token of its own. -/
def enqueue (s : Session) (c : Call) : Session :=
  let call : CallId := ⟨s.calls⟩
  let token : Token := ⟨s.calls⟩
  let s := { s with
    calls := s.calls + 1
    plain := if c.isPlain then call :: s.plain else s.plain
    unanswered := s.unanswered ++ [call] }
  if s.isAlive then
    { s with
      system := if c.isCancelled then s.system.fire token else s.system
      commands := s.commands ++ [.invoke call c.name c.target token] }
  else s.reply call (.error .engineStopped)

/-- Makes several calls at once. -/
def invokeAll (s : Session) (calls : List Call) : Session := (calls.foldl enqueue s).settle

/-- Makes a call. -/
def invoke (s : Session) (c : Call) : Session := s.invokeAll [c]

/-- Fires the token of a call. -/
def cancel (s : Session) (call : CallId) : Session :=
  if s.plain.contains call then s
  else { s with system := s.system.fire ⟨call.val⟩ }.endCancelled.settle

/-- Forgets a call, and says whether it still waited. -/
def abandon (s : Session) (call : CallId) : Session × Bool :=
  ({ s with unanswered := s.unanswered.filter (· != call) }, s.unanswered.contains call)

/-- An answer of the engine, unless it is broken. -/
def query {α : Type} (s : Session) (f : Engine → α) : Except EngineError α :=
  if s.isAlive then .ok (f s.system.engine) else .error .commandChannelClosed

/-- Stops a deed. -/
def stop (s : Session) (deed : DeedId) : Session × Except EngineError Unit :=
  if s.isAlive then
    let s := { s with commands := s.commands ++ [Input.stop deed], acknowledged := [] }.settle
    (s, s.acknowledged.headD (.error .replyChannelClosed))
  else (s, .error .commandChannelClosed)

/-- The hour, while the clock runs. -/
def hour? (s : Session) : Option Hour :=
  if s.system.clockIsOpen then some s.system.clock.now else none

/-- Moves the clock on by some hours at once. -/
def advanceClock (s : Session) : Nat → Session × List (Option Hour)
  | 0 => (s, [])
  | n + 1 =>
    let s := { s with system := s.system.advanceClock }
    let hour := s.hour?
    let (s, hours) := s.advanceClock n
    (s, hour :: hours)

/-- Moves the clock on by some hours at once, and then lets everything happen. -/
def tick (s : Session) (hours : Nat) : Session × List (Option Hour) :=
  let (s, hours) := s.advanceClock hours
  (s.settle, hours)

/-- Moves the clock on hour by hour, and lets everything happen after each. -/
def runHours (s : Session) : Nat → Session × List (Option Hour)
  | 0 => (s, [])
  | n + 1 =>
    let (s, first) := s.tick 1
    let (s, rest) := s.runHours n
    (s, first ++ rest)

/-- The question of a deed was given its permit. -/
def grant (s : Session) : Option DeedId → Session
  | some deed => { s with ready := s.ready ++ [(deed, true)] }
  | none => s

/-- Adds permits to the gate of the balances one by one, and lets everything happen after each. -/
def releaseReads (s : Session) : Nat → Session
  | 0 => s
  | n + 1 =>
    let (readGate, next) := s.readGate.release
    ({ s with readGate }.grant next).settle.releaseReads n

/-- Adds permits to the gate of the actors one by one, and lets everything happen after each. -/
def releaseActors (s : Session) : Nat → Session
  | 0 => s
  | n + 1 =>
    let (actorGate, next) := s.actorGate.release
    ({ s with actorGate }.grant next).settle.releaseActors n

/-- Lets time pass in units, and everything happen after each. -/
def elapse (s : Session) : Nat → Session
  | 0 => s
  | n + 1 => { s with now := s.now + 1 }.expireDue.settle.elapse n

/-- Changes the cast from outside. -/
def updateCast (s : Session) (f : Cast → Cast) : Session :=
  { s with system := { s.system with
      world := { s.system.world with cast := f s.system.world.cast } } }

/-- Adjusts a balance from outside. -/
def adjust (s : Session) (r : Resource) (delta : Int64) : Session :=
  { s with system := { s.system with
      world := { s.system.world with treasury := s.system.world.treasury.adjust r delta } } }

/-- The clock goes away. -/
def closeClock (s : Session) : Session := { s with system := s.system.closeClock }.settle

/-- How many receivers the clock has, while it runs. -/
def subscribers? (s : Session) : Option Nat :=
  if s.system.clockIsOpen then some (if s.system.ticks.isSome then 1 else 0) else none

/-- What has happened since the last report; answers are in the order of the calls. -/
def report (s : Session) : Session × Report :=
  let (actions, actionEvents) := s.system.bus.drain s.actionEvents
  let (tracker, trackerEvents) := s.system.bus.drain s.trackerEvents
  let replies := s.replies.mergeSort fun a b => a.1.val ≤ b.1.val
  ({ s with actionEvents, trackerEvents, replies := [], asked := [], acknowledged := [] },
    { replies, actions, tracker, asked := s.asked })

/-- The session ends, unless calls still wait for an answer. -/
def close (s : Session) : Session × Closing :=
  if !s.isAlive then (s, .failed .workerJoin)
  else if s.unanswered.isEmpty then
    ({ s with isAlive := false, system := { s.system with ticks := none } }, .ended)
  else (s, .waiting)

end Session

end Deeds
