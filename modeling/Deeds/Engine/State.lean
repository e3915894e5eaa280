import Deeds.Catalog
import Deeds.Engine.Tracker
import Deeds.Event
import Deeds.Failure
import Deeds.Verification

/-!
# The engine: state, input, output

The engine owns every live deed. It never waits: an input changes its state at once and yields a
list of outputs, which say in order what is done to the world around it. What takes time, finding an
actor or checking conditions, goes out as a request and comes back as a `Finding`.
-/

namespace Deeds

/-- A cancellation token. Invocations may share one; once fired it stays so. -/
structure Token where
  val : Nat
  deriving DecidableEq, Repr, Inhabited

/-- A call that waits for the answer to its invocation. -/
structure CallId where
  val : Nat
  deriving DecidableEq, Repr, Inhabited

/-- What a successful invocation answers: an immediate deed is over by then, another one has begun.
-/
structure Receipt where
  deed : DeedId
  action : String
  actor : CharacterId
  mode : ExecutionMode
  phase : Phase
  deriving DecidableEq, Repr

/-- The receipt of a deed. -/
def Receipt.ofDeed (d : Deed) (actor : CharacterId) : Receipt :=
  ⟨d.id, d.name, actor, d.mode, d.phase⟩

/-- How a check of conditions ended. -/
inductive Outcome where
  | checked (verdict : Verdict)
  | timedOut
  | cancelled
  deriving DecidableEq, Repr

/-- What comes back to the engine. -/
inductive Finding where
  /-- The actor of an invocation, or none when the choice was cancelled. -/
  | resolved (deed : DeedId) (actor : Option CharacterId)
  /-- The check before the start. -/
  | verified (deed : DeedId) (outcome : Outcome)
  /-- The check after a completion. -/
  | reverified (deed : DeedId) (outcome : Outcome)
  deriving DecidableEq, Repr

/-- The deed that a finding is about. -/
def Finding.deed : Finding → DeedId
  | .resolved deed _ => deed
  | .verified deed _ => deed
  | .reverified deed _ => deed

/-- A deed between its invocation and the answer. -/
structure Invocation where
  deed : Deed
  token : Token
  call : CallId
  deriving DecidableEq

/-- Everything that the engine knows. -/
structure Engine where
  catalog : Catalog
  nextId : DeedId
  pending : List Invocation
  tracker : Tracker
  /-- What each busy actor is at. -/
  slots : List (CharacterId × DeedId)
  deriving DecidableEq

/-- What can happen to the engine. -/
inductive Input where
  | invoke (call : CallId) (name : String) (target : Target) (token : Token)
  | stop (deed : DeedId)
  | finding (finding : Finding)
  | tick (hour : Hour)
  /-- No hours will come any more. -/
  | clockClosed
  deriving DecidableEq, Repr

/-- Which list of a template is applied. -/
inductive Application where
  | costs
  | effects
  deriving DecidableEq, Repr

/-- What the engine does to the world. -/
inductive Output where
  /-- Asks for an actor; the token cancels the question. -/
  | resolve (deed : DeedId) (mode : ActorMode) (action : String) (target : Target) (token : Token)
  /-- Asks for a check before the start; the token cancels it. -/
  | verify (deed : DeedId) (conditions : List Condition) (target : Target) (token : Token)
  /-- Asks for a check after a completion. -/
  | reverify (deed : DeedId) (conditions : List Condition) (target : Target)
  | apply (deed : DeedId) (actor : CharacterId) (what : Application) (effects : List Effect)
  | publish (event : Event)
  /-- Answers an invocation. -/
  | answer (call : CallId) (result : Except InvocationError Receipt)
  /-- Answers a request to stop. -/
  | acknowledge (deed : DeedId) (result : Except EngineError Unit)
  | fire (token : Token)
  | subscribe
  | unsubscribe

namespace Engine

/-- An engine without deeds. -/
def ofCatalog (catalog : Catalog) : Engine := ⟨catalog, ⟨1⟩, [], .empty, []⟩

/-- A state with the outputs that led to it. -/
abbrev Run := Engine × List Output

/-- Goes on from the state of a run; the outputs of both parts come in order. -/
def Run.andThen (r : Run) (f : Engine → Run) : Run :=
  let (e, more) := f r.1
  (e, r.2 ++ more)

/-- The pending invocation of a deed. -/
def pending? (e : Engine) (id : DeedId) : Option Invocation := e.pending.find? (·.deed.id = id)

/-- The live deed of a number. -/
def find? (e : Engine) (id : DeedId) : Option Deed :=
  ((e.pending? id).map Invocation.deed).or (e.tracker.find? id)

/-- What an actor is at. -/
def current? (e : Engine) (actor : CharacterId) : Option DeedId := e.slots.lookup actor

/-- The actor of a deed is free again, if the slot is the deed's. -/
def release (e : Engine) (d : Deed) : Engine :=
  match d.actor with
  | some actor => { e with slots := e.slots.filter (· != (actor, d.id)) }
  | none => e

/-- Takes hours from now on. -/
def subscribe (e : Engine) : Run :=
  if e.tracker.subscribed then (e, [])
  else ({ e with tracker := { e.tracker with subscribed := true } },
    [.subscribe, .publish (.tracker .subscribed)])

/-- Takes no more hours. -/
def unsubscribe (e : Engine) : Run :=
  if e.tracker.subscribed then
    ({ e with tracker := { e.tracker with subscribed := false } },
      [.unsubscribe, .publish (.tracker .unsubscribed)])
  else (e, [])

/-- Takes no more hours when nothing is tracked. -/
def unsubscribeIfIdle (e : Engine) : Run := if e.tracker.isEmpty then e.unsubscribe else (e, [])

end Engine

end Deeds
