import Deeds.Bus
import Deeds.Clock
import Deeds.Engine.Step
import Deeds.World

/-!
# The engine among its collaborators

A system is an engine, the world that it acts on, the clock and the bus, the questions that wait for
an answer, and the findings that the engine has not yet taken.

* `System.perform` : what an output of the engine does;
* `System.deliver` : an input of the engine with all its outputs.
-/

namespace Deeds

/-- What a suspended deed waits for. -/
inductive Question where
  /-- An actor; nobody is asked before the question is first looked at. -/
  | actor (mode : ActorMode) (action : String) (target : Target) (token : Token) (asked : Bool)
  /-- A check before the start. -/
  | start (check : Check) (target : Target) (token : Token)
  /-- A check between two cycles, which no token cancels. -/
  | again (check : Check) (target : Target)
  deriving DecidableEq, Repr

/-- A question on behalf of a deed. -/
structure Suspension where
  deed : DeedId
  question : Question
  deriving DecidableEq, Repr

/-- An engine and everything around it. -/
structure System where
  engine : Engine
  world : World
  clock : Clock
  /-- Hours can still come. -/
  clockIsOpen : Bool
  /-- Where the engine reads the clock's channel while it takes hours. -/
  ticks : Option Nat
  bus : Bus
  waiting : List Suspension
  /-- In the order in which they came. -/
  finished : List Finding
  fired : List Token

namespace System

/-- A system at rest. -/
def ofParts (catalog : Catalog) (world : World) (clock : Clock) (bus : Bus) : System where
  engine := .ofCatalog catalog
  world := world
  clock := clock
  clockIsOpen := true
  ticks := none
  bus := bus
  waiting := []
  finished := []
  fired := []

/-- A further question. -/
def suspend (s : System) (deed : DeedId) (question : Question) : System :=
  { s with waiting := s.waiting ++ [⟨deed, question⟩] }

/-- Fires a token. -/
def fire (s : System) (token : Token) : System := { s with fired := token :: s.fired }

/-- Does what the engine puts out. -/
def perform (s : System) : Output → System
  | .resolve deed mode action target token => s.suspend deed (.actor mode action target token false)
  | .verify deed conditions target token =>
    s.suspend deed (.start (.begin target conditions) target token)
  | .reverify deed conditions target => s.suspend deed (.again (.begin target conditions) target)
  | .apply _ actor _ effects => { s with world := (s.world.applyAll actor effects).1 }
  | .publish event => { s with bus := s.bus.publish event }
  | .answer .. => s
  | .acknowledge .. => s
  | .fire token => s.fire token
  | .subscribe => { s with ticks := some s.clock.ticks.subscribe }
  | .unsubscribe => { s with ticks := none }

/-- Does a list of outputs in order. -/
def performAll (s : System) (outputs : List Output) : System := outputs.foldl perform s

/-- Gives an input to the engine and does what it puts out. -/
def deliver (s : System) (input : Input) : System × List Output :=
  let (engine, outputs) := s.engine.step s.world.cast.rate input
  (performAll { s with engine } outputs, outputs)

/-- Gives an input to the engine, if there is one. -/
def deliver? (s : System) : Option Input → System × List Output
  | some input => s.deliver input
  | none => (s, [])

end System

end Deeds
