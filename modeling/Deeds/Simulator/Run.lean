import Deeds.Content.Builtin
import Deeds.Content.Load
import Deeds.Session.Request
import Deeds.Simulator.Settings

/-!
# Simulations

A simulation invokes the actions of a script one after the other, and then lets hours pass while
anything is tracked. It waits for the news that an hour is over before it goes on to the next.

* `Simulator.start`, `Simulator.play`, `Simulator.pass` : the three parts;
* `Simulator.run`, `Simulator.runIn` : the session at the end, or why there is none;
* `Simulator.summary` : what is printed of it.
-/

namespace Deeds.Simulator

/-- Why a simulation ends early. -/
inductive RunError where
  | content (error : ContentError)
  /-- The engine did not answer. -/
  | engine (error : EngineError)
  /-- The news that an hour is over did not come. -/
  | unprocessed (hour : Hour)
  deriving DecidableEq

/-- The message of an error. -/
def RunError.message : RunError → String
  | .content error => error.message
  | .engine error => Diagnostic.message error
  | .unprocessed hour => s!"engine did not process {hour}"

/-- The player's character. -/
def protagonist : CharacterId := ⟨1⟩

/-- The number of the first member. -/
def firstMember : Nat := 100

/-- The characters of a simulation: all have the same rate. -/
def cast (s : Settings) : Cast :=
  let members := (List.range s.members).map fun i => CharacterId.mk (firstMember + i)
  { protagonist := some protagonist
    members
    rates := (protagonist :: members).map fun c => (c, s.rate) }

/-- A session before anything is invoked. -/
def start (s : Settings) (catalog : Catalog) (config : EngineConfig) : Session :=
  let world : World := {
    treasury := .ofBalances s.money s.influence
    cast := cast s
    dice := .ofSeed (config.chanceSeed.getD 0) }
  let system := System.ofParts catalog world (.ofCapacity Clock.defaultCapacity)
    (.ofCapacity Bus.defaultCapacity)
  .ofSystem system none none (config.verificationTimeout.map UInt64.toNat)

/-- Invokes planned actions, the first of which stands at the given position of the script. -/
def play (index : Nat) : List PlannedAction → Session → Session
  | [], s => s
  | p :: rest, s => play (index + 1) rest (s.invoke (.ofName p.name (p.target index)))

/-- The news that an hour is over. -/
def isProcessed (hour : Hour) : Event → Bool
  | .tracker (.tickProcessed processed _ _) => processed = hour
  | _ => false

/-- Reads events up to the news that an hour is over, with at most the given number of readings;
`none` when the news is not among them. -/
def awaitHour (bus : Bus) (hour : Hour) : Nat → Receiver → Option Receiver
  | 0, _ => none
  | n + 1, r => match bus.receive r with
    | (.value event, next) => if isProcessed hour event then some next else awaitHour bus hour n next
    | (.lagged _, next) => awaitHour bus hour n next
    | (.empty, _) => none

/-- Lets at most the given number of hours pass, as long as the engine takes hours. The receiver
reads the events of the tracker: one notice of missed events at most, and the events kept. -/
def pass : Nat → Receiver → Session → Except RunError Session
  | 0, _, s => .ok s
  | n + 1, r, s => match s.query (·.tracker.subscribed) with
    | .error error => .error (.engine error)
    | .ok false => .ok s
    | .ok true =>
      let s := (s.tick 1).1
      let hour := s.system.clock.now
      match awaitHour s.system.bus hour (s.system.bus.tracker.kept.length + 1) r with
      | some r => pass n r s
      | none => .error (.unprocessed hour)

/-- A simulation with a catalog and a configuration. -/
def simulate (s : Settings) (catalog : Catalog) (config : EngineConfig) :
    Except RunError Session :=
  let session := play 0 s.script (start s catalog config)
  pass s.hours (session.system.bus.subscribe .tracker) session

/-- The catalog that the settings name. -/
def catalogOf (s : Settings) (place : String → Place) : Except ContentError Catalog :=
  match s.actionsPath with
  | some path => Content.loadCatalog (place path)
  | none => Content.catalogOf Builtin.definitions

/-- The configuration that the settings name. -/
def configOf (s : Settings) (place : String → Place) : Except ContentError EngineConfig :=
  match s.enginePath with
  | some path => Content.loadConfig (place path)
  | none => .ok {}

/-- Loads the catalog and the configuration that the settings name, and runs the simulation. -/
def run (s : Settings) (place : String → Place) : Except RunError Session := do
  let catalog ← (catalogOf s place).mapError .content
  let config ← (configOf s place).mapError .content
  simulate s catalog config

/-- The file in the folder of a simulation that sets further variables. -/
def environmentFile : String := ".env"

/-- The variables that count: those that are set, and those that the file of variables adds. -/
def environmentIn (e : Environment) (place : String → Place) : Environment :=
  match (place environmentFile).item.bind Item.readBytes with
  | .ok bytes => e.load bytes
  | .error _ => e

/-- Runs the simulation that some variables, and those of the file of variables, set up. -/
def runIn (e : Environment) (place : String → Place) : Except RunError Session :=
  run (.ofEnvironment (environmentIn e place)) place

/-- The state of a session in four lines. -/
def summary (s : Session) : String :=
  let t := s.system.world.treasury
  let tracker := s.system.engine.tracker
  s!"hour:       {s.system.clock.now}\n"
    ++ s!"money:      {t.money.toInt}\n"
    ++ s!"influence:  {t.influence.toInt}\n"
    ++ s!"tracked:    {tracker.indicator.length} indicator, "
    ++ s!"{tracker.repeatable.length} repeatable\n"

end Deeds.Simulator
