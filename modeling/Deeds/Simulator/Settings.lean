import Deeds.Binary32.Decimal
import Deeds.Simulator.Environment
import Deeds.Simulator.Script
import Deeds.Text.Integer

/-!
# Settings of the simulator

* `Settings.ofEnvironment` : the settings that variables make; one that cannot be read leaves the
  default.
-/

namespace Deeds

/-- How a simulation is set up. -/
structure Settings where
  /-- A file or a folder of actions; without it those that are always there. -/
  actionsPath : Option String := none
  enginePath : Option String := none
  hours : Nat := 8
  money : Int64 := 200
  influence : Int64 := 30
  /-- The progression rate of every character. -/
  rate : Binary32 := .zero
  members : Nat := 2
  script : List PlannedAction :=
    PlannedAction.parseScript "Bribe@Palace,Study@Library,Collect Dues@Market"
  deriving DecidableEq

namespace Settings

/-- The variables that settings are made of. -/
def variableNames : List String :=
  ["ACTIONS_DATA", "ACTIONS_CONFIG", "SIM_HOURS", "SIM_MONEY", "SIM_INFLUENCE", "SIM_RATE",
    "SIM_MEMBERS", "SIM_ACTIONS"]

/-- The value of a variable that can be read, or a default. -/
def readOr {α : Type} (e : Environment) (name : String) (default : α)
    (read : String → Option α) : α :=
  ((e.get? name).bind read).getD default

/-- The settings that some variables make. -/
def ofEnvironment (e : Environment) : Settings :=
  let standard : Settings := {}
  let balance (s : String) : Option Int64 := (Text.signed? 64 s).map Int64.ofInt
  { actionsPath := e.get? "ACTIONS_DATA"
    enginePath := e.get? "ACTIONS_CONFIG"
    hours := readOr e "SIM_HOURS" standard.hours (Text.unsigned? 64)
    money := readOr e "SIM_MONEY" standard.money balance
    influence := readOr e "SIM_INFLUENCE" standard.influence balance
    rate := readOr e "SIM_RATE" standard.rate fun s =>
      (Binary32.ofText? s).filter Binary32.isFinite
    members := readOr e "SIM_MEMBERS" standard.members (Text.unsigned? 32)
    script := readOr e "SIM_ACTIONS" standard.script fun s => some (PlannedAction.parseScript s) }

end Settings

end Deeds
