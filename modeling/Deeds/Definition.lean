import Deeds.Binary32.Basic

/-!
# Definitions of actions

A definition is what an author writes down about an action: numbers, and lines that are still text.
-/

namespace Deeds

/-- An action as written, not yet checked. -/
structure Definition where
  name : String := ""
  description : String := ""
  /-- How many hours it takes to reach the whole indicator. -/
  duration : UInt32 := 0
  /-- How many targets the action has. -/
  targetNumber : UInt32 := 1
  /-- The progression at which a deed completes. -/
  progressIndicator : Binary32 := .zero
  /-- The gain of every hour, without the actor's rate; derived from the duration when left out. -/
  fixedProgression : Option Binary32 := none
  types : List String := []
  conditions : List String := []
  /-- Applied at completion. -/
  effects : List String := []
  /-- Applied at the start and at every repeat. -/
  costs : List String := []
  deriving DecidableEq

namespace Definition

/-- A list of lines of a definition. -/
inductive Field where
  | types
  | conditions
  | effects
  | costs
  deriving DecidableEq, Repr

/-- The name of a list of lines. -/
def Field.name : Field → String
  | .types => "types"
  | .conditions => "conditions"
  | .effects => "effects"
  | .costs => "costs"

end Definition

end Deeds
