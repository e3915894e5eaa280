import Deeds.Text.Blank

/-!
# Tags of actions

A tag says how the actor is found (`personal`, `organization`), how the action runs (`immediate`,
`indicator`, `repeatable`), or that it is `illegal`. Tags of one of the first two kinds exclude each
other.
-/

namespace Deeds

/-- How a deed goes on once it was invoked. -/
inductive ExecutionMode where
  /-- Done within the invocation. -/
  | immediate
  /-- Progresses every hour and completes once. -/
  | indicator
  /-- Progresses every hour, and starts again after each completion. -/
  | repeatable
  deriving DecidableEq, Repr

/-- Who acts. -/
inductive ActorMode where
  /-- The player's character. -/
  | personal
  /-- A member of the player's organization, to be chosen. -/
  | organization
  deriving DecidableEq, Repr

/-- A property of an action. -/
inductive Tag where
  | personal
  | organization
  | immediate
  | indicator
  | repeatable
  | illegal
  deriving DecidableEq, Repr

namespace ExecutionMode

/-- The name of a mode. -/
def name : ExecutionMode → String
  | .immediate => "Immediate"
  | .indicator => "Indicator"
  | .repeatable => "Repeatable"

/-- Deeds of this mode live on from hour to hour. -/
def isTracked (m : ExecutionMode) : Bool := m != .immediate

end ExecutionMode

/-- The name of a mode. -/
def ActorMode.name : ActorMode → String
  | .personal => "Personal"
  | .organization => "Organization"

namespace Tag

/-- All tags. -/
def all : List Tag := [.personal, .organization, .immediate, .indicator, .repeatable, .illegal]

theorem mem_all (t : Tag) : t ∈ all := by cases t <;> decide

/-- The name of a tag. -/
def name : Tag → String
  | .personal => "Personal"
  | .organization => "Organization"
  | .immediate => "Immediate"
  | .indicator => "Indicator"
  | .repeatable => "Repeatable"
  | .illegal => "Illegal"

/-- The tag of a name, whatever its case. -/
def ofName? (s : String) : Option Tag := all.find? fun t => Text.sameName s t.name

/-- The execution mode that a tag selects. -/
def executionMode : Tag → Option ExecutionMode
  | .immediate => some .immediate
  | .indicator => some .indicator
  | .repeatable => some .repeatable
  | _ => none

/-- The actor mode that a tag selects. -/
def actorMode : Tag → Option ActorMode
  | .personal => some .personal
  | .organization => some .organization
  | _ => none

/-- Two different tags that select a mode of the same kind. -/
def conflicts (s t : Tag) : Bool :=
  s != t && (s.executionMode.isSome && t.executionMode.isSome
    || s.actorMode.isSome && t.actorMode.isSome)

theorem conflicts_comm (s t : Tag) : s.conflicts t = t.conflicts s := by
  cases s <;> cases t <;> rfl

/-- The candidate conflicts with none of the given tags. -/
def compatible (existing : List Tag) (candidate : Tag) : Bool :=
  existing.all fun t => !t.conflicts candidate

end Tag

end Deeds
