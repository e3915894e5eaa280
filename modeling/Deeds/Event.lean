import Deeds.Binary32.Decimal
import Deeds.Identity
import Deeds.Tag

/-!
# Events

What the engine tells the world: the course of deeds on one topic, the work of the tracker on the
other. `ActionEvent.describe` says an action event in one line.
-/

namespace Deeds

/-- Why a deed was cancelled. -/
inductive CancelReason where
  /-- It was asked to stop. -/
  | stopped
  /-- The check after a completion failed. -/
  | conditionsNotMet
  /-- The check after a completion took too long. -/
  | timeout
  /-- It could not progress. -/
  | trackingFailed (error : String)
  deriving DecidableEq, Repr

/-- The reason in words. -/
def CancelReason.text : CancelReason → String
  | .stopped => "stopped"
  | .conditionsNotMet => "conditions no longer met"
  | .timeout => "verification timed out"
  | .trackingFailed error => error

/-- The course of deeds. -/
inductive ActionEvent where
  /-- Costs were paid and the deed began. -/
  | started (deed : DeedId) (action : String) (actor : CharacterId) (target : Target)
      (mode : ExecutionMode)
  | progressed (deed : DeedId) (hour : Hour) (current indicator : Binary32)
  /-- Effects were applied; an immediate deed has no hour. -/
  | completed (deed : DeedId) (action : String) (target : Target) (hour : Option Hour)
  /-- Costs were paid again for the next cycle. -/
  | repeated (deed : DeedId) (cycle : Nat)
  | cancelled (deed : DeedId) (action : String) (target : Target) (reason : CancelReason)
  /-- An invocation was rejected. -/
  | invocationFailed (action : String) (target : Target) (error : String)
  deriving DecidableEq

namespace ActionEvent

/-- The deed of an event, if it got far enough to be one. -/
def deed? : ActionEvent → Option DeedId
  | .started deed .. => some deed
  | .progressed deed .. => some deed
  | .completed deed .. => some deed
  | .repeated deed .. => some deed
  | .cancelled deed .. => some deed
  | .invocationFailed .. => none

/-- The event in one line. -/
def describe : ActionEvent → String
  | .started deed action actor target mode =>
    s!"{deed} {action} started by {actor} at {target.typeName} ({mode.name})"
  | .progressed deed hour current indicator =>
    s!"{deed} at {hour}: {current.toTenths}/{indicator.toTenths}"
  | .completed deed action _ (some hour) => s!"{deed} {action} completed at {hour}"
  | .completed deed action _ none => s!"{deed} {action} completed"
  | .repeated deed cycle => s!"{deed} starting cycle {cycle + 1}"
  | .cancelled deed action _ reason => s!"{deed} {action} cancelled: {reason.text}"
  | .invocationFailed action _ error => s!"{action} could not start: {error}"

end ActionEvent

/-- The work of the tracker. -/
inductive TrackerEvent where
  /-- The first deed is tracked; ticks are taken from now on. -/
  | subscribed
  /-- The last deed is gone; ticks are no longer taken. -/
  | unsubscribed
  /-- All tracked deeds have seen an hour; so many are still tracked. -/
  | tickProcessed (hour : Hour) (indicator repeatable : Nat)
  deriving DecidableEq, Repr

/-- What an event is about. -/
inductive Topic where
  | action
  | tracker
  deriving DecidableEq, Repr

/-- The name of a topic. -/
def Topic.name : Topic → String
  | .action => "Action"
  | .tracker => "Tracker"

/-- An event of either topic. -/
inductive Event where
  | action (event : ActionEvent)
  | tracker (event : TrackerEvent)
  deriving DecidableEq

/-- The topic of an event. -/
def Event.topic : Event → Topic
  | .action _ => .action
  | .tracker _ => .tracker

end Deeds
