import Deeds.Identity
import Deeds.Template

/-!
# Deeds

A deed is one live invocation of a template. It starts without an actor, is verified, and then
progresses until it completes; a repeatable deed is verified again after each completion.

* `Deed.ofTemplate` : a new deed;
* `Deed.advance` : the progression of one hour;
* `Deed.assign`, `Deed.start`, … : the steps from phase to phase.
-/

namespace Deeds

/-- Where a deed is in its life. -/
inductive Phase where
  /-- Waits for an actor. -/
  | resolving
  /-- Has an actor; its conditions are being checked. -/
  | verifying
  /-- Progresses every hour. -/
  | pending
  /-- Has reached its indicator. -/
  | completed
  /-- Checks its conditions again after a completion. -/
  | reverifying
  /-- Ended as it should. -/
  | cleared
  /-- Ended early. -/
  | cancelled
  deriving DecidableEq, Repr

namespace Phase

/-- The name of a phase. -/
def name : Phase → String
  | .resolving => "resolving"
  | .verifying => "verifying"
  | .pending => "pending"
  | .completed => "completed"
  | .reverifying => "reverifying"
  | .cleared => "cleared"
  | .cancelled => "cancelled"

/-- Nothing follows this phase. -/
def isTerminal (p : Phase) : Bool := p = .cleared || p = .cancelled

end Phase

/-- What an hour did to a deed. -/
inductive Advance where
  /-- Nothing: the deed is not pending. -/
  | skipped
  | progressed (current : Binary32)
  /-- The indicator is reached. -/
  | completed (current : Binary32)
  deriving DecidableEq

/-- A live invocation of a template. Its conditions are its own, so that checks never mark those of
the template. -/
structure Deed where
  id : DeedId
  template : Template
  conditions : List Condition
  actor : Option CharacterId
  target : Target
  /-- The progression of this cycle. -/
  current : Binary32
  /-- The gain of the last hour. -/
  calculated : Binary32
  isPossible : Bool
  phase : Phase
  /-- How many times the indicator was reached. -/
  completions : Nat
  deriving DecidableEq

namespace Deed

/-- A new deed without an actor. -/
def ofTemplate (id : DeedId) (template : Template) (target : Target) : Deed where
  id := id
  template := template
  conditions := template.conditions.map Condition.reset
  actor := none
  target := target
  current := .zero
  calculated := .zero
  isPossible := false
  phase := .resolving
  completions := 0

/-- The name of the action. -/
def name (d : Deed) : String := d.template.name

/-- How the deed goes on. -/
def mode (d : Deed) : ExecutionMode := d.template.mode

/-- The deed was started and has not ended. -/
def isExecuting (d : Deed) : Bool :=
  d.phase = .pending || d.phase = .completed || d.phase = .reverifying

/-- The deed has ended. -/
def isStopped (d : Deed) : Bool := d.phase.isTerminal

/-- Binds an actor; `none` when one is bound already. -/
def assign? (d : Deed) (actor : CharacterId) : Option Deed :=
  if d.actor.isSome then none else some { d with actor := some actor, phase := .verifying }

/-- The conditions, unmarked, for a check. -/
def freshConditions (d : Deed) : List Condition := d.conditions.map Condition.reset

/-- Keeps the result of a check. -/
def recordVerification (d : Deed) (conditions : List Condition) (isMet : Bool) : Deed :=
  { d with conditions, isPossible := isMet }

/-- Checks the conditions against observations, both in order; a condition without an observation
stays unmarked. All conditions have to be met unless the verdict is given. Says of the observed
conditions whether they are met. -/
def check (d : Deed) (observed : List (Option Observation)) (verdict : Option Bool) :
    Deed × List Bool :=
  let fresh := d.freshConditions
  let paired := fresh.zip observed
  let checked := paired.map fun (c, o) => (o.map c.record).getD c
  let answers := (observed.zip checked).filterMap fun (o, c) => o.map fun _ => c.isMet
  let conditions := checked ++ fresh.drop paired.length
  (d.recordVerification conditions (verdict.getD (conditions.all Condition.isMet)), answers)

/-- Begins to progress. -/
def start (d : Deed) : Deed := { d with phase := .pending }

/-- The part of the indicator that may be missing at completion. Gains that divide the indicator do
not add up to it exactly. -/
def tolerance : Binary32 := .ofDecimal false 1 (-4)

/-- The progression is the indicator, or less by no more than the tolerance. -/
def reaches (current indicator : Binary32) : Bool :=
  Binary32.le (indicator.sub (indicator.abs.mul tolerance)) current

/-- The gain of an hour; progression never goes back. -/
def hourlyGain (t : Template) (rate : Binary32) : Binary32 :=
  (t.fixedProgression.add rate).max .zero

/-- Adds the gain of an hour to a pending deed, and completes it when the indicator is reached. -/
def advance (d : Deed) (rate : Binary32) : Deed × Advance :=
  if d.phase = .pending then
    let gain := hourlyGain d.template rate
    let current := d.current.add gain
    let indicator := d.template.progressIndicator
    if reaches current indicator then
      let current := current.max indicator
      ({ d with
          current
          calculated := gain
          phase := .completed
          completions := d.completions + 1 }, .completed current)
    else ({ d with current, calculated := gain }, .progressed current)
  else (d, .skipped)

/-- Completes without progression. -/
def completeAtOnce (d : Deed) : Deed :=
  { d with phase := .completed, completions := d.completions + 1 }

/-- Begins the check after a completion. -/
def beginReverification (d : Deed) : Deed := { d with phase := .reverifying }

/-- Begins the next cycle without progression. -/
def restart (d : Deed) : Deed := { d with current := .zero, phase := .pending }

/-- Ends as it should. -/
def clear (d : Deed) : Deed := { d with phase := .cleared }

/-- Ends early. -/
def cancel (d : Deed) : Deed := { d with phase := .cancelled }

end Deed

end Deeds
