import Deeds.Engine.State

/-!
# Hours

Every hour visits the tracked deeds: those that complete once, then those that repeat. A deed that
completes applies its effects; then it is over, or checks its conditions again for the next cycle.

* `Engine.tick` : an hour;
* `Engine.reverified` : the end of the check between two cycles;
* `Engine.cancelTracked` : drops a deed; nothing that it applied is taken back.
-/

namespace Deeds.Engine

/-- Puts a changed deed back into the tracker. -/
def updateTracked (e : Engine) (d : Deed) : Engine := { e with tracker := e.tracker.update d }

/-- Takes a deed out of the tracker; its actor is free again. -/
def dropTracked (e : Engine) (d : Deed) : Engine :=
  Engine.release { e with tracker := e.tracker.remove d.id } d

/-- Drops a tracked deed for a reason. -/
def cancelTracked (e : Engine) (d : Deed) (reason : CancelReason) : Run :=
  Run.andThen
    (e.dropTracked d, [.publish (.action (.cancelled d.id d.name d.target reason))])
    unsubscribeIfIdle

/-- The rate of a deed's actor. It has to be a finite number. -/
def progressionRate (rates : CharacterId → Option Binary32) (d : Deed) :
    Except TrackingError Binary32 :=
  match d.actor with
  | none => .error (.missingActor d.id)
  | some actor => match rates actor with
    | none => .error (.missingRate actor)
    | some rate => if rate.isFinite then .ok rate else .error (.invalidRate actor rate)

/-- Applies the effects of a deed that reached its indicator, and ends it or begins the check for
the next cycle. -/
def complete (e : Engine) (d : Deed) (actor : CharacterId) (hour : Hour) : Run :=
  let effects : Output := .apply d.id actor .effects d.template.effects
  let completed : Output := .publish (.action (.completed d.id d.name d.target (some hour)))
  if d.mode = .repeatable then
    let d := d.beginReverification
    (e.updateTracked d, [effects, .reverify d.id d.freshConditions d.target, completed])
  else Run.andThen (e.dropTracked d, [effects, completed]) unsubscribeIfIdle

/-- What an hour does to a tracked deed whose actor has a rate. -/
def advance (e : Engine) (d : Deed) (rate : Binary32) (hour : Hour) : Run :=
  let (d, step) := d.advance rate
  match step with
  | .skipped => (e, [])
  | .progressed current =>
    (e.updateTracked d,
      [.publish (.action (.progressed d.id hour current d.template.progressIndicator))])
  | .completed current =>
    Run.andThen
      (e.updateTracked d,
        [.publish (.action (.progressed d.id hour current d.template.progressIndicator))])
      fun e => match d.actor with
        | some actor => e.complete d actor hour
        | none => (e, [])

/-- What an hour does to one tracked deed. -/
def visit (rates : CharacterId → Option Binary32) (hour : Hour) (e : Engine) (id : DeedId) :
    Run :=
  match e.tracker.find? id with
  | none => (e, [])
  | some d => match progressionRate rates d with
    | .error error => e.cancelTracked d (.trackingFailed error.message)
    | .ok rate => e.advance d rate hour

/-- Visits some tracked deeds in order. -/
def visitAll (rates : CharacterId → Option Binary32) (hour : Hour) (e : Engine) :
    List DeedId → Run
  | [] => (e, [])
  | id :: rest => Run.andThen (e.visit rates hour id) fun e => e.visitAll rates hour rest

/-- An hour for every deed that is tracked when it comes. -/
def tick (rates : CharacterId → Option Binary32) (e : Engine) (hour : Hour) : Run :=
  Run.andThen (e.visitAll rates hour e.tracker.order) fun e =>
    (e, [.publish (.tracker (.tickProcessed hour e.tracker.indicator.length
      e.tracker.repeatable.length))])

/-- Begins the next cycle: no progression yet, and the costs are paid again. -/
def repeatCycle (e : Engine) (d : Deed) : Run :=
  match d.actor with
  | none => e.cancelTracked d (.trackingFailed (TrackingError.missingActor d.id).message)
  | some actor =>
    let d := d.restart
    (e.updateTracked d,
      [.apply d.id actor .costs d.template.costs,
        .publish (.action (.repeated d.id d.completions))])

/-- Goes on after the check between two cycles. Only a deed that waits for it takes it. -/
def reverified (e : Engine) (id : DeedId) (outcome : Outcome) : Run :=
  match (e.tracker.find? id).filter (·.phase = .reverifying) with
  | none => (e, [])
  | some d => match outcome with
    | .timedOut => e.cancelTracked d .timeout
    | .cancelled => e.cancelTracked d .stopped
    | .checked verdict =>
      if verdict.isMet then e.repeatCycle (d.recordVerification verdict.conditions true)
      else e.cancelTracked d .conditionsNotMet

end Deeds.Engine
