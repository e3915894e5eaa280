import Deeds.Engine.State

/-!
# Invocations

An invocation finds its actor, checks the conditions, pays the costs, and goes on as its mode says.
Until the costs are paid nothing is changed but the list of pending invocations and the actor's
slot, so a rejection only has to take these back.

* `Engine.invoke`, `Engine.resolved`, `Engine.verified` : the three steps;
* `Engine.begin` : what follows a met check;
* `Engine.reject` : every failure.
-/

namespace Deeds.Engine

/-- Begins an invocation, or answers that there is no such action. -/
def invoke (e : Engine) (call : CallId) (name : String) (target : Target) (token : Token) : Run :=
  match e.catalog.instantiate e.nextId name target with
  | none =>
    let error : InvocationError := .unknownAction name
    (e, [.publish (.action (.invocationFailed name target error.message)),
      .answer call (.error error)])
  | some d =>
    ({ e with nextId := e.nextId.next, pending := e.pending ++ [⟨d, token, call⟩] },
      [.resolve d.id d.template.actorMode name target token])

/-- Drops a pending invocation. -/
def dropPending (e : Engine) (id : DeedId) : Engine :=
  { e with pending := e.pending.filter (·.deed.id != id) }

/-- Replaces the deed of a pending invocation. -/
def updatePending (e : Engine) (d : Deed) : Engine :=
  { e with pending := e.pending.map fun i => if i.deed.id = d.id then { i with deed := d } else i }

/-- Ends a pending invocation with an error; its actor is free again. -/
def reject (e : Engine) (i : Invocation) (error : InvocationError) : Run :=
  ((e.dropPending i.deed.id).release i.deed,
    [.publish (.action (.invocationFailed i.deed.name i.deed.target error.message)),
      .answer i.call (.error error)])

/-- Binds the actor that was found, unless it is at another deed, and asks for the check. -/
def resolved (e : Engine) (id : DeedId) (actor : Option CharacterId) : Run :=
  match e.pending? id with
  | none => (e, [])
  | some i => match actor with
    | none => e.reject i (.resolutionCancelled i.deed.name)
    | some actor => match e.current? actor with
      | some current => e.reject i (.actorBusy actor current)
      | none =>
        let d := (i.deed.assign? actor).getD i.deed
        ({ e.updatePending d with slots := e.slots ++ [(actor, id)] },
          [.verify id d.freshConditions d.target i.token])

/-- Completes an immediate deed within its invocation. -/
def finishAtOnce (e : Engine) (i : Invocation) (d : Deed) (actor : CharacterId) : Run :=
  let ended := d.completeAtOnce.clear
  (e.release d,
    [.apply d.id actor .effects d.template.effects,
      .publish (.action (.completed d.id d.name d.target none)),
      .answer i.call (.ok (.ofDeed ended actor))])

/-- Hands a deed to the tracker, which takes hours from its first deed on. -/
def track (e : Engine) (i : Invocation) (d : Deed) (actor : CharacterId) : Run :=
  let d := d.start
  let wasEmpty := e.tracker.isEmpty
  let e := { e with tracker := e.tracker.register d }
  Run.andThen (if wasEmpty then e.subscribe else (e, []))
    fun e => (e, [.answer i.call (.ok (.ofDeed d actor))])

/-- Pays the costs of a verified deed and goes on as its mode says. -/
def begin (e : Engine) (i : Invocation) (d : Deed) : Run :=
  let e := e.dropPending d.id
  match d.actor with
  | none => (e, [.answer i.call (.error (.resolutionCancelled d.name))])
  | some actor =>
    Run.andThen
      (e, [.apply d.id actor .costs d.template.costs,
        .publish (.action (.started d.id d.name actor d.target d.mode))])
      fun e => match d.mode with
        | .immediate => e.finishAtOnce i d actor
        | .indicator => e.track i d actor
        | .repeatable => e.track i d actor

/-- Goes on after the check before the start. -/
def verified (e : Engine) (id : DeedId) (outcome : Outcome) : Run :=
  match e.pending? id with
  | none => (e, [])
  | some i => match outcome with
    | .cancelled => e.reject i (.stopped i.deed.name)
    | .timedOut => e.reject i (.verificationTimedOut i.deed.name)
    | .checked verdict =>
      if verdict.isMet then e.begin i (i.deed.recordVerification verdict.conditions true)
      else e.reject i (.conditionsNotMet i.deed.name)

end Deeds.Engine
