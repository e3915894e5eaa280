import Deeds.Proofs.Engine.Sound

/-!
# Transitions

Everything that an engine can do to a deed. `Transition e f id outputs e'` is one transition of the
deed `id`: `f` is the finding that the engine takes, if it takes one, and `outputs` is all that it
puts out. What an input does is a chain of transitions (see `Deeds.Proofs.Engine.Step`), so what
every transition keeps holds of every engine.

* `Engine.Awaits` : a deed waits for a finding of some stage;
* `Engine.Transition` : one case for each thing that can happen to a deed.
-/

namespace Deeds

/-! ## The deed of an output -/

/-- The deed that an output is about, if there is one. -/
def Output.deed? : Output → Option DeedId
  | .resolve deed .. => some deed
  | .verify deed .. => some deed
  | .reverify deed .. => some deed
  | .apply deed .. => some deed
  | .publish (.action event) => event.deed?
  | .publish (.tracker _) => none
  | .answer _ (.ok receipt) => some receipt.deed
  | .answer _ (.error _) => none
  | .acknowledge deed _ => some deed
  | .fire _ => none
  | .subscribe => none
  | .unsubscribe => none

/-- An output that is about hours, and no deed. -/
def Output.isHourly : Output → Bool
  | .subscribe => true
  | .unsubscribe => true
  | .publish (.tracker _) => true
  | _ => false

theorem Output.cases_of_isHourly {o : Output} (h : o.isHourly) :
    o = .subscribe ∨ o = .unsubscribe ∨ ∃ event, o = .publish (.tracker event) := by
  unfold isHourly at h
  split at h
  · exact .inl rfl
  · exact .inr (.inl rfl)
  · exact .inr (.inr ⟨_, rfl⟩)
  · cases h

theorem Output.deed?_of_isHourly {o : Output} (h : o.isHourly) : o.deed? = none := by
  obtain rfl | rfl | ⟨_, rfl⟩ := cases_of_isHourly h <;> rfl

/-- An application for a deed, a notice that it goes on, or the news that it was begun. -/
def Output.advances (id : DeedId) : Output → Bool
  | .apply deed .. => deed = id
  | .publish (.action (.started deed ..)) => deed = id
  | .publish (.action (.progressed deed ..)) => deed = id
  | .publish (.action (.completed deed ..)) => deed = id
  | .publish (.action (.repeated deed _)) => deed = id
  | .answer _ (.ok receipt) => receipt.deed = id
  | _ => false

theorem Output.deed?_of_advances {o : Output} {id : DeedId} (h : o.advances id) :
    o.deed? = some id := by
  unfold advances at h
  split at h
  · exact congrArg some (of_decide_eq_true h)
  · exact congrArg some (of_decide_eq_true h)
  · exact congrArg some (of_decide_eq_true h)
  · exact congrArg some (of_decide_eq_true h)
  · exact congrArg some (of_decide_eq_true h)
  · exact congrArg some (of_decide_eq_true h)
  · cases h

theorem Output.advances_of_isHourly {o : Output} {id : DeedId} (h : o.isHourly) :
    o.advances id = false := by
  obtain rfl | rfl | ⟨_, rfl⟩ := cases_of_isHourly h <;> rfl

/-! ## The steps of a deed -/

namespace Deed

variable {d d' : Deed} {rate current : Binary32} {a : CharacterId}

theorem advance_eq_progressed (h : d.advance rate = (d', .progressed current)) :
    d.phase = .pending ∧ d' = { d with current, calculated := hourlyGain d.template rate } := by
  unfold advance at h
  split at h
  · rename_i hp
    dsimp only at h
    split at h
    · cases h
    · cases h
      exact ⟨hp, rfl⟩
  · cases h

theorem advance_eq_completed (h : d.advance rate = (d', .completed current)) :
    d.phase = .pending ∧
      d' = { d with
        current
        calculated := hourlyGain d.template rate
        phase := .completed
        completions := d.completions + 1 } := by
  unfold advance at h
  split at h
  · rename_i hp
    dsimp only at h
    split at h
    · cases h
      exact ⟨hp, rfl⟩
    · cases h
  · cases h

theorem assign?_eq_some (h : d.assign? a = some d') :
    d.actor = none ∧ d' = { d with actor := some a, phase := .verifying } := by
  unfold assign? at h
  split at h
  · cases h
  · rename_i ha
    cases h
    exact ⟨by simpa using ha, rfl⟩

end Deed

/-- What a catalog makes a deed of. -/
theorem Catalog.instantiate_eq_some {c : Catalog} {id : DeedId} {name : String} {target : Target}
    {d : Deed} (h : c.instantiate id name target = some d) :
    ∃ t, c.get? t.name = some t ∧ t.name = name ∧ d = .ofTemplate id t target := by
  obtain ⟨t, ht, rfl⟩ := Option.map_eq_some_iff.1 h
  have hname : t.name = name := by simpa using List.find?_some ht
  exact ⟨t, hname ▸ ht, hname, rfl⟩

/-! ## What a deed waits for -/

/-- The questions on behalf of a deed, in the order in which they come up. -/
inductive Stage where
  | resolution
  | verification
  | reverification
  deriving DecidableEq, Repr

/-- The stage that a finding ends. -/
def Finding.stage : Finding → Stage
  | .resolved .. => .resolution
  | .verified .. => .verification
  | .reverified .. => .reverification

/-- The news that the check before the start of a deed is met. -/
def Finding.starts (id : DeedId) : Finding → Prop
  | .verified deed (.checked v) => deed = id ∧ v.isMet
  | _ => False

namespace Engine

/-- A deed waits for the end of a stage. -/
def Awaits (e : Engine) (id : DeedId) : Stage → Prop
  | .resolution => ∃ i ∈ e.pending, i.deed.id = id ∧ i.deed.phase = .resolving
  | .verification => ∃ i ∈ e.pending, i.deed.id = id ∧ i.deed.phase = .verifying
  | .reverification => ∃ d ∈ e.tracker.deeds, d.id = id ∧ d.phase = .reverifying

/-- Hands a deed to the tracker, which takes hours from its first deed on. -/
def enrol (e : Engine) (d : Deed) : Run :=
  let registered : Engine := { e with tracker := e.tracker.register d }
  if e.tracker.isEmpty then registered.subscribe else (registered, [])

/-- One transition of one deed. -/
inductive Transition (e : Engine) : Option Finding → DeedId → List Output → Engine → Prop
  /-- There is no such action. -/
  | refuse (id : DeedId) (call : CallId) {name : String} {target : Target}
      (h : e.catalog.instantiate e.nextId name target = none) :
      Transition e none id
        [.publish (.action (.invocationFailed name target
            (InvocationError.unknownAction name).message)),
          .answer call (.error (.unknownAction name))] e
  /-- An invocation begins. -/
  | enter (call : CallId) (token : Token) {name : String} {target : Target} {d : Deed}
      (h : e.catalog.instantiate e.nextId name target = some d) :
      Transition e none d.id [.resolve d.id d.template.actorMode name target token]
        { e with nextId := e.nextId.next, pending := e.pending ++ [⟨d, token, call⟩] }
  /-- A pending deed is asked to stop. -/
  | fire {i : Invocation} (hi : i ∈ e.pending) :
      Transition e none i.deed.id [.fire i.token, .acknowledge i.deed.id (.ok ())] e
  | acknowledge (id : DeedId) (result : Except EngineError Unit) :
      Transition e none id [.acknowledge id result] e
  /-- An hour is over. -/
  | close (id : DeedId) (hour : Hour) (indicator repeatable : Nat) :
      Transition e none id
        [.publish (.tracker (.tickProcessed hour indicator repeatable))] e
  | unsubscribe (id : DeedId) : Transition e none id e.unsubscribe.2 e.unsubscribe.1
  /-- No deed waits for the finding. -/
  | ignore {f : Finding} (h : ¬ e.Awaits f.deed f.stage) : Transition e (some f) f.deed [] e
  /-- An invocation fails; a check that is met does not end so. -/
  | reject {f : Finding} {i : Invocation} (error : InvocationError) (hi : i ∈ e.pending)
      (hf : f.deed = i.deed.id) (hs : f.stage ≠ .reverification)
      (hv : ∀ v, f = .verified i.deed.id (.checked v) → v.isMet = false) :
      Transition e (some f) i.deed.id (e.reject i error).2 (e.reject i error).1
  /-- An actor is bound. -/
  | bind {i : Invocation} {actor : CharacterId} {d : Deed} (hi : i ∈ e.pending)
      (hfree : e.current? actor = none) (hd : i.deed.assign? actor = some d) :
      Transition e (some (.resolved i.deed.id (some actor))) i.deed.id
        [.verify i.deed.id d.freshConditions d.target i.token]
        { e.updatePending d with slots := e.slots ++ [(actor, i.deed.id)] }
  /-- An immediate deed begins and ends. -/
  | finish {i : Invocation} {v : Verdict} {d : Deed} {actor : CharacterId} (hi : i ∈ e.pending)
      (hmet : v.isMet) (hd : d = i.deed.recordVerification v.conditions true)
      (ha : d.actor = some actor) (hm : d.mode = .immediate) :
      Transition e (some (.verified i.deed.id (.checked v))) i.deed.id
        [.apply d.id actor .costs d.template.costs,
          .publish (.action (.started d.id d.name actor d.target d.mode)),
          .apply d.id actor .effects d.template.effects,
          .publish (.action (.completed d.id d.name d.target none)),
          .answer i.call (.ok (.ofDeed d.completeAtOnce.clear actor))]
        ((e.dropPending d.id).release d)
  /-- A deed begins and is tracked. -/
  | track {i : Invocation} {v : Verdict} {d : Deed} {actor : CharacterId} (hi : i ∈ e.pending)
      (hmet : v.isMet) (hd : d = i.deed.recordVerification v.conditions true)
      (ha : d.actor = some actor) (hm : d.mode ≠ .immediate) :
      Transition e (some (.verified i.deed.id (.checked v))) i.deed.id
        ([.apply d.id actor .costs d.template.costs,
            .publish (.action (.started d.id d.name actor d.target d.mode))]
          ++ (((e.dropPending d.id).enrol d.start).2
            ++ [.answer i.call (.ok (.ofDeed d.start actor))]))
        ((e.dropPending d.id).enrol d.start).1
  | progress {d d' : Deed} {rate current : Binary32} (hour : Hour) (hd : d ∈ e.tracker.deeds)
      (ha : d.advance rate = (d', .progressed current)) :
      Transition e none d.id
        [.publish (.action (.progressed d.id hour current d.template.progressIndicator))]
        (e.updateTracked d')
  /-- A deed completes and is over. -/
  | complete {d d' : Deed} {rate current : Binary32} {actor : CharacterId} (hour : Hour)
      (hd : d ∈ e.tracker.deeds) (ha : d.advance rate = (d', .completed current))
      (hactor : d.actor = some actor) (hm : d.mode ≠ .repeatable) :
      Transition e none d.id
        ([.publish (.action (.progressed d.id hour current d.template.progressIndicator)),
            .apply d.id actor .effects d.template.effects,
            .publish (.action (.completed d.id d.name d.target (some hour)))]
          ++ (e.dropTracked d).unsubscribeIfIdle.2)
        (e.dropTracked d).unsubscribeIfIdle.1
  /-- A deed completes and is checked again. -/
  | completeCycle {d d' : Deed} {rate current : Binary32} {actor : CharacterId} (hour : Hour)
      (hd : d ∈ e.tracker.deeds) (ha : d.advance rate = (d', .completed current))
      (hactor : d.actor = some actor) (hm : d.mode = .repeatable) :
      Transition e none d.id
        [.publish (.action (.progressed d.id hour current d.template.progressIndicator)),
          .apply d.id actor .effects d.template.effects,
          .reverify d.id d'.freshConditions d.target,
          .publish (.action (.completed d.id d.name d.target (some hour)))]
        (e.updateTracked d'.beginReverification)
  /-- The next cycle begins. -/
  | restart {d : Deed} {v : Verdict} {actor : CharacterId} (hd : d ∈ e.tracker.deeds)
      (hp : d.phase = .reverifying) (hmet : v.isMet) (hactor : d.actor = some actor) :
      Transition e (some (.reverified d.id (.checked v))) d.id
        [.apply d.id actor .costs d.template.costs,
          .publish (.action (.repeated d.id d.completions))]
        (e.updateTracked (d.recordVerification v.conditions true).restart)
  /-- A tracked deed ends early. -/
  | cancel {f : Option Finding} {d : Deed} {reason : CancelReason} (hd : d ∈ e.tracker.deeds)
      (hf : ∀ g, f = some g → g.deed = d.id ∧ g.stage = .reverification ∧ d.phase = .reverifying)
      (hr : f = none → reason = .stopped ∨ ∃ error, reason = .trackingFailed error) :
      Transition e f d.id
        (.publish (.action (.cancelled d.id d.name d.target reason))
          :: (e.dropTracked d).unsubscribeIfIdle.2)
        (e.dropTracked d).unsubscribeIfIdle.1

end Engine

end Deeds
