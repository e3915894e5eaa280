import Deeds.Proofs.Engine.Step

/-!
# What stops and hours leave alone

A request to stop and an hour are about deeds that run. Whatever they do to these, every invocation
stays as it is and unanswered, and hours are taken on just as long as a deed is tracked.

* `Output.ends` : the outputs that end an invocation;
* `Tracker.IsListening` : hours are taken if and only if a deed is tracked;
* `Engine.Aside` : a run that is aside from all invocations;
* `Engine.stop_aside`, `Engine.tick_aside` : so are stops and hours.
-/

namespace Deeds

/-- An output that ends an invocation: the answer, or the event that tells of it. -/
def Output.ends : Output → Bool
  | .answer .. => true
  | .publish (.action (.started ..)) => true
  | .publish (.action (.invocationFailed ..)) => true
  | _ => false

theorem Output.ends_of_isHourly {o : Output} (h : o.isHourly) : o.ends = false := by
  obtain rfl | rfl | ⟨_, rfl⟩ := cases_of_isHourly h <;> rfl

namespace Tracker

variable {t : Tracker} {d : Deed} {id : DeedId}

/-- Hours are taken if and only if a deed is tracked. -/
def IsListening (t : Tracker) : Prop := t.subscribed = !t.isEmpty

theorem isEmpty_iff : t.isEmpty ↔ t.deeds = [] := by
  simp [isEmpty, deeds]

@[simp] theorem isEmpty_update : (t.update d).isEmpty = t.isEmpty := by
  simp only [isEmpty, update, List.isEmpty_map]

/-- Without its deeds an empty tracker is empty. -/
theorem isEmpty_remove (h : t.isEmpty) : (t.remove id).isEmpty := by
  rw [isEmpty_iff] at h ⊢
  refine List.eq_nil_iff_forall_not_mem.2 fun x hx => ?_
  rw [mem_deeds_remove, h] at hx
  cases hx.1

theorem isEmpty_register (h : d.mode ≠ .immediate) : (t.register d).isEmpty = false := by
  rw [Bool.eq_false_iff]
  intro hempty
  have hd : d ∈ (t.register d).deeds := (mem_deeds_register h).2 (.inr rfl)
  rw [isEmpty_iff.1 hempty] at hd
  cases hd

@[simp] theorem subscribed_register : (t.register d).subscribed = t.subscribed := by
  unfold register
  split <;> rfl

end Tracker

namespace Engine

variable {e : Engine} {r : Run} {d : Deed} {id : DeedId}

/-! ## Subscriptions -/

@[simp] theorem subscribed_subscribe : e.subscribe.1.tracker.subscribed = true := by
  unfold subscribe
  split
  · assumption
  · rfl

@[simp] theorem subscribed_unsubscribe : e.unsubscribe.1.tracker.subscribed = false := by
  unfold unsubscribe
  split
  · rfl
  · rename_i h
    exact Bool.eq_false_iff.2 h

theorem SameDeeds.isEmpty_eq {e' : Engine} (h : SameDeeds e e') :
    e'.tracker.isEmpty = e.tracker.isEmpty := by
  rw [Tracker.isEmpty, Tracker.isEmpty, h.indicator, h.repeatable]

@[simp] theorem subscribed_dropTracked :
    (e.dropTracked d).tracker.subscribed = e.tracker.subscribed := by
  rw [dropTracked, release_tracker]
  rfl

/-- A deed that leaves the tracker ends the hours if it is the last one. -/
theorem isListening_dropTracked (h : e.tracker.IsListening) (d : Deed) :
    (e.dropTracked d).unsubscribeIfIdle.1.tracker.IsListening := by
  have hremove : e.tracker.isEmpty → (e.dropTracked d).tracker.isEmpty := by
    rw [dropTracked, release_tracker]
    exact Tracker.isEmpty_remove
  unfold unsubscribeIfIdle
  split
  · rename_i hidle
    rw [Tracker.IsListening, subscribed_unsubscribe, sameDeeds_unsubscribe.isEmpty_eq, hidle]
    rfl
  · rename_i hidle
    rw [Tracker.IsListening, subscribed_dropTracked, h, Bool.eq_false_iff.2 hidle,
      Bool.eq_false_iff.2 (mt hremove hidle)]

/-- A deed that is handed to the tracker begins the hours if it is the first one. -/
theorem isListening_enrol (h : e.tracker.IsListening) (hm : d.mode ≠ .immediate) :
    (e.enrol d).1.tracker.IsListening := by
  have hempty : (e.enrol d).1.tracker.isEmpty = false :=
    sameDeeds_enrol.isEmpty_eq.trans (Tracker.isEmpty_register hm)
  rw [Tracker.IsListening, hempty]
  unfold enrol
  dsimp only
  split
  · exact subscribed_subscribe
  · rename_i hbusy
    rw [Tracker.subscribed_register, h, Bool.eq_false_iff.2 hbusy]

/-! ## Runs aside from invocations -/

theorem silent_of_any {outputs : List Output} (h : outputs.any Output.ends = false) :
    ∀ o ∈ outputs, o.ends = false :=
  fun o ho => Bool.eq_false_iff.2 (List.any_eq_false.1 h o ho)

/-- A run that is aside from all invocations: it begins none and ends none, and it keeps the
subscription in step with the tracked deeds. -/
structure Aside (e : Engine) (r : Run) : Prop where
  pending : r.1.pending = e.pending
  nextId : r.1.nextId = e.nextId
  silent : ∀ o ∈ r.2, o.ends = false
  listening : e.tracker.IsListening → r.1.tracker.IsListening

theorem Aside.of_silent {outputs : List Output} (h : ∀ o ∈ outputs, o.ends = false) :
    Aside e (e, outputs) := ⟨rfl, rfl, h, id⟩

theorem Aside.andThen {g : Engine → Run} (h : Aside e r) (hg : Aside r.1 (g r.1)) :
    Aside e (r.andThen g) where
  pending := hg.pending.trans h.pending
  nextId := hg.nextId.trans h.nextId
  silent := List.forall_mem_append.2 ⟨h.silent, hg.silent⟩
  listening hl := hg.listening (h.listening hl)

theorem updateTracked_aside {outputs : List Output} (h : ∀ o ∈ outputs, o.ends = false) :
    Aside e (e.updateTracked d, outputs) where
  pending := rfl
  nextId := rfl
  silent := h
  listening hl := hl.trans (congrArg not Tracker.isEmpty_update.symm)

/-- A tracked deed is gone, and hours may be over. -/
theorem dropTracked_aside {outputs : List Output} (h : ∀ o ∈ outputs, o.ends = false) :
    Aside e (Run.andThen (e.dropTracked d, outputs) unsubscribeIfIdle) where
  pending := by
    show (e.dropTracked d).unsubscribeIfIdle.1.pending = _
    rw [sameDeeds_unsubscribeIfIdle.pending, dropTracked, release_pending]
  nextId := by
    show (e.dropTracked d).unsubscribeIfIdle.1.nextId = _
    rw [sameDeeds_unsubscribeIfIdle.nextId, dropTracked, release_nextId]
  silent := List.forall_mem_append.2
    ⟨h, fun o ho => o.ends_of_isHourly (isHourly_of_mem_unsubscribeIfIdle ho)⟩
  listening hl := isListening_dropTracked hl d

theorem cancelTracked_aside (reason : CancelReason) : Aside e (e.cancelTracked d reason) :=
  dropTracked_aside (silent_of_any rfl)

theorem complete_aside (actor : CharacterId) (hour : Hour) : Aside e (e.complete d actor hour) := by
  unfold complete
  dsimp only
  split
  · exact updateTracked_aside (silent_of_any rfl)
  · exact dropTracked_aside (silent_of_any rfl)

theorem advance_aside (rate : Binary32) (hour : Hour) : Aside e (e.advance d rate hour) := by
  unfold advance
  obtain ⟨d', step⟩ := d.advance rate
  cases step with
  | skipped => exact .of_silent (by simp)
  | progressed current => exact updateTracked_aside (silent_of_any rfl)
  | completed current =>
    refine (updateTracked_aside (silent_of_any rfl)).andThen ?_
    dsimp only
    split
    · exact complete_aside _ hour
    · exact .of_silent (by simp)

theorem visit_aside (rates : CharacterId → Option Binary32) (hour : Hour) (id : DeedId) :
    Aside e (e.visit rates hour id) := by
  unfold visit
  split
  · exact .of_silent (by simp)
  · split
    · exact cancelTracked_aside _
    · exact advance_aside _ hour

theorem visitAll_aside (rates : CharacterId → Option Binary32) (hour : Hour) (ids : List DeedId) :
    Aside e (e.visitAll rates hour ids) := by
  induction ids generalizing e with
  | nil => exact .of_silent (by simp)
  | cons id rest ih => exact (visit_aside rates hour id).andThen ih

theorem tick_aside (rates : CharacterId → Option Binary32) (hour : Hour) :
    Aside e (e.tick rates hour) :=
  (visitAll_aside rates hour _).andThen (.of_silent (silent_of_any rfl))

theorem stop_aside (id : DeedId) : Aside e (e.stop id) := by
  unfold stop
  split
  · exact .of_silent (silent_of_any rfl)
  · split
    · exact (cancelTracked_aside _).andThen (.of_silent (silent_of_any rfl))
    · exact .of_silent (silent_of_any rfl)

end Engine

end Deeds
