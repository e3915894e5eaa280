import Deeds.Proofs.Engine.Origin
import Deeds.Proofs.Engine.Step

/-!
# Pending deeds

A deed is pending from its call on, under the token and the call that it came with, until its check
is met or its invocation fails; then it is never pending again.

* `Engine.Settled` : no longer pending, with `Settled.transition`, `Settled.chain`;
* `Transition.of_pending` : token and call of a pending deed never change;
* `Engine.failure?` : the error with which a finding ends an invocation; `take_eq_reject` and
  `failure_of_answer` say that the engine answers with this error and no other;
* `Engine.forget` : the engine without a deed's invocation and slot; a rejection leaves just that
  (`forget_reject`).
-/

namespace Deeds.Engine

variable {e e' : Engine} {f : Option Finding} {g : Finding} {id j : DeedId} {outputs : List Output}
  {i k : Invocation} {d : Deed} {error : InvocationError} {P : Finding → Prop}

/-! ## From the call on -/

/-- A pending deed was so before, under the same token and call, or was just called for. -/
theorem Transition.of_pending (hs : e.Sound) (h : Transition e f id outputs e')
    (hk : k ∈ e'.pending) :
    (∃ i ∈ e.pending, i.deed.id = k.deed.id ∧ i.token = k.token ∧ i.call = k.call) ∨
      k.deed.id = e.nextId := by
  cases (h.origins hs).pending k hk with
  | kept hi => exact .inl ⟨k, hi, rfl, rfl, rfl⟩
  | entered => exact .inr rfl
  | @bound i _ _ hi hd =>
    obtain ⟨-, rfl⟩ := Deed.assign?_eq_some hd
    exact .inl ⟨i, hi, rfl, rfl, rfl⟩

/-- The number was given to a deed that is no longer pending. -/
def Settled (e : Engine) (id : DeedId) : Prop := id.val < e.nextId.val ∧ id ∉ e.pendingIds

/-- No deed becomes pending again. -/
theorem Settled.transition (hs : e.Sound) (h : e.Settled id) (ht : Transition e f j outputs e') :
    e'.Settled id := by
  refine ⟨Nat.lt_of_lt_of_le h.1 (ht.sameOthers hs).nextId, fun hmem => ?_⟩
  obtain ⟨k, hk, hid⟩ := mem_pendingIds.1 hmem
  rcases ht.of_pending hs hk with ⟨i, hi, hik, -⟩ | hnext
  · exact h.2 (mem_pendingIds.2 ⟨i, hi, hik.trans hid⟩)
  · have := h.1
    rw [← hid, hnext] at this
    exact Nat.lt_irrefl _ this

theorem Settled.chain (hs : e.Sound) (h : e.Settled id) (hc : Chain (Taking P) e outputs e') :
    e'.Settled id :=
  invariant_of_chain (Q := fun e => e.Settled id) (fun hs h _ ht => h.transition hs ht) hs h hc

/-- A deed that is pending at last was pending, or its number was not yet given. -/
theorem not_settled_of_chain (hs : e.Sound) (hc : Chain (Taking P) e outputs e')
    (hmem : id ∈ e'.pendingIds) : ¬ e.Settled id :=
  fun h => (h.chain hs hc).2 hmem

/-! ## How an invocation fails -/

/-- The error with which a finding ends an invocation, if it does. -/
def failure? (e : Engine) (i : Invocation) : Finding → Option InvocationError
  | .resolved _ none => some (.resolutionCancelled i.deed.name)
  | .resolved _ (some actor) => (e.current? actor).map (.actorBusy actor)
  | .verified _ .cancelled => some (.stopped i.deed.name)
  | .verified _ .timedOut => some (.verificationTimedOut i.deed.name)
  | .verified _ (.checked v) => if v.isMet then none else some (.conditionsNotMet i.deed.name)
  | .reverified .. => none

theorem take_eq_reject (hs : e.Sound) (hi : i ∈ e.pending) (hg : g.deed = i.deed.id)
    (h : e.failure? i g = some error) : e.take g = e.reject i error := by
  have hfind : ∀ id, id = i.deed.id → e.pending? id = some i := fun id hid =>
    (pending?_eq_some_iff hs.nodup).2 ⟨hi, hid.symm⟩
  cases g with
  | resolved id actor =>
    rw [take, resolved, hfind id hg]
    cases actor with
    | none =>
      cases h
      rfl
    | some actor =>
      obtain ⟨current, hcurrent, rfl⟩ := Option.map_eq_some_iff.1 h
      simp only [hcurrent]
  | verified id outcome =>
    rw [take, verified, hfind id hg]
    cases outcome with
    | cancelled =>
      cases h
      rfl
    | timedOut =>
      cases h
      rfl
    | checked v =>
      rw [failure?] at h
      split at h
      · cases h
      · cases h
        simp only [if_neg ‹_›]
  | reverified => cases h

@[simp] theorem answer_not_mem_unsubscribeIfIdle {call : CallId}
    {result : Except InvocationError Receipt} :
    Output.answer call result ∉ e.unsubscribeIfIdle.2 := fun h => by
  cases isHourly_of_mem_unsubscribeIfIdle h

@[simp] theorem answer_not_mem_enrol {call : CallId} {result : Except InvocationError Receipt} :
    Output.answer call result ∉ (e.enrol d).2 := fun h => by
  cases isHourly_of_mem_enrol h

/-- A finding answers no call with an error but that of a pending deed that it is about. -/
theorem Transition.of_error {call : CallId} (h : Transition e (some g) id outputs e')
    (hmem : Output.answer call (.error error) ∈ outputs) :
    ∃ k ∈ e.pending, k.deed.id = id ∧ k.call = call := by
  cases h with
  | reject error' hi =>
    obtain ⟨rfl, -⟩ : call = _ ∧ error = error' := by simpa [Engine.reject] using hmem
    exact ⟨_, hi, rfl, rfl⟩
  | ignore => simp at hmem
  | bind => simp at hmem
  | finish => simp at hmem
  | track => simp at hmem
  | restart => simp at hmem
  | cancel => simp at hmem

/-- Of all other inputs only a call for an action is answered with an error. -/
theorem of_error_step {call : CallId} {rates : CharacterId → Option Binary32} {input : Input}
    (hf : ∀ f, input ≠ .finding f) (hmem : .answer call (.error error) ∈ (e.step rates input).2) :
    ∃ name target token, input = .invoke call name target token := by
  cases input with
  | invoke call' name target token =>
    rw [step, invoke] at hmem
    cases h : e.catalog.instantiate e.nextId name target with
    | none =>
      rw [h] at hmem
      obtain ⟨rfl, -⟩ : call = call' ∧ error = .unknownAction name := by simpa using hmem
      exact ⟨name, target, token, rfl⟩
    | some d =>
      rw [h] at hmem
      simp at hmem
  | stop id =>
    have hno : .answer call (.error error) ∉ (e.stop id).2 := by
      unfold stop
      cases e.pending? id with
      | some i => simp
      | none => cases e.tracker.find? id <;> simp [cancelTracked, Run.andThen]
    exact absurd hmem hno
  | finding f => exact absurd rfl (hf f)
  | tick hour =>
    have houtputs := tick_outputs rates hour _ hmem
    simp [Output.isHourly, Output.deed?] at houtputs
  | clockClosed => cases isHourly_of_mem_unsubscribe hmem

/-- A met check that a deed waits for answers no call with an error. -/
theorem Transition.not_error_of_met {v : Verdict} {call : CallId}
    (h : Transition e (some (.verified id (.checked v))) j outputs e')
    (hw : e.Awaits id .verification) (hmet : v.isMet) :
    Output.answer call (.error error) ∉ outputs := by
  intro hmem
  cases h with
  | ignore hnot => exact hnot hw
  | reject error' hi hf hs hv =>
    rw [hv v (by rw [← hf]; rfl)] at hmet
    cases hmet
  | finish => simp at hmem
  | track => simp at hmem
  | cancel hd hf => cases (hf _ rfl).2.1

/-- A finding that ends no invocation answers no call with an error. -/
theorem not_error_of_failure?_eq_none (hs : e.Sound) (hi : i ∈ e.pending) (hg : g.deed = i.deed.id)
    (hw : e.Awaits g.deed g.stage) (h : e.failure? i g = none) {call : CallId} :
    Output.answer call (.error error) ∉ (e.take g).2 := by
  have hfind : ∀ id, id = i.deed.id → e.pending? id = some i := fun id hid =>
    (pending?_eq_some_iff hs.nodup).2 ⟨hi, hid.symm⟩
  cases g with
  | resolved id actor =>
    cases actor with
    | none => cases h
    | some actor =>
      have hfree : e.current? actor = none := Option.map_eq_none_iff.1 h
      rw [take, resolved, hfind id hg]
      simp [hfree]
  | verified id outcome =>
    cases outcome with
    | cancelled => cases h
    | timedOut => cases h
    | checked v =>
      rw [failure?] at h
      split at h
      · exact (verified_transition hs hw).not_error_of_met hw ‹_›
      · cases h
  | reverified id outcome =>
    obtain ⟨d, hd, hid, -⟩ := hw
    exact absurd (hg.symm.trans hid.symm) (hs.id_ne hi hd)

/-- When a finding of a pending deed makes the engine answer with an error, it is the error that the
finding stands for, the call is the deed's, and the engine does nothing but reject it. -/
theorem failure_of_answer (hs : e.Sound) (hi : i ∈ e.pending) (hg : g.deed = i.deed.id)
    (hw : e.Awaits g.deed g.stage) {call : CallId}
    (hmem : Output.answer call (.error error) ∈ (e.take g).2) :
    call = i.call ∧ e.failure? i g = some error ∧ e.take g = e.reject i error := by
  cases hfail : e.failure? i g with
  | none => exact absurd hmem (not_error_of_failure?_eq_none hs hi hg hw hfail)
  | some error' =>
    have htake := take_eq_reject hs hi hg hfail
    rw [htake] at hmem
    obtain ⟨rfl, rfl⟩ : call = i.call ∧ error = error' := by simpa [Engine.reject] using hmem
    exact ⟨rfl, rfl, htake⟩

/-! ## The engine without a deed -/

/-- The engine without the invocation and the slot of a deed. -/
def forget (e : Engine) (id : DeedId) : Engine :=
  { e with
    pending := e.pending.filter (·.deed.id != id)
    slots := e.slots.filter (·.2 != id) }

/-- A release changes nothing but slots. -/
theorem release_eq : e.release d = { e with slots := (e.release d).slots } := by
  unfold release
  split <;> rfl

/-- The slots of a live deed are the one that its release takes. -/
theorem slots_release (hs : e.Sound) (hd : d ∈ e.deeds) :
    (e.release d).slots = e.slots.filter (·.2 != d.id) := by
  have hslot : ∀ p ∈ e.slots, p.2 = d.id → d.actor = some p.1 := by
    rintro ⟨a, k⟩ hp rfl
    exact (hs.mem_slots_iff hd).1 hp
  unfold release
  cases ha : d.actor with
  | none =>
    refine (List.filter_eq_self.2 fun p hp => ?_).symm
    rw [bne_iff_ne]
    intro hid
    have := hslot p hp hid
    rw [ha] at this
    cases this
  | some actor =>
    refine List.filter_congr fun p hp => ?_
    by_cases hid : p.2 = d.id
    · have hactor : p.1 = actor := by
        have := hslot p hp hid
        rw [ha] at this
        exact (Option.some.inj this).symm
      have heq : p = (actor, d.id) := Prod.ext hactor hid
      simp [heq]
    · have hne : p ≠ (actor, d.id) := fun h => hid (congrArg Prod.snd h)
      rw [bne_iff_ne.2 hid, bne_iff_ne.2 hne]

/-- A rejection leaves the engine without the deed, and otherwise as it was. -/
theorem forget_reject (hs : e.Sound) (hi : i ∈ e.pending) (error : InvocationError) :
    (e.reject i error).1 = e.forget i.deed.id := by
  have hslots : ((e.dropPending i.deed.id).release i.deed).slots = (e.release i.deed).slots := by
    unfold release
    split <;> rfl
  show (e.dropPending i.deed.id).release i.deed = _
  rw [release_eq, hslots, slots_release hs (Sound.deed_mem hi)]
  rfl

/-- Nothing is to be forgotten of a deed that is not pending and has no slot. -/
theorem forget_eq_self (hs : e.Sound) (h : id ∉ e.ids) : e.forget id = e := by
  have hpending : e.pending.filter (·.deed.id != id) = e.pending := by
    refine List.filter_eq_self.2 fun k hk => ?_
    rw [bne_iff_ne]
    intro hid
    exact h (List.mem_append_left _ (mem_pendingIds.2 ⟨k, hk, hid⟩))
  have hslots : e.slots.filter (·.2 != id) = e.slots := by
    refine List.filter_eq_self.2 fun p hp => ?_
    rw [bne_iff_ne]
    intro hid
    obtain ⟨x, hx, hxid, -⟩ := (hs.mem_slots p.1 p.2).1 hp
    exact h (mem_ids.2 ⟨x, hx, hxid.trans hid⟩)
  rw [forget, hpending, hslots]

theorem forget_forget : (e.forget id).forget id = e.forget id := by
  simp only [forget, List.filter_filter, Bool.and_self]

/-- A new invocation changes nothing but the next number, apart from itself. -/
theorem forget_enter {next : DeedId} :
    forget { e with nextId := next, pending := e.pending ++ [i] } i.deed.id
      = { e.forget i.deed.id with nextId := next } := by
  simp only [forget, List.filter_append, List.filter_cons, bne_self_eq_false, List.filter_nil,
    Bool.false_eq_true, if_false, List.append_nil]

/-- A deed that gets its actor changes nothing apart from itself. -/
theorem forget_bind {actor : CharacterId} :
    forget { e.updatePending d with slots := e.slots ++ [(actor, d.id)] } d.id = e.forget d.id := by
  have hpending : (e.updatePending d).pending.filter (·.deed.id != d.id)
      = e.pending.filter (·.deed.id != d.id) := by
    rw [updatePending]
    generalize e.pending = l
    induction l with
    | nil => rfl
    | cons k l ih =>
      rw [List.map_cons, List.filter_cons, List.filter_cons, ih]
      by_cases hid : k.deed.id = d.id <;> simp [hid]
  have hslots : (e.slots ++ [(actor, d.id)]).filter (·.2 != d.id)
      = e.slots.filter (·.2 != d.id) := by
    simp only [List.filter_append, List.filter_cons, bne_self_eq_false, List.filter_nil,
      Bool.false_eq_true, if_false, List.append_nil]
  simp only [forget, hpending, hslots]
  rfl

theorem Sound.Update.not_pending {t : Option Deed} (h : Sound.Update e id none t e') :
    id ∉ e'.pendingIds := by
  intro hmem
  obtain ⟨k, hk, hid⟩ := Engine.mem_pendingIds.1 hmem
  rcases (h.mem_pending k).1 hk with hk | hk
  · exact hk.2 hid
  · cases hk

/-- A finding after which its deed is still pending changes nothing else, and applies nothing. -/
theorem Transition.of_still_pending (hs : e.Sound) (h : Transition e (some g) id outputs e')
    (hmem : id ∈ e.pendingIds) (hlater : id ∈ e'.pendingIds) :
    e'.forget id = e.forget id ∧ e'.nextId = e.nextId ∧ e'.tracker = e.tracker ∧
      ∀ deed actor what effects, Output.apply deed actor what effects ∉ outputs := by
  have htracked : ∀ d ∈ e.tracker.deeds, d.id ≠ id := fun d hd hid =>
    not_mem_order_of_pending hs.nodup hmem (Tracker.mem_order.2 ⟨d, hd, hid⟩)
  cases h with
  | ignore => exact ⟨rfl, rfl, rfl, by simp⟩
  | reject error hi => exact absurd hlater (update_dropPending hs hi rfl rfl).not_pending
  | bind hi hfree hd =>
    obtain ⟨-, rfl⟩ := Deed.assign?_eq_some hd
    exact ⟨forget_bind, rfl, rfl, by simp⟩
  | finish hi hmet hd => exact absurd hlater (update_finish hs hi hd).not_pending
  | track hi hmet hd ha hm => exact absurd hlater (update_track hs hi hd ha hm).not_pending
  | restart hd => exact absurd rfl (htracked _ hd)
  | cancel hd => exact absurd rfl (htracked _ hd)

end Deeds.Engine
