import Deeds.Proofs.Account

/-!
# Costs and effects are applied as often as the life of a deed says

* `Engine.account_after_cancelled` : after a deed was cancelled nothing is applied for it;
* `System.applications_exact` : the account of every deed after any moves.
-/

namespace Deeds

open Engine (Taking Transition)

namespace Engine

variable {e e' : Engine} {f : Option Finding} {id j : DeedId} {outputs xs ys : List Output}
  {name : String} {target : Target} {reason : CancelReason} {P : Finding → Prop}

/-- A deed that is cancelled was tracked and is gone, and nothing but the end of all hours may
follow. -/
theorem Transition.of_cancelled (hs : e.Sound) (h : Transition e f j outputs e')
    (hmem : Output.publish (.action (.cancelled id name target reason)) ∈ outputs) :
    id ∈ e.tracker.order ∧ e'.Gone id ∧
      ∃ c hours, outputs = c :: hours ∧ ∀ o ∈ hours, o.isHourly := by
  cases h with
  | cancel hd =>
    have hgone := (update_dropTracked hs hd).isGone (hs.id_lt _ (Sound.tracked_mem hd))
    rcases List.mem_cons.1 hmem with heq | hmem
    · cases heq
      exact ⟨Tracker.mem_order.2 ⟨_, hd, rfl⟩, hgone, _, _, rfl,
        fun _ => isHourly_of_mem_unsubscribeIfIdle⟩
    · exact absurd hmem action_not_mem_unsubscribeIfIdle
  | unsubscribe => simp at hmem
  | track => simp at hmem
  | complete => simp at hmem
  | refuse => simp at hmem
  | enter => simp at hmem
  | fire => simp at hmem
  | acknowledge => simp at hmem
  | close => simp at hmem
  | ignore => simp at hmem
  | reject => simp [Engine.reject] at hmem
  | bind => simp at hmem
  | finish => simp at hmem
  | progress => simp at hmem
  | completeCycle => simp at hmem
  | restart => simp at hmem

/-- Nothing that counts follows the cancellation of a deed in the outputs of a transition. -/
theorem Transition.account_after_cancelled (hs : e.Sound) (h : Transition e f j outputs e')
    (heq : outputs = xs ++ .publish (.action (.cancelled id name target reason)) :: ys) :
    account id ys = .blank ∧ e'.Gone id := by
  have hmem : Output.publish (.action (.cancelled id name target reason)) ∈ outputs := by
    rw [heq]
    exact List.mem_append_right _ List.mem_cons_self
  obtain ⟨-, hgone, c, hours, hcons, hhours⟩ := h.of_cancelled hs hmem
  refine ⟨account_of_isHourly fun o ho => hhours o ?_, hgone⟩
  rw [hcons] at heq
  cases xs with
  | nil =>
    obtain ⟨-, rfl⟩ := List.cons.inj heq
    exact ho
  | cons x xs =>
    obtain ⟨-, rfl⟩ := List.cons.inj heq
    exact List.mem_append_right _ (List.mem_cons_of_mem _ ho)

/-- Nothing is applied for a deed after it was cancelled. -/
theorem account_after_cancelled (hs : e.Sound) (h : Chain (Taking P) e outputs e')
    (heq : outputs = xs ++ .publish (.action (.cancelled id name target reason)) :: ys) :
    account id ys = .blank := by
  have hstart : ∀ xs ys, [] = xs ++ .publish (.action (.cancelled id name target reason)) :: ys →
      account id ys = .blank ∧ e.Gone id := fun xs ys h => by simp at h
  refine (history_of_chain (Q := fun said e => ∀ xs ys,
    said = xs ++ .publish (.action (.cancelled id name target reason)) :: ys →
      account id ys = .blank ∧ e.Gone id) ?_ hs hstart h xs ys heq).1
  intro said e f j more e' hs hsaid _ ht xs ys heq
  -- the cancellation is said by this transition, or was said before
  rcases List.append_eq_append_iff.1 heq with ⟨xs', -, hmore⟩ | ⟨ys', hsaid', hys⟩
  · exact ht.account_after_cancelled hs hmore
  · cases ys' with
    | nil => exact ht.account_after_cancelled hs (show more = [] ++ _ :: ys from hys.symm)
    | cons c ys' =>
      rw [List.cons_append] at hys
      obtain ⟨rfl, rfl⟩ := List.cons.inj hys
      obtain ⟨hblank, hgone⟩ := hsaid xs ys' hsaid'
      refine ⟨?_, hgone.transition hs ht⟩
      rw [account_append, hblank, account_eq_blank (hgone.not_advances ht), Account.add_blank]

end Engine

namespace System

variable {s : System} {id : DeedId}

theorem mem_starts {outputs : List Output} {action : String} {actor : CharacterId} {target : Target}
    {mode : ExecutionMode}
    (h : Output.publish (.action (.started id action actor target mode)) ∈ outputs) :
    (action, actor) ∈ (account id outputs).starts :=
  List.mem_filterMap.2 ⟨_, h, if_pos rfl⟩

/-- After any moves, in any order, and for every number:
* nothing was applied for a deed that was never started; a pending deed never was, and a rejection
  applies nothing for it and ends it;
* a deed that was started, was so once, by one actor and as an action of the catalog; its costs were
  applied once for that and once for every `repeated`, its effects once for every `completed`,
  always as the whole list and on behalf of that actor;
* the actor of a tracked deed is the one that started it, the deed counts the applications of its
  effects, and its costs were applied once more than that while it progresses, and as often while
  its next cycle is in question;
* the account of a deed that is gone stays as it is, whatever happens later;
* nothing follows the cancellation of a deed in its account, and a request to stop applies nothing;
* the engine changes the world by applications only, so none is taken back. -/
theorem applications_exact (catalog : Catalog) (world : World) (clock : Clock) (bus : Bus)
    (moves : List Move) (id : DeedId) :
    let s := ((ofParts catalog world clock bus).run moves).1
    let outputs := ((ofParts catalog world clock bus).run moves).2
    let a := account id outputs
    (a.starts = [] → a.costs = [] ∧ a.effects = [] ∧ a.repeated = 0 ∧ a.completed = 0) ∧
    (∀ i ∈ s.engine.pending, i.deed.id = id → a = .blank ∧
      ∀ error, account id (outputs ++ (s.engine.reject i error).2) = .blank ∧
        id ∉ (s.engine.reject i error).1.ids) ∧
    (∀ action actor target mode,
      .publish (.action (.started id action actor target mode)) ∈ outputs →
        a.starts = [(action, actor)] ∧ ∃ t, catalog.get? action = some t ∧
          a.costs = List.replicate (1 + a.repeated) (actor, t.costs) ∧
          a.effects = List.replicate a.completed (actor, t.effects)) ∧
    (∀ d ∈ s.engine.tracker.deeds, d.id = id →
      (∃ actor, d.actor = some actor ∧ a.starts = [(d.name, actor)]) ∧
        d.completions = a.effects.length ∧
        (d.phase = .pending → a.costs.length = d.completions + 1) ∧
        (d.phase = .reverifying → a.costs.length = d.completions)) ∧
    (id.val < s.engine.nextId.val → id ∉ s.engine.ids →
      ∀ later, account id (outputs ++ (s.run later).2) = a) ∧
    (∀ before after name target reason,
      outputs = before ++ .publish (.action (.cancelled id name target reason)) :: after →
        account id after = .blank) ∧
    (∀ j, (s.step (.stop j)).2.filterMap Output.application? = [] ∧
      (s.step (.stop j)).1.world = s.world) ∧
    ∀ input, (s.deliver input).1.world =
      applied s.world ((s.deliver input).2.filterMap Output.application?) := by
  intro s outputs a
  have hsound := sound_ofParts catalog world clock bus
  have hs : s.Sound := run_sound hsound moves
  have hchain : Chain (Taking fun _ => True) (.ofCatalog catalog) outputs s.engine :=
    run_chain hsound takes_true
  have hbooked : s.engine.Booked id a := Engine.booked_of_chain hchain id
  have hcatalog : s.engine.catalog = catalog := Engine.catalog_of_chain hsound.sound hchain
  refine ⟨fun hnone => ?_, fun i hi hid => ?_,
    fun action actor target mode hmem => ?_, fun d hd hid => ?_, fun hlt hnot later => ?_,
    fun before after name target reason heq => ?_, fun j => ⟨stop_applies_nothing s.engine j, ?_⟩,
    world_deliver⟩
  · rw [hbooked.blank_of_starts hnone]
    exact ⟨rfl, rfl, rfl, rfl⟩
  · have hblank : a = .blank := hbooked.of_pending hs.sound hi hid
    refine ⟨hblank, fun error => ⟨?_, ?_⟩⟩
    · show account id (outputs ++ _) = _
      rw [account_append, show account id outputs = .blank from hblank]
      rfl
    · subst hid
      exact (Engine.update_dropPending hs.sound hi rfl rfl).not_mem_ids
  · obtain ⟨t, rfl, ha⟩ := hbooked.charged_of_starts (mem_starts hmem)
    exact ⟨ha.starts, t, hcatalog ▸ ha.template, ha.costs, ha.effects⟩
  · subst hid
    exact hbooked.counts_of_deed hs.sound hd
  · rw [account_append, Engine.Gone.account_of_chain hs.sound ⟨hlt, hnot⟩
      (run_chain hs takes_true), Account.add_blank]
  · exact Engine.account_after_cancelled hsound.sound hchain heq
  · show (s.deliver (.stop j)).1.world = s.world
    rw [world_deliver]
    show applied s.world ((s.engine.stop j).2.filterMap Output.application?) = s.world
    rw [stop_applies_nothing]
    rfl

end System

end Deeds
