import Deeds.Proofs.System.Sound

/-!
# One answer for each deed

Every deed that waits has exactly one answer on the way, and an answer that nobody waits for does
nothing.

* `System.stages` : the answers on their way for a deed;
* `System.deliver_stale`, `System.take_stale` : an answer that comes too late changes nothing;
* `Transition.cycle_stays` : a deed that is checked between two cycles stays in its cycle until the
  answer is taken;
* `System.one_suspension` : after any moves, what is on the way for each deed.
-/

namespace Deeds

open Engine (Taking Transition NoneLost)

/-! ## Deeds between two cycles -/

namespace Engine

variable {e e' : Engine} {f : Option Finding} {id : DeedId} {outputs : List Output} {d : Deed}

/-- A deed between two cycles stays as it is until its answer is taken, or is gone. -/
theorem Transition.cycle_stays (hs : e.Sound) (h : Transition e f id outputs e')
    (hd : d ∈ e.tracker.deeds) (hp : d.phase = .reverifying)
    (hf : ∀ g, f = some g → g.deed ≠ d.id) : d ∈ e'.tracker.deeds ∨ e'.Gone d.id := by
  by_cases hid : d.id = id
  · -- the transition is one of the deed's own, and only a pending deed progresses
    have hsame : ∀ x ∈ e.tracker.deeds, x.id = id → x.phase = .reverifying := fun x hx hxid => by
      rw [deed_unique hs.nodup (Sound.tracked_mem hx) (Sound.tracked_mem hd) (hxid.trans hid.symm)]
      exact hp
    cases f with
    | some g => exact absurd (h.deed_finding.trans hid.symm) (hf g rfl)
    | none =>
      cases h with
      | refuse => exact .inl hd
      | enter => exact .inl hd
      | fire => exact .inl hd
      | acknowledge => exact .inl hd
      | close => exact .inl hd
      | unsubscribe => exact .inl (by rwa [sameDeeds_unsubscribe.tracked])
      | progress hour hx ha =>
        have hpending := (Deed.advance_eq_progressed ha).1
        rw [hsame _ hx rfl] at hpending
        cases hpending
      | complete hour hx ha =>
        have hpending := (Deed.advance_eq_completed ha).1
        rw [hsame _ hx rfl] at hpending
        cases hpending
      | completeCycle hour hx ha =>
        have hpending := (Deed.advance_eq_completed ha).1
        rw [hsame _ hx rfl] at hpending
        cases hpending
      | cancel hx =>
        rw [hid]
        exact .inr ((update_dropTracked hs hx).isGone (hs.id_lt _ (Sound.tracked_mem hx)))
  · exact .inl (((h.sameOthers hs).tracked d hid).2 hd)

/-- Until its answer is taken, a deed between two cycles stays in its cycle. -/
theorem cycle_stays_chain (hs : e.Sound) (hp : d.phase = .reverifying)
    (hd : d ∈ e.tracker.deeds) (h : Chain (Taking (·.deed ≠ d.id)) e outputs e') :
    d ∈ e'.tracker.deeds ∨ e'.Gone d.id := by
  refine invariant_of_chain (Q := fun e => d ∈ e.tracker.deeds ∨ e.Gone d.id) ?_ hs (.inl hd) h
  intro e f id outputs e' hs hd hf h
  rcases hd with hd | hg
  · exact h.cycle_stays hs hd hp hf
  · exact .inr (hg.transition hs h)

/-- Only the answer to a check begins a cycle, the next one of the deed that was checked. -/
theorem Transition.of_repeated (h : Transition e f id outputs e') {j : DeedId} {n : Nat}
    (hmem : Output.publish (.action (.repeated j n)) ∈ outputs) :
    f.isSome ∧ ∃ d ∈ e.tracker.deeds, d.id = j ∧ n = d.completions := by
  cases h with
  | restart hd =>
    refine ⟨rfl, _, hd, ?_⟩
    simp only [List.mem_cons, reduceCtorEq, Output.publish.injEq, Event.action.injEq,
      ActionEvent.repeated.injEq, List.not_mem_nil, or_false, false_or] at hmem
    exact ⟨hmem.1.symm, hmem.2⟩
  | unsubscribe => simp at hmem
  | track => simp at hmem
  | complete => simp at hmem
  | cancel => simp at hmem
  | refuse => simp at hmem
  | enter => simp at hmem
  | fire => simp at hmem
  | acknowledge => simp at hmem
  | close => simp at hmem
  | ignore => simp at hmem
  | reject => simp [Engine.reject] at hmem
  | bind => simp at hmem
  | finish => simp at hmem
  | progress => simp at hmem
  | completeCycle => simp at hmem

end Engine

/-- The values of a key, when each key has one. -/
theorem values_of_mem {α β : Type} [DecidableEq α] {l : List (α × β)} (hn : (l.map Prod.fst).Nodup)
    {a : α} {b : β} (h : (a, b) ∈ l) : (l.filter (·.1 = a)).map Prod.snd = [b] := by
  have hp := (perm_cons_filter hn h).filter (·.1 = a)
  have hrest : (l.filter (fun p => p.1 != a)).filter (·.1 = a) = [] := by
    rw [List.filter_eq_nil_iff]
    intro p hp
    simpa [bne_iff_ne] using (List.mem_filter.1 hp).2
  rw [List.filter_cons, if_pos (by simp), hrest] at hp
  rw [List.perm_singleton.1 hp]
  rfl

namespace System

/-- The answers on their way for a deed. -/
def stages (s : System) (id : DeedId) : List Stage := (s.onWay.filter (·.1 = id)).map Prod.snd

variable {s : System} {id : DeedId} {stage : Stage} {d : Deed}

theorem stages_of_mem (hs : s.Sound) (h : (id, stage) ∈ s.onWay) : s.stages id = [stage] :=
  values_of_mem hs.expected.nodup h

theorem stages_of_awaits (hs : s.Sound) (hnone : NoneLost s.engine s.onWay)
    (h : s.engine.Awaits id stage) : s.stages id = [stage] :=
  stages_of_mem hs (hnone id stage h)

theorem stages_of_pending (hs : s.Sound) (hd : d ∈ s.engine.tracker.deeds)
    (hp : d.phase = .pending) : s.stages d.id = [] := by
  rw [stages, List.map_eq_nil_iff, List.filter_eq_nil_iff]
  intro p hmem hid
  have hx := hs.expected.expects p hmem
  rw [of_decide_eq_true hid] at hx
  exact Engine.not_expects_of_pending hs.sound hd hp hx

/-- An answer for a deed that is gone is one to a check between two cycles. -/
theorem stale_of_not_mem (hs : s.Sound) {p : DeedId × Stage} (hp : p ∈ s.onWay)
    (hnot : p.1 ∉ s.engine.ids) : p.2 = .reverification ∧ s.engine.Gone p.1 := by
  rcases hs.expected.expects p hp with hw | h
  · exact absurd (Engine.mem_ids_of_awaits hs.sound hw) hnot
  · exact h

/-- An answer for a deed that is not tracked changes nothing, whatever it is. -/
theorem deliver_stale (h : id ∉ s.engine.tracker.order) (outcome : Outcome) :
    s.deliver (.finding (.reverified id outcome)) = (s, []) := by
  have hstep : s.engine.step s.world.cast.rate (.finding (.reverified id outcome)) =
      (s.engine, []) := by
    show s.engine.reverified id outcome = _
    rw [Engine.reverified, Tracker.find?_eq_none_iff.2 h]
    rfl
  unfold deliver
  rw [hstep]
  rfl

theorem take_stale (hs : s.Sound) {index : Nat} {f : Finding} (h : s.finished[index]? = some f)
    (hnot : f.deed ∉ s.engine.ids) :
    s.take index = (s.without index, []) := by
  have hmem : (f.deed, f.stage) ∈ s.onWay := (onWay_take h).mem_iff.2 List.mem_cons_self
  have hstage := (stale_of_not_mem hs hmem hnot).1
  rw [take_of_some h]
  cases f with
  | resolved => cases hstage
  | verified => cases hstage
  | reverified id outcome =>
    exact deliver_stale (s := s.without index)
      (fun horder => hnot (List.mem_append_right _ horder)) outcome

/-- No move but taking a finding begins a cycle, and it is the next one of the deed as it is. -/
theorem Makes.completions_of_repeated {t : System} {outputs : List Output} {m : Move} {n : Nat}
    (hs : s.Sound) (hm : Makes s m t outputs)
    (h : Output.publish (.action (.repeated id n)) ∈ outputs) :
    ∃ d ∈ s.engine.tracker.deeds, d.id = id ∧ n = d.completions := by
  obtain ⟨index, f, -, -, ht⟩ := hm.taken_of_mem hs h fun ht hmem => nomatch (ht.of_repeated hmem).1
  exact (ht.of_repeated h).2

/-- Let no collaborator fail. After any moves, in any order,
* a pending deed has exactly one answer on the way: to the choice of an actor, or to the check
  before the start;
* a tracked deed has none while it progresses, and exactly one between two cycles;
* any other answer is one to a check between two cycles, for a deed that is gone; taking it changes
  nothing, whatever it is;
* until its answer is taken, a deed between two cycles stays as it is, or is gone for good; so the
  answer begins the next cycle of the one that asked, and never of a later one. -/
theorem one_suspension (catalog : Catalog) (world : World) (clock : Clock) (bus : Bus)
    (moves : List Move) (hlose : ∀ id, .lose id ∉ moves) :
    let s := ((ofParts catalog world clock bus).run moves).1
    (∀ i ∈ s.engine.pending,
      (i.deed.phase = .resolving ∧ i.deed.actor = none ∧ s.stages i.deed.id = [.resolution]) ∨
        (i.deed.phase = .verifying ∧ i.deed.actor.isSome ∧
          s.stages i.deed.id = [.verification])) ∧
    (∀ d ∈ s.engine.tracker.deeds,
      (d.phase = .pending ∧ s.stages d.id = []) ∨
        (d.phase = .reverifying ∧ s.stages d.id = [.reverification])) ∧
    (∀ p ∈ s.onWay, p.1 ∉ s.engine.ids → p.2 = .reverification ∧
      ∀ outcome, s.deliver (.finding (.reverified p.1 outcome)) = (s, [])) ∧
    (∀ index f, s.finished[index]? = some f → f.deed ∉ s.engine.ids →
      s.take index = (s.without index, [])) ∧
    ∀ d ∈ s.engine.tracker.deeds, d.phase = .reverifying →
      ∀ later, Takes (·.deed ≠ d.id) s later →
        let t := (s.run later).1
        (d ∈ t.engine.tracker.deeds ∨ ∀ more, d.id ∉ (t.run more).1.engine.ids) ∧
          ∀ m n, .publish (.action (.repeated d.id n)) ∈ (t.step m).2 → n = d.completions := by
  intro s
  have hs : s.Sound := run_sound (sound_ofParts catalog world clock bus) moves
  have hnone : NoneLost s.engine s.onWay :=
    run_noneLost (sound_ofParts catalog world clock bus)
      (noneLost_ofParts catalog world clock bus) hlose
  refine ⟨fun i hi => ?_, fun d hd => ?_, fun p hp hnot => ?_, fun index f h => take_stale hs h,
    fun d hd hphase later hlater => ?_⟩
  · rcases (hs.sound.starting i hi).1 with ⟨hphase, ha⟩ | ⟨hphase, ha⟩
    · exact .inl ⟨hphase, ha, stages_of_awaits hs hnone ⟨i, hi, rfl, hphase⟩⟩
    · exact .inr ⟨hphase, ha, stages_of_awaits hs hnone ⟨i, hi, rfl, hphase⟩⟩
  · rcases (hs.sound.running d hd).1 with hphase | ⟨hphase, -⟩
    · exact .inl ⟨hphase, stages_of_pending hs hd hphase⟩
    · exact .inr ⟨hphase, stages_of_awaits hs hnone ⟨d, hd, rfl, hphase⟩⟩
  · exact ⟨(stale_of_not_mem hs hp hnot).1,
      deliver_stale fun horder => hnot (List.mem_append_right _ horder)⟩
  · intro t
    have ht : t.Sound := run_sound hs later
    have hstay := Engine.cycle_stays_chain hs.sound hphase hd (run_chain hs hlater)
    have hgone : t.engine.Gone d.id → ∀ more, d.id ∉ (t.run more).1.engine.ids := fun hg more =>
      (hg.chain ht.sound (run_chain ht takes_true)).2
    refine ⟨hstay.imp_right hgone, fun m n hmem => ?_⟩
    obtain ⟨x, hx, hid, rfl⟩ := (makes_step ht m).completions_of_repeated ht hmem
    rcases hstay with hd | hg
    · rw [Engine.deed_unique ht.sound.nodup (Engine.Sound.tracked_mem hx)
        (Engine.Sound.tracked_mem hd) hid]
    · exact absurd (Engine.mem_ids.2 ⟨x, Engine.Sound.tracked_mem hx, hid⟩) hg.2

/-- After its first hour a watch waits for exactly one answer. -/
theorem one_suspension_watch :
    (∀ id, .lose id ∉ beginWatch ++ [.advanceClock, .takeTick]) ∧
      let s := (watchtower.run (beginWatch ++ [.advanceClock, .takeTick])).1
      ∃ d ∈ s.engine.tracker.deeds, d.phase = .reverifying ∧ s.stages d.id = [.reverification] := by
  have hlose : ∀ id, .lose id ∉ beginWatch ++ [.advanceClock, .takeTick] := by
    simp [beginWatch, callWatch]
  refine ⟨hlose, ?_⟩
  obtain ⟨d, hd, hphase⟩ : ∃ d ∈ (watchtower.run
      (beginWatch ++ [.advanceClock, .takeTick])).1.engine.tracker.deeds,
      d.phase = .reverifying := by decide +kernel
  have h := one_suspension watchCatalog watchWorld (.ofCapacity 4) (.ofCapacity 4) _ hlose
  rcases h.2.1 d hd with ⟨hpending, -⟩ | ⟨-, hstages⟩
  · rw [hphase] at hpending
    cases hpending
  · exact ⟨d, hd, hphase, hstages⟩

end System

end Deeds
