import Deeds.Proofs.Suspensions
import Deeds.Proofs.System.Inputs
import Deeds.Proofs.System.Marks

/-!
# Nothing runs unverified

A deed is begun, and its next cycle too, by a check that has found all of its conditions met.

* `System.Reverifying` : the check after the latest completion of a deed is on its way;
  `System.reverifying_run` : so is every check between two cycles that is on its way;
* `Transition.of_unmet` : a check that is not met ends its deed, and nothing is applied;
* `System.runs_vetted` : the marks of all deeds, and what the costs of a deed are paid for.
-/

namespace Deeds

open Engine (Taking Transition asked)

namespace Engine

variable {e e' : Engine} {f : Option Finding} {g : Finding} {id j : DeedId} {outputs : List Output}
  {o : Output}

/-! ## Checks between two cycles -/

/-- Only a deed that progresses completes in an hour. -/
theorem Transition.of_completed (h : Transition e none j outputs e') (ho : o ∈ outputs)
    (hc : o.isCompleted id) : ∃ d ∈ e.tracker.deeds, d.id = id ∧ d.phase = .pending := by
  obtain rfl : id = j := by
    by_contra hne
    rw [isCompleted_of_silent (h.not_advances_of_ne hne o ho)] at hc
    cases hc
  have absurd_of_silent {p : Prop} (hnone : ∀ x ∈ outputs, x.isCompleted id = false) : p := by
    rw [hnone o ho] at hc
    cases hc
  have hourly {x : Output} (hx : x.isHourly) : x.isCompleted id = false :=
    isCompleted_of_silent (x.advances_of_isHourly hx)
  cases h with
  | refuse => exact absurd_of_silent (by simp [Output.isCompleted])
  | enter => exact absurd_of_silent (by simp [Output.isCompleted])
  | fire => exact absurd_of_silent (by simp [Output.isCompleted])
  | acknowledge => exact absurd_of_silent (by simp [Output.isCompleted])
  | close => exact absurd_of_silent (by simp [Output.isCompleted])
  | unsubscribe => exact absurd_of_silent fun x hx => hourly (isHourly_of_mem_unsubscribe hx)
  | progress => exact absurd_of_silent (by simp [Output.isCompleted])
  | complete hour hd ha => exact ⟨_, hd, rfl, (Deed.advance_eq_completed ha).1⟩
  | completeCycle hour hd ha => exact ⟨_, hd, rfl, (Deed.advance_eq_completed ha).1⟩
  | cancel =>
    refine absurd_of_silent (List.forall_mem_cons.2 ⟨rfl, fun x hx => ?_⟩)
    exact hourly (isHourly_of_mem_unsubscribeIfIdle hx)

/-- Until the answer to a check between two cycles is taken, its deed waits for it and completes no
further cycle, or is gone. -/
theorem Transition.reverifying (hs : e.Sound) (h : Transition e f j outputs e')
    (hx : e.Expects id .reverification) (hf : ∀ g, f = some g → g.deed ≠ id) :
    e'.Expects id .reverification ∧ ∀ o ∈ outputs, o.isCompleted id = false := by
  rcases hx with ⟨d, hd, rfl, hp⟩ | ⟨-, hg⟩
  · refine ⟨?_, fun o ho => Bool.eq_false_iff.2 fun hc => ?_⟩
    · rcases h.cycle_stays hs hd hp hf with hd | hg
      · exact .inl ⟨d, hd, rfl, hp⟩
      · exact .inr ⟨rfl, hg⟩
    · cases f with
      | some g =>
        have hne : d.id ≠ j := fun heq => hf g rfl (h.deed_finding.trans heq.symm)
        rw [isCompleted_of_silent (h.not_advances_of_ne hne o ho)] at hc
        cases hc
      | none =>
        obtain ⟨x, hx, hid, hpending⟩ := h.of_completed ho hc
        rw [deed_unique hs.nodup (Sound.tracked_mem hx) (Sound.tracked_mem hd) hid, hp] at hpending
        cases hpending
  · exact ⟨.inr ⟨rfl, hg.transition hs h⟩,
      fun o ho => isCompleted_of_silent (hg.not_advances h o ho)⟩

theorem not_completed_of_chain (hs : e.Sound) (hx : e.Expects id .reverification)
    (h : Chain (Taking (·.deed ≠ id)) e outputs e') : ∀ o ∈ outputs, o.isCompleted id = false := by
  refine (history_of_chain (Q := fun said e => e.Expects id .reverification ∧
    ∀ o ∈ said, o.isCompleted id = false) ?_ hs ⟨hx, fun _ h => nomatch h⟩ h).2
  rintro said e f j outputs e' hs ⟨hx, hsaid⟩ hf ht
  obtain ⟨hx', houtputs⟩ := ht.reverifying hs hx hf
  exact ⟨hx', List.forall_mem_append.2 ⟨hsaid, houtputs⟩⟩

/-- A check between two cycles is begun by a completion, and by nothing that is taken. -/
theorem Transition.of_reverify (h : Transition e f j outputs e')
    (hmem : (id, .reverification) ∈ asked outputs) :
    f = none ∧ ∃ o ∈ outputs, o.isCompleted id := by
  have absurd_of_nil {p : Prop} (hnil : asked outputs = []) : p := by
    rw [hnil] at hmem
    cases hmem
  cases h with
  | refuse => exact absurd_of_nil rfl
  | enter => cases List.mem_singleton.1 hmem
  | fire => exact absurd_of_nil rfl
  | acknowledge => exact absurd_of_nil rfl
  | close => exact absurd_of_nil rfl
  | unsubscribe => exact absurd_of_nil asked_unsubscribe
  | ignore => exact absurd_of_nil rfl
  | reject => exact absurd_of_nil rfl
  | bind => cases List.mem_singleton.1 hmem
  | finish => exact absurd_of_nil rfl
  | track =>
    rw [asked_append, asked_append, asked_enrol] at hmem
    cases hmem
  | progress => exact absurd_of_nil rfl
  | complete =>
    rw [asked_append, asked_unsubscribeIfIdle] at hmem
    cases hmem
  | @completeCycle d d' rate current actor hour hd =>
    obtain ⟨rfl, -⟩ := Prod.mk.inj (List.mem_singleton.1 hmem)
    exact ⟨rfl, .publish (.action (.completed d.id d.name d.target (some hour))), by simp,
      decide_eq_true rfl⟩
  | restart => exact absurd_of_nil rfl
  | cancel => exact absurd_of_nil asked_unsubscribeIfIdle

theorem completed_of_asked {P : Finding → Prop} (hs : e.Sound) (h : Chain (Taking P) e outputs e')
    (hmem : (id, .reverification) ∈ asked outputs) : ∃ o ∈ outputs, o.isCompleted id := by
  refine history_of_chain (Q := fun said _ => (id, .reverification) ∈ asked said →
    ∃ o ∈ said, o.isCompleted id) ?_ hs (fun h => nomatch h) h hmem
  intro said e f j outputs e' hs hsaid _ ht hmem
  rw [asked_append] at hmem
  rcases List.mem_append.1 hmem with hmem | hmem
  · obtain ⟨o, ho, hc⟩ := hsaid hmem
    exact ⟨o, List.mem_append_left _ ho, hc⟩
  · obtain ⟨-, o, ho, hc⟩ := ht.of_reverify hmem
    exact ⟨o, List.mem_append_right _ ho, hc⟩

/-! ## Checks that are not met -/

/-- A check that is not met applies nothing and ends its deed. -/
theorem Transition.of_unmet (hs : e.Sound) (h : Transition e (some g) id outputs e')
    (hx : e.Expects g.deed g.stage) (hstage : g.stage ≠ .resolution)
    (hunmet : ∀ v, g.verdict? = some v → v.isMet = false) :
    outputs.filterMap Output.application? = [] ∧ e'.Gone g.deed := by
  have absurd_of_met {p : Prop} {v : Verdict} (hv : g.verdict? = some v) (hmet : v.isMet) : p := by
    rw [hunmet v hv] at hmet
    cases hmet
  cases h with
  | ignore hnot =>
    rcases hx with hw | ⟨-, hg⟩
    · exact absurd hw hnot
    · exact ⟨rfl, hg⟩
  | reject error hi hf =>
    rw [hf]
    exact ⟨rfl, (update_dropPending hs hi rfl rfl).isGone (hs.id_lt _ (Sound.deed_mem hi))⟩
  | bind => exact absurd rfl hstage
  | finish hi hmet => exact absurd_of_met rfl hmet
  | track hi hmet => exact absurd_of_met rfl hmet
  | restart hd hp hmet => exact absurd_of_met rfl hmet
  | cancel hd hf =>
    rw [(hf g rfl).1]
    refine ⟨List.filterMap_eq_nil_iff.2 (List.forall_mem_cons.2 ⟨rfl, fun o ho => ?_⟩),
      (update_dropTracked hs hd).isGone (hs.id_lt _ (Sound.tracked_mem hd))⟩
    have hhourly := isHourly_of_mem_unsubscribeIfIdle ho
    cases o with
    | apply => cases hhourly
    | _ => rfl

end Engine

namespace System

variable {start s t : System} {moves : List Move} {m : Move} {id : DeedId} {p : DeedId × Stage}
  {f : Finding} {outputs : List Output}

/-! ## The check after the latest completion -/

/-- In one of the moves the deed completed, and a check was begun for it while nothing else was on
its way; since then the deed has not completed, nothing was asked for it, and no finding of it was
taken. So what is on its way for the deed is the answer to that check. -/
def Reverifying (start : System) (moves : List Move) (id : DeedId) : Prop :=
  ∃ before m after, moves = before ++ m :: after ∧
    let s := (start.run before).1
    let t := (s.step m).1
    (∃ o ∈ (s.step m).2, o.isCompleted id) ∧ (id, .reverification) ∈ asked (s.step m).2 ∧
      id ∉ s.onWay.map Prod.fst ∧ Takes (·.deed ≠ id) t after ∧
      (∀ o ∈ (t.run after).2, o.isCompleted id = false) ∧
      id ∉ (asked (t.run after).2).map Prod.fst

/-- The check is on its way until a finding of the deed is taken. -/
theorem Reverifying.concat (h : Reverifying start moves id)
    (hm : ∀ f, (start.run moves).1.taken? m = some f → f.deed ≠ id)
    (hcompleted : ∀ o ∈ ((start.run moves).1.step m).2, o.isCompleted id = false)
    (hasked : id ∉ (asked ((start.run moves).1.step m).2).map Prod.fst) :
    Reverifying start (moves ++ [m]) id := by
  obtain ⟨before, x, after, rfl, hx, hreverify, hnone, htakes, hsilent, hquiet⟩ := h
  rw [run_split] at hm hcompleted hasked
  refine ⟨before, x, after ++ [m], by rw [List.append_assoc, List.cons_append], hx, hreverify,
    hnone, takes_concat.2 ⟨htakes, hm⟩, ?_, ?_⟩
  · rw [run_concat]
    exact List.forall_mem_append.2 ⟨hsilent, hcompleted⟩
  · rw [run_concat, Engine.asked_append, List.map_append, List.mem_append, not_or]
    exact ⟨hquiet, hasked⟩

/-- Of what is on its way, each answer was so before or was just asked for, and nothing else is for
its deed. -/
theorem mem_onWay_append {onWay more : List (DeedId × Stage)}
    (hn : ((onWay ++ more).map Prod.fst).Nodup) (hp : p ∈ onWay ++ more) :
    (p ∈ onWay ∧ p.1 ∉ more.map Prod.fst) ∨ (p ∈ more ∧ p.1 ∉ onWay.map Prod.fst) := by
  rw [List.map_append, List.nodup_append] at hn
  obtain ⟨-, -, hdisjoint⟩ := hn
  rcases List.mem_append.1 hp with hp | hp
  · exact .inl ⟨hp, fun hmem => hdisjoint _ (List.mem_map_of_mem hp) _ hmem rfl⟩
  · exact .inr ⟨hp, fun hmem => hdisjoint _ hmem _ (List.mem_map_of_mem hp) rfl⟩

/-- What is on its way after a move was so before, and is not for the deed whose finding was taken;
or it was just asked for. -/
theorem mem_onWay_step (hs : s.Sound) (hp : p ∈ (s.step m).1.onWay) :
    (p ∈ s.onWay ∧ (∀ f, s.taken? m = some f → f.deed ≠ p.1) ∧
        p.1 ∉ (asked (s.step m).2).map Prod.fst) ∨
      (p ∈ asked (s.step m).2 ∧ (s.taken? m = none → p.1 ∉ s.onWay.map Prod.fst)) := by
  have hmakes := makes_step hs m
  have hn := (hmakes.sound hs).expected.nodup
  cases htaken : s.taken? m with
  | some f =>
    cases m with
    | take index =>
      rw [show s.step (.take index) = _ from take_of_some htaken] at hp hn ⊢
      rw [onWay_deliver] at hp hn
      rcases mem_onWay_append hn hp with ⟨hp, hasked⟩ | ⟨hp, -⟩
      · refine .inl ⟨(onWay_take htaken).mem_iff.2 (List.mem_cons_of_mem _ hp), ?_, hasked⟩
        rintro g hg heq
        cases hg
        exact not_onWay_taken hs htaken (heq ▸ List.mem_map_of_mem hp)
      · exact .inr ⟨hp, nofun⟩
    | _ => cases htaken
  | none =>
    generalize (s.step m).1 = t at hp hn hmakes ⊢
    generalize (s.step m).2 = outputs at hmakes ⊢
    cases hmakes with
    | input ticks hf =>
      rw [onWay_deliver] at hp hn
      rcases mem_onWay_append hn hp with ⟨hp, hasked⟩ | ⟨hp, hnone⟩
      · exact .inl ⟨hp, nofun, hasked⟩
      · exact .inr ⟨hp, fun _ => hnone⟩
    | take hindex => exact absurd (hindex.symm.trans htaken) nofun
    | proceed h => exact .inl ⟨h.onWay.mem_iff.1 hp, nofun, List.not_mem_nil⟩
    | lose deed =>
      refine .inl ⟨?_, nofun, List.not_mem_nil⟩
      rcases List.mem_append.1 hp with hp | hp
      · exact List.mem_append_left _ hp
      · obtain ⟨w, hw, rfl⟩ := List.mem_map.1 hp
        exact List.mem_append_right _ (List.mem_map_of_mem (List.mem_filter.1 hw).1)

/-- No finding is taken in a move that begins a check between two cycles. -/
theorem taken?_of_reverify (hs : s.Sound) (h : (id, .reverification) ∈ asked (s.step m).2) :
    s.taken? m = none := by
  cases htaken : s.taken? m with
  | none => rfl
  | some f =>
    have hnone := ((transition_of_finding hs htaken).of_reverify h).1
    cases hnone

/-- Every answer between two cycles that is on its way is that to the check after the latest
completion of its deed. -/
theorem reverifying_run (hs : start.Sound) (hnone : start.onWay = []) (moves : List Move)
    (h : (id, .reverification) ∈ (start.run moves).1.onWay) : Reverifying start moves id := by
  induction moves using List.reverseRecOn with
  | nil =>
    rw [show (start.run []).1.onWay = [] from hnone] at h
    cases h
  | append_singleton moves m ih =>
    have hs : (start.run moves).1.Sound := run_sound hs moves
    rw [run_concat] at h
    -- the check was on its way and its deed still waits for it, or the move has begun it
    rcases mem_onWay_step hs h with ⟨hold, hdeed, hasked⟩ | ⟨hnew, hfresh⟩
    · refine (ih hold).concat hdeed ?_ hasked
      exact Engine.not_completed_of_chain hs.sound (hs.expected.expects _ hold)
        (((makes_step hs m).chain hs).mono fun _ _ _ ht => ht.mono hdeed)
    · have hcompleted := Engine.completed_of_asked hs.sound ((makes_step hs m).chain hs) hnew
      exact ⟨moves, m, [], rfl, hcompleted, hnew, hfresh (taken?_of_reverify hs hnew), trivial,
        fun _ h => (nomatch h), List.not_mem_nil⟩

/-! ## Costs and checks -/

/-- The finding that a move takes is expected. -/
theorem expects_of_taken? (hs : s.Sound) (h : s.taken? m = some f) :
    s.engine.Expects f.deed f.stage := by
  cases m with
  | take index => exact expects_taken hs h
  | _ => cases h

/-- A verdict on a live deed is on a pending one before its start, or on a tracked one between two
cycles. -/
theorem stage_of_taken? (hs : s.Sound) (h : s.taken? m = some f) {v : Verdict}
    (hv : f.verdict? = some v) (hlive : f.deed ∈ s.engine.ids) :
    (f.deed ∈ s.engine.pendingIds ∧ f.stage = .verification) ∨
      (f.deed ∈ s.engine.tracker.order ∧ f.stage = .reverification) := by
  have hawaits : s.engine.Awaits f.deed f.stage :=
    (expects_of_taken? hs h).resolve_right fun hg => hg.2.2 hlive
  cases f with
  | resolved => cases hv
  | verified id =>
    obtain ⟨i, hi, hid, -⟩ := hawaits
    exact .inl ⟨Engine.mem_pendingIds.2 ⟨i, hi, hid⟩, rfl⟩
  | reverified id =>
    obtain ⟨d, hd, hid, -⟩ := hawaits
    exact .inr ⟨Tracker.mem_order.2 ⟨d, hd, hid⟩, rfl⟩

theorem onWay_of_taken? (h : s.taken? m = some f) : (f.deed, f.stage) ∈ s.onWay :=
  onWay_of_finished (mem_of_taken? h)

/-- Nothing is applied for a deed that is gone. -/
theorem not_applied_of_gone (hs : s.Sound) (hg : s.engine.Gone id) (moves : List Move)
    (actor : CharacterId) (what : Application) (effects : List Effect) :
    .apply id actor what effects ∉ (s.run moves).2 := by
  intro hmem
  have hnone : ∀ o ∈ (s.run moves).2, o.advances id = false :=
    (Engine.history_of_chain (Q := fun said e => e.Gone id ∧ ∀ o ∈ said, o.advances id = false)
      (fun hs hq _ ht => ⟨hq.1.transition hs ht,
        List.forall_mem_append.2 ⟨hq.2, hq.1.not_advances ht⟩⟩) hs.sound
      ⟨hg, fun _ h => nomatch h⟩ (chain_of_run hs moves)).2
  have hadvances := hnone _ hmem
  rw [show (Output.apply id actor what effects).advances id = true from decide_eq_true rfl]
    at hadvances
  cases hadvances

/-- After any moves, in any order:
* every tracked deed was found possible, has the requirements of its template in their order, and
  all of them are marked; every pending deed was not found possible yet, has the same requirements,
  and none of them is marked;
* the catalog is the one at the start, and nothing is marked in a catalog of definitions;
* when a move applies the costs of a deed, it takes a finding of that deed, with a verdict on the
  requirements of its template that marks all of them: the answer to the check before the start of a
  pending deed, or of a tracked one, that to the check after its latest completion;
* a move that takes the end of a check that took too long, was cancelled, or is not met, applies
  nothing at all; and nothing is applied for the deed of that check in any later move. -/
theorem runs_vetted (catalog : Catalog) (world : World) (clock : Clock) (bus : Bus)
    (moves : List Move) :
    let start := ofParts catalog world clock bus
    let s := (start.run moves).1
    (∀ d ∈ s.engine.tracker.deeds, catalog.get? d.name = some d.template ∧ d.isPossible = true ∧
      requirements d.conditions = requirements d.template.conditions ∧ AllMarked d.conditions) ∧
    (∀ i ∈ s.engine.pending, catalog.get? i.deed.name = some i.deed.template ∧
      i.deed.isPossible = false ∧
      requirements i.deed.conditions = requirements i.deed.template.conditions ∧
      Unmarked i.deed.conditions) ∧
    (s.engine.catalog = catalog ∧ ∀ definitions, Catalog.load definitions = .ok catalog →
      ∀ t ∈ s.engine.catalog.templates, Unmarked t.conditions) ∧
    (∀ m id actor costs, .apply id actor .costs costs ∈ (s.step m).2 →
      ∃ f v t, s.taken? m = some f ∧ f.deed = id ∧ f.verdict? = some v ∧
        (∃ d ∈ s.engine.deeds, d.id = id ∧ d.template = t) ∧ costs = t.costs ∧
        requirements v.conditions = requirements t.conditions ∧ AllMarked v.conditions ∧
        ((id ∈ s.engine.pendingIds ∧ f.stage = .verification) ∨
          (id ∈ s.engine.tracker.order ∧ f.stage = .reverification ∧
            Reverifying start moves id))) ∧
    ∀ m f, s.taken? m = some f → f.stage ≠ .resolution →
      (∀ v, f.verdict? = some v → v.isMet = false) →
        (∀ id actor what effects, .apply id actor what effects ∉ (s.step m).2) ∧
        ∀ later actor what effects,
          .apply f.deed actor what effects ∉ ((s.step m).1.run later).2 := by
  intro start s
  have hstart : start.Sound := sound_ofParts catalog world clock bus
  have hs : s.Sound := run_sound hstart moves
  have hcatalog : s.engine.catalog = catalog :=
    Engine.catalog_of_chain hstart.sound (chain_of_run hstart moves)
  have hsure : AllSure start moves := sure_run catalog world clock bus moves
  have hmarked : start.Marked := ⟨fun _ h => (nomatch h), fun _ h => nomatch h⟩
  have hvetted : start.engine.Vetted := ⟨fun _ h => (nomatch h), fun _ h => nomatch h⟩
  obtain ⟨hchecks, hmarks⟩ := vetted_run hstart hmarked hvetted moves
  have htemplate : ∀ d ∈ s.engine.deeds, catalog.get? d.name = some d.template := by
    rw [← hcatalog]
    exact hs.sound.template
  refine ⟨fun d hd => ?_, fun i hi => ?_, ⟨hcatalog, fun definitions hload => ?_⟩,
    fun m id actor costs happly => ?_, fun m f htaken hstage hunmet => ?_⟩
  · have hcleared := hmarks.tracked d hd
    have hdeed := Engine.Sound.tracked_mem hd
    exact ⟨htemplate d hdeed, hcleared.isPossible, hsure.faithful d hdeed, hcleared.conditions⟩
  · have hunvetted := hmarks.pending i hi
    have hdeed := Engine.Sound.deed_mem hi
    exact ⟨htemplate _ hdeed, hunvetted.isPossible, hsure.faithful _ hdeed, hunvetted.conditions⟩
  · rw [hcatalog]
    exact Catalog.unmarked_load hload
  · obtain ⟨f, v, d, -, htaken, hv, hmet, hdeed, hd, hid, hcosts, -⟩ := taken_of_costs hs happly
    have hf : f ∈ s.finished := mem_of_taken? htaken
    have hchecked := (hsure.finished f hf v hv).checks.eq d hd (hid.trans hdeed.symm)
    refine ⟨f, v, d.template, htaken, hdeed, hv, ⟨d, hd, hid, rfl⟩, hcosts, hchecked,
      hchecks.finished f hf v hv hmet, ?_⟩
    have honWay : (f.deed, f.stage) ∈ s.onWay := onWay_of_taken? htaken
    rcases stage_of_taken? hs htaken hv (hdeed ▸ Engine.mem_ids.2 ⟨d, hd, hid⟩)
      with hpending | ⟨htracked, hstage⟩
    · exact .inl (hdeed ▸ hpending)
    · rw [hdeed, hstage] at honWay
      exact .inr ⟨hdeed ▸ htracked, hstage, reverifying_run hstart rfl moves honWay⟩
  · obtain ⟨hnone, hgone⟩ := (transition_of_finding hs htaken).of_unmet hs.sound
      (expects_of_taken? hs htaken) hstage hunmet
    refine ⟨fun id actor what effects hmem => ?_, not_applied_of_gone ((makes_step hs m).sound hs)
      hgone⟩
    cases (List.filterMap_eq_nil_iff.1 hnone) _ hmem

end System

end Deeds
