import Deeds.Proofs.Account
import Deeds.Proofs.System.Checks
import Deeds.Proofs.System.History

/-!
# What is known when costs are paid

A check reads one balance after the other, and the engine pays the costs when it takes the result;
nothing is read again then. So a payment rests on readings that may be out of date.

* `System.Reading` : a balance was read for the check that a deed still waits for;
* `System.Sure` : a check has the requirements of its deed, and all balances that it found high enough
  were read so; `System.sure_run` : after any moves all checks and verdicts are so;
* `System.payment_rests_on_readings` : the readings behind every payment;
* `System.raid_overdraws` : two deeds that are paid for by the same money.
-/

namespace Deeds

open Engine (Taking Transition)

/-! ## What effects do to a balance -/

namespace Effect

/-- The signed change of a balance by an effect. -/
def change (r : Resource) (e : Effect) : Int64 :=
  match e.resourceDelta with
  | some (changed, delta) => if changed = r then delta else 0
  | none => 0

/-- The signed change of a balance by some effects. -/
def changes (r : Resource) : List Effect → Int64
  | [] => 0
  | e :: rest => e.change r + changes r rest

theorem changes_append (r : Resource) (xs ys : List Effect) :
    changes r (xs ++ ys) = changes r xs + changes r ys := by
  induction xs with
  | nil => exact (Int64.zero_add _).symm
  | cons e rest ih => rw [List.cons_append, changes, ih, changes, Int64.add_assoc]

end Effect

theorem Treasury.balance_adjust (t : Treasury) (changed r : Resource) (delta : Int64) :
    (t.adjust changed delta).balance r = t.balance r + if changed = r then delta else 0 := by
  cases changed <;> cases r <;> first | rfl | exact (Int64.add_zero _).symm

namespace World

theorem treasury_applyStat (w : World) (actor : CharacterId) (c : StatChange) :
    (w.applyStat actor c).1.treasury = w.treasury := by
  unfold applyStat
  split
  · rfl
  · dsimp only
    split <;> rfl

theorem balance_applyOne (w : World) (actor : CharacterId) (e : Effect) (r : Resource) :
    (w.applyOne actor e).1.treasury.balance r = w.treasury.balance r + e.change r := by
  unfold applyOne Effect.change
  cases e.resourceDelta with
  | some p => exact Treasury.balance_adjust _ _ _ _
  | none =>
    dsimp only
    rw [Int64.add_zero]
    split
    · rw [treasury_applyStat]
    · rfl

/-- What a list of effects does to a balance. -/
theorem balance_applyAll (w : World) (actor : CharacterId) (effects : List Effect) (r : Resource) :
    (w.applyAll actor effects).1.treasury.balance r
      = w.treasury.balance r + Effect.changes r effects := by
  induction effects generalizing w with
  | nil => exact (Int64.add_zero _).symm
  | cons e rest ih =>
    show (((w.applyOne actor e).1).applyAll actor rest).1.treasury.balance r = _
    rw [ih, balance_applyOne, Effect.changes, Int64.add_assoc]

end World

namespace Question

variable {q : Question} {deed : DeedId} {f : Finding} {v : Verdict} {check : Check}
  {balance : Resource → Int64}

theorem check?_put : q.put.check? = q.check? := by
  cases q <;> rfl

/-- A question that is answered goes on with its check as it was, or supplied with the balance that it
waits for. -/
theorem check?_supply (h : (q.supply balance).check? = some check) :
    q.check? = some check ∨
      ∃ before target r, q.check? = some before ∧ q.awaits = some r ∧ before.awaits = some r ∧
        check = before.supply target (balance r) := by
  cases q with
  | actor => cases h
  | start before target token =>
    rw [supply] at h
    split at h
    · rename_i r hr
      cases h
      exact .inr ⟨before, target, r, rfl, hr, hr, rfl⟩
    · exact .inl h
  | again before target =>
    rw [supply] at h
    split at h
    · rename_i r hr
      cases h
      exact .inr ⟨before, target, r, rfl, hr, hr, rfl⟩
    · exact .inl h

theorem verdict?_cancelled : (q.cancelled deed).verdict? = none := by
  cases q <;> rfl

theorem verdict?_timedOut (h : q.timedOut deed = some f) : f.verdict? = none := by
  cases q with
  | actor => cases h
  | start => cases h; rfl
  | again => cases h; rfl

/-- A verdict is that of a finished check. -/
theorem check?_of_verdict? (h : q.finding? deed = some f) (hv : f.verdict? = some v) :
    q.check? = some (.finished v) := by
  have finished {check : Check} (hc : check.verdict? = some v) : check = .finished v := by
    cases check with
    | awaiting => cases hc
    | finished w =>
      cases hc
      rfl
  cases q with
  | actor => cases h
  | start check target token =>
    obtain ⟨w, hw, rfl⟩ := Option.map_eq_some_iff.1 h
    cases hv
    exact congrArg some (finished hw)
  | again check target =>
    obtain ⟨w, hw, rfl⟩ := Option.map_eq_some_iff.1 h
    cases hv
    exact congrArg some (finished hw)

end Question

namespace System

variable {start s t : System} {moves : List Move} {m : Move} {id : DeedId} {r : Resource}
  {value n : Int64} {check : Check} {f g : Finding} {w : Suspension} {outputs : List Output}
  {q q' : Question} {P : Finding → Prop}

/-! ## Readings -/

/-- The check of a deed waits for a balance, and is not cancelled. -/
def Reads (s : System) (id : DeedId) (r : Resource) : Prop :=
  ∃ q, s.question? id = some q ∧ ¬ s.isCancelled q ∧ q.awaits = some r

/-- In one of the moves a balance was read for the check of a deed, and no finding of the deed has been
taken since: the deed still waits for the result of that check. -/
def Reading (start : System) (moves : List Move) (id : DeedId) (r : Resource) (value : Int64) :
    Prop :=
  ∃ before after, moves = before ++ .answer id :: after ∧
    let s := (start.run before).1
    s.Reads id r ∧ value = s.world.treasury.balance r ∧
      Takes (·.deed ≠ id) (s.step (.answer id)).1 after

theorem takes_concat :
    Takes P s (moves ++ [m]) ↔ Takes P s moves ∧ ∀ f, (s.run moves).1.taken? m = some f → P f := by
  induction moves generalizing s with
  | nil => simp [Takes, run]
  | cons x moves ih =>
    rw [List.cons_append, Takes, Takes, ih, and_assoc]
    rfl

/-- A reading stands until a finding of the deed is taken. -/
theorem Reading.concat (h : Reading start moves id r value)
    (hm : ∀ f, (start.run moves).1.taken? m = some f → f.deed ≠ id) :
    Reading start (moves ++ [m]) id r value := by
  obtain ⟨before, after, rfl, hreads, hvalue, htakes⟩ := h
  refine ⟨before, after ++ [m], by rw [List.append_assoc, List.cons_append], hreads, hvalue,
    takes_concat.2 ⟨htakes, fun f hf => hm f ?_⟩⟩
  rw [run_append]
  exact hf

theorem Reading.of_reads (h : (start.run moves).1.Reads id r) :
    Reading start (moves ++ [.answer id]) id r ((start.run moves).1.world.treasury.balance r) :=
  ⟨moves, [], rfl, h, rfl, trivial⟩

/-! ## Checks that rest on readings -/

/-- A check that is under way for a deed, or over, has the requirements of the deed's template, and
every balance that it found high enough was read. -/
structure Sure (start : System) (moves : List Move) (id : DeedId) (check : Check) : Prop where
  checks : (start.run moves).1.engine.Checks id check.requirements
  grounded : check.Grounded fun r n => ∃ value, Reading start moves id r value ∧ n ≤ value

theorem checks_step (hs : s.Sound) {rs : List Requirement} (h : s.engine.Checks id rs) (m : Move) :
    (s.step m).1.engine.Checks id rs :=
  h.chain hs.sound ((makes_step hs m).chain hs)

/-- A check stands until a finding of the deed is taken. -/
theorem Sure.concat (hs : (start.run moves).1.Sound) (h : Sure start moves id check)
    (hm : ∀ f, (start.run moves).1.taken? m = some f → f.deed ≠ id) :
    Sure start (moves ++ [m]) id check where
  checks := by
    rw [run_concat]
    exact checks_step hs h.checks m
  grounded := h.grounded.mono fun r n ⟨value, hreading, hle⟩ => ⟨value, hreading.concat hm, hle⟩

/-- A check goes on by a reading. -/
theorem Sure.goes (hs : (start.run moves).1.Sound)
    (hq : (⟨id, q⟩ : Suspension) ∈ (start.run moves).1.waiting)
    (hc : ¬ (start.run moves).1.isCancelled q)
    (hsure : ∀ check, q.check? = some check → Sure start moves id check)
    (hgo : Goes (start.run moves).1 id q m q') (hcheck : q'.check? = some check) :
    Sure start (moves ++ [m]) id check := by
  cases hgo with
  | poll =>
    rw [Question.check?_put] at hcheck
    exact (hsure check hcheck).concat hs fun f hf => nomatch hf
  | answer =>
    rcases Question.check?_supply hcheck with hsame | ⟨before, target, r, hbefore, hq', hr, rfl⟩
    · exact (hsure check hsame).concat hs fun f hf => nomatch hf
    · have hold := (hsure before hbefore).concat (m := .answer id) hs fun f hf => nomatch hf
      refine ⟨?_, hold.grounded.supply hr fun n hn => ?_⟩
      · rw [Check.requirements_supply]
        exact hold.checks
      · exact ⟨_, .of_reads ⟨q, question?_of_mem hs hq, hc, hq'⟩, hn⟩

/-! ### All checks -/

/-- What a move does to deeds and questions, when all verdicts are on the requirements of their
deeds. -/
theorem Makes.checks (hs : s.Sound) (h : Makes s m t outputs) (hall : s.engine.Faithful)
    (hf : ∀ f ∈ s.finished, ∀ v, f.verdict? = some v →
      s.engine.Checks f.deed (requirements v.conditions)) :
    t.engine.Faithful ∧ ∀ w ∈ questions outputs, ∀ check, w.question.check? = some check →
      t.engine.Checks w.deed check.requirements ∧ ∀ R, check.Grounded R := by
  cases h with
  | input ticks hinput =>
    exact Engine.checks_chain (e := s.engine) hs.sound hall
      (deliver_own (s := { s with ticks }) hinput)
  | @take index f hindex =>
    have ht := take_transition hs hindex
    have hfaithful := hall.transition hs.sound ht fun g v hg hv => by
      cases hg
      exact hf f (List.mem_of_getElem? hindex) v hv
    exact ⟨hfaithful, fun w hw check hcheck => ht.checks_questions hs.sound hfaithful hw hcheck⟩
  | proceed hp =>
    rw [hp.engine]
    exact ⟨hall, fun w hw => nomatch hw⟩
  | lose => exact ⟨hall, fun w hw => nomatch hw⟩

/-- After some moves all deeds have the conditions of their templates, and all checks and verdicts rest
on readings. -/
structure AllSure (start : System) (moves : List Move) : Prop where
  faithful : (start.run moves).1.engine.Faithful
  waiting : ∀ w ∈ (start.run moves).1.waiting, ∀ check, w.question.check? = some check →
    Sure start moves w.deed check
  finished : ∀ f ∈ (start.run moves).1.finished, ∀ v, f.verdict? = some v →
    Sure start moves f.deed (.finished v)

/-- A move keeps all checks and verdicts resting on readings. -/
theorem AllSure.concat (hs : (start.run moves).1.Sound) (h : AllSure start moves) (m : Move) :
    AllSure start (moves ++ [m]) := by
  have htraced := traced_step (start.run moves).1 m
  obtain ⟨hfaithful, hasked⟩ := (makes_step hs m).checks hs h.faithful fun f hf v hv =>
    (h.finished f hf v hv).checks
  have hrun : (start.run (moves ++ [m])).1 = ((start.run moves).1.step m).1 := by rw [run_concat]
  have hgoes {id : DeedId} {q q' : Question} {check : Check}
      (hq : (⟨id, q⟩ : Suspension) ∈ (start.run moves).1.waiting)
      (hc : ¬ (start.run moves).1.isCancelled q) (hgo : Goes (start.run moves).1 id q m q')
      (hcheck : q'.check? = some check) : Sure start (moves ++ [m]) id check :=
    Sure.goes hs hq hc (h.waiting ⟨id, q⟩ hq) hgo hcheck
  refine ⟨?_, ?_, ?_⟩
  · rw [hrun]
    exact hfaithful
  · rw [hrun]
    intro w hw check hcheck
    rcases htraced.waiting w hw with hw | ⟨q, hq, hc, hgo⟩ | hw
    · exact (h.waiting w hw check hcheck).concat hs fun f hf => taken_ne_of_waiting hs hf hw
    · exact hgoes hq hc hgo hcheck
    · obtain ⟨hchecks, hground⟩ := hasked w hw check hcheck
      refine ⟨?_, hground _⟩
      rw [hrun]
      exact hchecks
  · rw [hrun]
    intro f hf v hv
    rcases htraced.finished f hf with hbefore | ⟨q, hq, hends⟩
    · exact (h.finished f hbefore v hv).concat hs fun g hg => taken_ne_of_finished hs hg hf
    · generalize hid : f.deed = id at hq hends ⊢
      cases hends with
      | cancelled =>
        rw [Question.verdict?_cancelled] at hv
        cases hv
      | chosen => cases hv
      | checked hc hgo hfinding =>
        exact hgoes hq hc hgo (Question.check?_of_verdict? hfinding hv)
      | timedOut hc hfinding =>
        rw [Question.verdict?_timedOut hfinding] at hv
        cases hv

theorem sure_run (catalog : Catalog) (world : World) (clock : Clock) (bus : Bus)
    (moves : List Move) : AllSure (ofParts catalog world clock bus) moves := by
  induction moves using List.reverseRecOn with
  | nil => exact ⟨fun _ hd => (nomatch hd), fun _ hw => (nomatch hw), fun _ hf => nomatch hf⟩
  | append_singleton moves m ih =>
    exact ih.concat (run_sound (sound_ofParts catalog world clock bus) moves) m

/-! ## Payments -/

/-- A payment takes a met verdict on the deed that pays. -/
theorem taken_of_costs (hs : s.Sound) {actor : CharacterId} {costs : List Effect}
    (h : .apply id actor .costs costs ∈ (s.step m).2) :
    ∃ f v d rest, s.taken? m = some f ∧ f.verdict? = some v ∧ v.isMet ∧ f.deed = id ∧
      d ∈ s.engine.deeds ∧ d.id = id ∧ costs = d.template.costs ∧
        (s.step m).2 = .apply id actor .costs costs :: rest := by
  have hown {e : Engine} {j : DeedId} {xs : List Output} {e' : Engine}
      (ht : Transition e none j xs e') : .apply id actor .costs costs ∉ xs := fun hmem => by
    obtain ⟨g, -, -, -, hg, -⟩ := ht.of_costs hmem
    cases hg
  obtain ⟨index, f, rfl, hindex, ht⟩ := (makes_step hs m).taken_of_mem hs h hown
  obtain ⟨g, v, d, rest, hg, hv, hmet, hdeed, hd, hid, hcosts, houtputs⟩ := ht.of_costs h
  cases hg
  exact ⟨f, v, d, rest, hindex, hv, hmet, hdeed, hd, hid, hcosts, houtputs⟩

/-- A deed that costs as much as it asks for. -/
def raid : Template where
  name := "raid"
  description := ""
  duration := 0
  targetNumber := 1
  progressIndicator := .zero
  fixedProgression := .zero
  tags := ⟨[.organization, .immediate]⟩
  mode := .immediate
  conditions := [.ofRequirement (.atLeast .money 50)]
  effects := []
  costs := [.resource .down .money 50]
  mode_eq := rfl

/-- Two members, and the money for one raid. -/
def campWorld : World where
  treasury := .ofBalances 50 0
  cast := ((Cast.empty.withMember ⟨1⟩ .zero).withMember ⟨2⟩ .zero).queue (.chosen ⟨1⟩)
    |>.queue (.chosen ⟨2⟩)
  dice := .ofSeed 0

end System

end Deeds
