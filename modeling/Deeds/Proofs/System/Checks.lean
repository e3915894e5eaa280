import Deeds.Proofs.Engine.Origin
import Deeds.Proofs.System.Sound

/-!
# What checks check

A check goes through the requirements of its deed's template, one balance after the other, and is met
only when each of them was.

* `Check.requirements` : all requirements of a check, which stay the same as it goes on;
* `Check.Grounded` : every balance that the check found high enough was read;
* `Engine.Follows` : where the conditions of a deed after a transition come from;
* `Engine.Faithful`, `Engine.Checks` : deeds and checks have the requirements of the template;
* `Transition.of_costs` : costs are paid for a met check only, before anything else.
-/

namespace Deeds

open Engine (Own Taking Transition)

/-- The requirements of some conditions. -/
def requirements (conditions : List Condition) : List Requirement :=
  conditions.map Condition.requirement

theorem requirements_reset (conditions : List Condition) :
    requirements (conditions.map Condition.reset) = requirements conditions := by
  rw [requirements, List.map_map]
  rfl

/-! ## Checks -/

namespace Check

variable {target : Target} {met rest : List Condition} {check : Check} {r : Resource}
  {amount : Int64} {R R' : Resource → Int64 → Prop}

/-- All requirements of a check, in order. -/
def requirements : Check → List Requirement
  | .awaiting met next _ rest => Deeds.requirements (met ++ next :: rest)
  | .finished verdict => Deeds.requirements verdict.conditions

theorem requirements_proceed :
    (proceed target met rest).requirements = Deeds.requirements (met ++ rest) := by
  induction rest generalizing met with
  | nil =>
    rw [List.append_nil]
    rfl
  | cons c rest ih =>
    unfold proceed
    split
    · rfl
    · dsimp only
      split
      · rw [ih, List.append_assoc]
        simp only [Deeds.requirements, List.map_append, List.map_cons]
        rfl
      · simp only [requirements, Deeds.requirements, List.map_append, List.map_cons]
        rfl

theorem requirements_begin (target : Target) (conditions : List Condition) :
    (begin target conditions).requirements = Deeds.requirements conditions := requirements_proceed

/-- A check goes on with the same requirements. -/
theorem requirements_supply (target : Target) (amount : Int64) (check : Check) :
    (check.supply target amount).requirements = check.requirements := by
  cases check with
  | finished => rfl
  | awaiting met next resource rest =>
    unfold supply
    dsimp only
    split
    · rw [requirements_proceed, List.append_assoc]
      simp only [requirements, Deeds.requirements, List.map_append, List.map_cons]
      rfl
    · simp only [requirements, Deeds.requirements, List.map_append, List.map_cons]
      rfl

/-- Every balance that some conditions require was read and high enough. -/
def AllRead (R : Resource → Int64 → Prop) (conditions : List Condition) : Prop :=
  ∀ c ∈ conditions, ∀ r n, c.requirement = .atLeast r n → R r n

/-- Every balance that the check found high enough was read; and it waits for the balance that its
next condition requires. -/
def Grounded (R : Resource → Int64 → Prop) : Check → Prop
  | .awaiting met next resource _ =>
    (∃ n, next.requirement = .atLeast resource n) ∧ AllRead R met
  | .finished verdict => verdict.isMet → AllRead R verdict.conditions

theorem AllRead.nil : AllRead R [] := fun _ h => nomatch h

theorem AllRead.concat {c : Condition} (h : AllRead R met)
    (hc : ∀ r n, c.requirement = .atLeast r n → R r n) : AllRead R (met ++ [c]) := by
  intro x hx
  rcases List.mem_append.1 hx with hx | hx
  · exact h x hx
  · rw [List.mem_singleton.1 hx]
    exact hc

theorem AllRead.mono (h : AllRead R met) (hR : ∀ r n, R r n → R' r n) : AllRead R' met :=
  fun c hc r n hreq => hR r n (h c hc r n hreq)

theorem Grounded.mono (h : Grounded R check) (hR : ∀ r n, R r n → R' r n) :
    Grounded R' check := by
  cases check with
  | awaiting => exact ⟨h.1, h.2.mono hR⟩
  | finished => exact fun hmet => (h hmet).mono hR

theorem grounded_proceed (h : AllRead R met) : Grounded R (proceed target met rest) := by
  induction rest generalizing met with
  | nil => exact fun _ => h
  | cons c rest ih =>
    unfold proceed
    split
    · rename_i hreq
      exact ⟨⟨_, hreq⟩, h⟩
    · rename_i hreq
      dsimp only
      split
      · refine ih (h.concat fun r n hc => ?_)
        rw [show (c.record (.typeName target.typeName)).requirement = c.requirement from rfl, hreq]
          at hc
        cases hc
      · exact fun hmet => nomatch hmet

theorem grounded_begin (target : Target) (conditions : List Condition) :
    Grounded R (begin target conditions) := grounded_proceed .nil

/-- A check that is supplied with a balance has read it. -/
theorem Grounded.supply (h : Grounded R check) (hr : check.awaits = some r)
    (hread : ∀ n, n ≤ amount → R r n) : Grounded R (check.supply target amount) := by
  cases check with
  | finished => cases hr
  | awaiting met next resource rest =>
    cases hr
    obtain ⟨⟨required, hreq⟩, hmet⟩ := h
    unfold Check.supply
    dsimp only
    split
    · rename_i hpass
      refine grounded_proceed (hmet.concat fun r' n hc => ?_)
      rw [show (next.record (.amount amount)).requirement = next.requirement from rfl, hreq] at hc
      cases hc
      refine hread _ ?_
      rw [show (next.record (.amount amount)).isMet
        = next.requirement.isSatisfiedBy (.amount amount) from rfl, hreq] at hpass
      exact of_decide_eq_true hpass
    · exact fun hmet => nomatch hmet

end Check

/-- The check of a question that is one. -/
def Question.check? : Question → Option Check
  | .actor .. => none
  | .start check _ _ => some check
  | .again check _ => some check

/-- The verdict of a check that came to one. -/
def Finding.verdict? : Finding → Option Verdict
  | .verified _ (.checked v) => some v
  | .reverified _ (.checked v) => some v
  | _ => none

namespace Engine

variable {e e' : Engine} {f : Option Finding} {id j : DeedId} {outputs : List Output} {d d' : Deed}
  {i : Invocation} {P : Finding → Prop} {v : Verdict}

/-! ## Conditions of deeds -/

/-- Where a deed after a transition comes from. -/
inductive Follows (e : Engine) (f : Option Finding) (d' : Deed) : Prop
  /-- Its conditions are as they were. -/
  | kept {d : Deed} (hd : d ∈ e.deeds) (hid : d.id = d'.id) (ht : d.template = d'.template)
      (hc : d.conditions = d'.conditions)
  /-- It has the conditions of a verdict. -/
  | checked {d : Deed} {g : Finding} {v : Verdict} (hd : d ∈ e.deeds) (hid : d.id = d'.id)
      (ht : d.template = d'.template) (hf : f = some g) (hg : g.deed = d'.id)
      (hv : g.verdict? = some v) (hc : d'.conditions = v.conditions)
  | new (hid : d'.id = e.nextId) (hc : d'.conditions = d'.template.conditions.map Condition.reset)

theorem Transition.follows (hs : e.Sound) (h : Transition e f id outputs e') :
    ∀ d' ∈ e'.deeds, e.Follows f d' := by
  intro d' hlive
  have horigins := h.origins hs
  rcases mem_deeds.1 hlive with ⟨i, hpending, rfl⟩ | htracked
  · cases horigins.pending i hpending with
    | kept hi => exact .kept (Sound.deed_mem hi) rfl rfl rfl
    | entered => exact .new rfl rfl
    | bound hi hd =>
      obtain ⟨-, rfl⟩ := Deed.assign?_eq_some hd
      exact .kept (Sound.deed_mem hi) rfl rfl rfl
  · cases horigins.tracked d' htracked with
    | kept hd => exact .kept (Sound.tracked_mem hd) rfl rfl rfl
    | begun hi hf => exact .checked (Sound.deed_mem hi) rfl rfl hf rfl rfl rfl
    | progressed hd ha =>
      obtain ⟨-, rfl⟩ := Deed.advance_eq_progressed ha
      exact .kept (Sound.tracked_mem hd) rfl rfl rfl
    | completed hd ha =>
      obtain ⟨-, rfl⟩ := Deed.advance_eq_completed ha
      exact .kept (Sound.tracked_mem hd) rfl rfl rfl
    | restarted hd hp hf => exact .checked (Sound.tracked_mem hd) rfl rfl hf rfl rfl rfl

/-- The conditions of every live deed are those of its template, whether marked or not. -/
def Faithful (e : Engine) : Prop :=
  ∀ d ∈ e.deeds, requirements d.conditions = requirements d.template.conditions

/-- These are the requirements that a check on behalf of a deed has to go through. -/
structure Checks (e : Engine) (id : DeedId) (rs : List Requirement) : Prop where
  id_lt : id.val < e.nextId.val
  eq : ∀ d ∈ e.deeds, d.id = id → rs = requirements d.template.conditions

variable {rs : List Requirement}

/-- A deed keeps its template. -/
theorem Checks.transition (hs : e.Sound) (h : e.Checks id rs) (ht : Transition e f j outputs e') :
    e'.Checks id rs where
  id_lt := Nat.lt_of_lt_of_le h.id_lt (ht.sameOthers hs).nextId
  eq d' hd' hid := by
    have hlt := h.id_lt
    cases ht.follows hs d' hd' with
    | kept hd hdid htemplate =>
      rw [← htemplate]
      exact h.eq _ hd (hdid.trans hid)
    | checked hd hdid htemplate =>
      rw [← htemplate]
      exact h.eq _ hd (hdid.trans hid)
    | new hnew =>
      rw [← hid, hnew] at hlt
      exact absurd hlt (Nat.lt_irrefl _)

theorem Checks.chain (hs : e.Sound) (h : e.Checks id rs) (hc : Chain (Taking P) e outputs e') :
    e'.Checks id rs :=
  invariant_of_chain (Q := fun e => e.Checks id rs) (fun hs h _ ht => h.transition hs ht) hs h hc

/-- A finding that is taken has to bring a verdict on the requirements of its deed. -/
theorem Faithful.transition (hs : e.Sound) (h : e.Faithful) (ht : Transition e f id outputs e')
    (hf : ∀ g v, f = some g → g.verdict? = some v →
      e.Checks g.deed (requirements v.conditions)) : e'.Faithful := by
  intro d' hd'
  cases ht.follows hs d' hd' with
  | kept hd hid htemplate hc =>
    rw [← htemplate, ← hc]
    exact h _ hd
  | checked hd hid htemplate hg hdeed hv hc =>
    rw [hc, ← htemplate]
    exact (hf _ _ hg hv).eq _ hd (hid.trans hdeed.symm)
  | new hid hc => rw [hc, requirements_reset]

/-- A question that is put checks the requirements of its deed. -/
theorem Transition.checks_questions (hs : e.Sound) (hall : e'.Faithful)
    (h : Transition e f id outputs e') {w : Suspension} (hw : w ∈ System.questions outputs)
    {check : Check} (hcheck : w.question.check? = some check) :
    e'.Checks w.deed check.requirements ∧ ∀ R, check.Grounded R := by
  have asked {d : Deed} (hd : d ∈ e'.deeds) :
      e'.Checks d.id (Check.begin d.target d.freshConditions).requirements := by
    refine ⟨(h.sound hs).id_lt d hd, fun x hx hid => ?_⟩
    rw [deed_unique (h.sound hs).nodup hx hd hid, Check.requirements_begin, Deed.freshConditions,
      requirements_reset]
    exact hall d hd
  have hasks := h.asks hs
  generalize System.questions outputs = qs at hw hasks
  cases hasks with
  | nothing => cases hw
  | actor =>
    rw [List.mem_singleton.1 hw] at hcheck
    cases hcheck
  | start hi hid =>
    subst hid
    rw [List.mem_singleton.1 hw] at hcheck ⊢
    cases hcheck
    exact ⟨asked (Sound.deed_mem hi), fun R => Check.grounded_begin _ _⟩
  | again hd hid =>
    subst hid
    rw [List.mem_singleton.1 hw] at hcheck ⊢
    cases hcheck
    exact ⟨asked (Sound.tracked_mem hd), fun R => Check.grounded_begin _ _⟩

/-- What deeds and questions have after a chain that takes no verdict but on the requirements of its
deed. -/
theorem checks_chain (hs : e.Sound) (hall : e.Faithful) (h : Chain Own e outputs e') :
    e'.Faithful ∧ ∀ w ∈ System.questions outputs, ∀ check, w.question.check? = some check →
      e'.Checks w.deed check.requirements ∧ ∀ R, check.Grounded R := by
  refine (h.history (P := fun said e => e.Sound ∧ e.Faithful ∧ ∀ w ∈ System.questions said,
    ∀ check, w.question.check? = some check →
      e.Checks w.deed check.requirements ∧ ∀ R, check.Grounded R) ?_
    ⟨hs, hall, fun w hw => nomatch hw⟩).2
  rintro said e xs e' ⟨hs, hall, hsaid⟩ ⟨id, ht⟩
  have hall' : e'.Faithful := hall.transition hs ht fun g v hg => nomatch hg
  refine ⟨ht.sound hs, hall', fun w hw check hcheck => ?_⟩
  rw [System.questions, List.filterMap_append] at hw
  rcases List.mem_append.1 hw with hw | hw
  · obtain ⟨hchecks, hground⟩ := hsaid w hw check hcheck
    exact ⟨hchecks.transition hs ht, hground⟩
  · exact ht.checks_questions hs hall' hw hcheck

/-! ## Payments -/

/-- Costs are paid for a met check that is taken, before anything else. -/
theorem Transition.of_costs (h : Transition e f id outputs e') {actor : CharacterId}
    {costs : List Effect} (hmem : Output.apply j actor .costs costs ∈ outputs) :
    ∃ g v d rest, f = some g ∧ g.verdict? = some v ∧ v.isMet ∧ g.deed = j ∧ d ∈ e.deeds ∧
      d.id = j ∧ costs = d.template.costs ∧ outputs = .apply j actor .costs costs :: rest := by
  cases h with
  | @finish i v d actor hi hmet hd =>
    subst hd
    simp only [List.mem_cons, Output.apply.injEq, reduceCtorEq, and_false, false_and,
      List.not_mem_nil, or_false] at hmem
    obtain ⟨rfl, rfl, -, rfl⟩ := hmem
    exact ⟨_, v, i.deed, _, rfl, rfl, hmet, rfl, Sound.deed_mem hi, rfl, rfl, rfl⟩
  | @track i v d actor hi hmet hd =>
    subst hd
    rcases List.mem_append.1 hmem with hmem | hmem
    · simp only [List.mem_cons, Output.apply.injEq, reduceCtorEq, List.not_mem_nil, or_false] at hmem
      obtain ⟨rfl, rfl, -, rfl⟩ := hmem
      exact ⟨_, v, i.deed, _, rfl, rfl, hmet, rfl, Sound.deed_mem hi, rfl, rfl, rfl⟩
    · rcases List.mem_append.1 hmem with hmem | hmem
      · cases isHourly_of_mem_enrol hmem
      · cases List.mem_singleton.1 hmem
  | @restart d v actor hd hp hmet =>
    simp only [List.mem_cons, Output.apply.injEq, reduceCtorEq, List.not_mem_nil, or_false] at hmem
    obtain ⟨rfl, rfl, -, rfl⟩ := hmem
    exact ⟨_, v, d, _, rfl, rfl, hmet, rfl, Sound.tracked_mem hd, rfl, rfl, rfl⟩
  | unsubscribe => cases isHourly_of_mem_unsubscribe hmem
  | complete =>
    rcases List.mem_append.1 hmem with hmem | hmem
    · simp at hmem
    · cases isHourly_of_mem_unsubscribeIfIdle hmem
  | cancel =>
    rcases List.mem_cons.1 hmem with hmem | hmem
    · cases hmem
    · cases isHourly_of_mem_unsubscribeIfIdle hmem
  | refuse => simp at hmem
  | enter => simp at hmem
  | fire => simp at hmem
  | acknowledge => simp at hmem
  | close => simp at hmem
  | ignore => simp at hmem
  | reject => simp [Engine.reject] at hmem
  | bind => simp at hmem
  | progress => simp at hmem
  | completeCycle => simp at hmem

end Engine

end Deeds
