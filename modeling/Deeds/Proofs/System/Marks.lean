import Deeds.Catalog
import Deeds.Proofs.Line.Grammar
import Deeds.Proofs.Payments

/-!
# Marks

A condition is marked when a check finds it met. Checks mark conditions of their own; a deed gets
them with the verdict, and nobody else does.

* `Catalog.unmarked_load` : nothing is marked in a catalog;
* `Check.Marked` : a met verdict has marked every condition; `System.marked_step` : so have all that
  come about;
* `Engine.Vetted` : the marks of the live deeds; `Vetted.transition` keeps them;
* `System.vetted_run` : the marks after any moves.
-/

namespace Deeds

open Engine (Own Taking Transition)

/-- Some conditions are all marked. -/
def AllMarked (conditions : List Condition) : Prop := ∀ c ∈ conditions, c.isMet = true

/-- None of some conditions is marked. -/
def Unmarked (conditions : List Condition) : Prop := ∀ c ∈ conditions, c.isMet = false

theorem unmarked_reset (conditions : List Condition) :
    Unmarked (conditions.map Condition.reset) := by
  intro c hc
  obtain ⟨x, -, rfl⟩ := List.mem_map.1 hc
  rfl

theorem AllMarked.concat {met : List Condition} {c : Condition} (h : AllMarked met) (hc : c.isMet) :
    AllMarked (met ++ [c]) := by
  intro x hx
  rcases List.mem_append.1 hx with hx | hx
  · exact h x hx
  · rw [List.mem_singleton.1 hx]
    exact hc

/-! ## Catalogs -/

/-- A condition is read without a mark. -/
theorem Line.unmarked_of_readCondition {line : String} {c : Condition}
    (h : Line.readCondition line = .ok c) : c.isMet = false := by
  unfold Line.readCondition Line.conditionOfTokens at h
  split at h
  · cases h
  · obtain ⟨kind, -, h⟩ := bind_eq_ok_iff.1 h
    obtain ⟨⟨requirement, rest⟩, -, h⟩ := bind_eq_ok_iff.1 h
    obtain ⟨-, -, h⟩ := bind_eq_ok_iff.1 h
    cases h
    rfl

theorem Template.mem_readLines {α : Type} {field : Definition.Field}
    {read : String → Except Line.LineError α} {index : Nat} {lines : List String} {x : α}
    (h : x ∈ (Template.readLines field read index lines).2) : ∃ line, read line = .ok x := by
  induction lines generalizing index with
  | nil => cases h
  | cons line rest ih =>
    unfold Template.readLines at h
    dsimp only at h
    cases hread : read line with
    | error cause =>
      rw [hread] at h
      exact ih h
    | ok value =>
      rw [hread] at h
      rcases List.mem_cons.1 h with rfl | h
      · exact ⟨line, hread⟩
      · exact ih h

theorem Template.unmarked_of_definition {d : Definition} {t : Template}
    (h : Template.ofDefinition d = .ok t) : Unmarked t.conditions := by
  intro c hc
  have hconditions : t.conditions = (Template.readLines .conditions Line.readCondition 0
      d.conditions).2 := by
    unfold Template.ofDefinition at h
    dsimp only at h
    split at h
    · cases h
    · -- the name is checked first; either way the faults decide
      split at h <;> split at h
      · cases h
        rfl
      · cases h
      · cases h
        rfl
      · cases h
  rw [hconditions] at hc
  obtain ⟨line, hline⟩ := Template.mem_readLines hc
  exact Line.unmarked_of_readCondition hline

namespace Catalog

theorem unmarked_register {c : Catalog} (h : ∀ t ∈ c.templates, Unmarked t.conditions)
    (d : Definition) : ∀ t ∈ (c.register d).1.templates, Unmarked t.conditions := by
  unfold register
  cases hd : Template.ofDefinition d with
  | error => exact h
  | ok t =>
    dsimp only
    split
    · exact h
    · intro x hx
      rcases List.mem_append.1 hx with hx | hx
      · exact h x hx
      · rw [List.mem_singleton.1 hx]
        exact Template.unmarked_of_definition hd

theorem unmarked_registerAll {c : Catalog} (h : ∀ t ∈ c.templates, Unmarked t.conditions)
    (definitions : List Definition) :
    ∀ t ∈ (c.registerAll definitions).1.templates, Unmarked t.conditions := by
  induction definitions generalizing c with
  | nil => exact h
  | cons d rest ih => exact ih (unmarked_register h d)

/-- No condition of a loaded catalog is marked. -/
theorem unmarked_load {definitions : List Definition} {c : Catalog}
    (h : load definitions = .ok c) : ∀ t ∈ c.templates, Unmarked t.conditions := by
  have hall := unmarked_registerAll (c := empty) (fun _ h => nomatch h) definitions
  unfold load at h
  split at h
  · rename_i heq
    rw [heq] at hall
    cases h
    exact hall
  · cases h

end Catalog

/-! ## Checks -/

namespace Check

variable {target : Target} {met rest : List Condition} {check : Check}

/-- What the check is through with is marked, and so is everything that it finds met. -/
def Marked : Check → Prop
  | .awaiting met .. => AllMarked met
  | .finished verdict => verdict.isMet → AllMarked verdict.conditions

theorem marked_proceed (h : AllMarked met) : (proceed target met rest).Marked := by
  induction rest generalizing met with
  | nil => exact fun _ => h
  | cons c rest ih =>
    unfold proceed
    split
    · exact h
    · dsimp only
      split
      · exact ih (h.concat ‹_›)
      · exact fun hmet => nomatch hmet

theorem marked_begin (target : Target) (conditions : List Condition) :
    (begin target conditions).Marked := marked_proceed fun _ h => nomatch h

theorem Marked.supply (h : check.Marked) (target : Target) (amount : Int64) :
    (check.supply target amount).Marked := by
  cases check with
  | finished => exact h
  | awaiting met next resource rest =>
    unfold Check.supply
    dsimp only
    split
    · exact marked_proceed (h.concat ‹_›)
    · exact fun hmet => nomatch hmet

end Check

/-! ## Deeds -/

namespace Engine

variable {e e' : Engine} {f : Option Finding} {id : DeedId} {outputs : List Output}

/-- A deed that was not found possible yet. -/
structure Unvetted (d : Deed) : Prop where
  isPossible : d.isPossible = false
  conditions : Unmarked d.conditions

/-- A deed of which every condition was met. -/
structure Cleared (d : Deed) : Prop where
  isPossible : d.isPossible = true
  conditions : AllMarked d.conditions

/-- No pending deed was found possible yet, and every tracked one was. -/
structure Vetted (e : Engine) : Prop where
  pending : ∀ i ∈ e.pending, Unvetted i.deed
  tracked : ∀ d ∈ e.tracker.deeds, Cleared d

/-- The verdict, if it is met, has marked every condition. -/
def Verifies (f : Finding) : Prop := ∀ v, f.verdict? = some v → v.isMet → AllMarked v.conditions

/-- A transition keeps the marks right: a deed gets those of a met verdict when it begins, and for
each further cycle. -/
theorem Vetted.transition (hs : e.Sound) (h : e.Vetted) (ht : Transition e f id outputs e')
    (hf : ∀ g, f = some g → Verifies g) : e'.Vetted where
  pending i hmem := by
    cases (ht.origins hs).pending i hmem with
    | kept hi => exact h.pending i hi
    | entered => exact ⟨rfl, unmarked_reset _⟩
    | bound hi hd =>
      have hold := h.pending _ hi
      obtain ⟨-, rfl⟩ := Deed.assign?_eq_some hd
      exact ⟨hold.isPossible, hold.conditions⟩
  tracked d hmem := by
    cases (ht.origins hs).tracked d hmem with
    | kept hd => exact h.tracked d hd
    | begun hi hg hmet => exact ⟨rfl, hf _ hg _ rfl hmet⟩
    | progressed hd ha =>
      have hold := h.tracked _ hd
      obtain ⟨-, rfl⟩ := Deed.advance_eq_progressed ha
      exact ⟨hold.isPossible, hold.conditions⟩
    | completed hd ha =>
      have hold := h.tracked _ hd
      obtain ⟨-, rfl⟩ := Deed.advance_eq_completed ha
      exact ⟨hold.isPossible, hold.conditions⟩
    | restarted hd hp hg hmet => exact ⟨rfl, hf _ hg _ rfl hmet⟩

theorem vetted_of_chain (hs : e.Sound) (hv : e.Vetted) (h : Chain (Taking Verifies) e outputs e') :
    e'.Vetted :=
  invariant_of_chain (Q := Vetted) (fun hs hv hf ht => hv.transition hs ht hf) hs hv h

end Engine

/-! ## Runs -/

namespace System

variable {s : System} {m : Move} {id : DeedId} {q q' : Question} {check : Check}

/-- All checks that are under way or over have marked what they found met. -/
structure Marked (s : System) : Prop where
  waiting : ∀ w ∈ s.waiting, ∀ check, w.question.check? = some check → check.Marked
  finished : ∀ f ∈ s.finished, Engine.Verifies f

/-- A question that is put has marked nothing wrong. -/
theorem marked_of_questions {outputs : List Output} {w : Suspension} (hw : w ∈ questions outputs)
    (hcheck : w.question.check? = some check) : check.Marked := by
  obtain ⟨o, -, ho⟩ := List.mem_filterMap.1 hw
  cases o with
  | resolve =>
    cases ho
    cases hcheck
  | verify =>
    cases ho
    cases hcheck
    exact Check.marked_begin _ _
  | reverify =>
    cases ho
    cases hcheck
    exact Check.marked_begin _ _
  | _ => cases ho

/-- A question goes on with the marks that it has, and those of the balance that it gets. -/
theorem marked_of_goes (hgo : Goes s id q m q') (hq : ∀ check, q.check? = some check → check.Marked)
    (hcheck : q'.check? = some check) : check.Marked := by
  cases hgo with
  | poll =>
    rw [Question.check?_put] at hcheck
    exact hq check hcheck
  | answer =>
    rcases Question.check?_supply hcheck with hsame | ⟨before, target, r, hbefore, -, -, rfl⟩
    · exact hq check hsame
    · exact (hq before hbefore).supply target _

/-- Every move keeps the marks of the checks. -/
theorem marked_step (h : s.Marked) (m : Move) : (s.step m).1.Marked := by
  have htraced := traced_step s m
  refine ⟨fun w hw check hcheck => ?_, fun f hf v hv => ?_⟩
  · rcases htraced.waiting w hw with hw | ⟨q, hq, -, hgo⟩ | hw
    · exact h.waiting w hw check hcheck
    · exact marked_of_goes hgo (h.waiting ⟨w.deed, q⟩ hq) hcheck
    · exact marked_of_questions hw hcheck
  · rcases htraced.finished f hf with hf | ⟨q, hq, hends⟩
    · exact h.finished f hf v hv
    · generalize f.deed = id at hq hends
      cases hends with
      | cancelled =>
        rw [Question.verdict?_cancelled] at hv
        cases hv
      | chosen => cases hv
      | checked hc hgo hfinding =>
        exact marked_of_goes hgo (h.waiting ⟨id, q⟩ hq) (Question.check?_of_verdict? hfinding hv)
      | timedOut hc hfinding =>
        rw [Question.verdict?_timedOut hfinding] at hv
        cases hv

/-- So the marks of the live deeds are right after any moves. -/
theorem vetted_run (hs : s.Sound) (hm : s.Marked) (hv : s.engine.Vetted) (moves : List Move) :
    (s.run moves).1.Marked ∧ (s.run moves).1.engine.Vetted := by
  induction moves generalizing s with
  | nil => exact ⟨hm, hv⟩
  | cons m rest ih =>
    have hmakes := makes_step hs m
    have hchain : Chain (Taking Engine.Verifies) s.engine (s.step m).2 (s.step m).1.engine :=
      (hmakes.chain hs).mono fun _ _ _ ht => ht.mono fun f hf => hm.finished f (mem_of_taken? hf)
    exact ih (hmakes.sound hs) (marked_step hm m) (Engine.vetted_of_chain hs.sound hv hchain)

end System

end Deeds
