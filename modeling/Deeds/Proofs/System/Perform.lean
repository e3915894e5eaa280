import Deeds.Proofs.Engine.Expect
import Deeds.System.Move

/-!
# What outputs do

Outputs of the engine change everything around it, but not the engine itself.

* `System.onWay` : the answers on their way to the engine, finished or not;
* `System.onWay_performAll` : outputs add the answers that they ask for;
* `System.waiting_performAll`, `System.finished_performAll`, `System.mem_fired_performAll` : the
  questions, the findings and the fired tokens after outputs;
* `System.world_performAll` : the world changes by applications only.
-/

namespace Deeds

/-- The stage that a question ends. -/
def Question.stage : Question → Stage
  | .actor .. => .resolution
  | .start .. => .verification
  | .again .. => .reverification

/-- The question that an output puts. -/
def Output.suspension? : Output → Option Suspension
  | .resolve deed mode action target token => some ⟨deed, .actor mode action target token false⟩
  | .verify deed conditions target token =>
    some ⟨deed, .start (.begin target conditions) target token⟩
  | .reverify deed conditions target => some ⟨deed, .again (.begin target conditions) target⟩
  | _ => none

/-- What an output applies, and on whose behalf. -/
def Output.application? : Output → Option (CharacterId × List Effect)
  | .apply _ actor _ effects => some (actor, effects)
  | _ => none

theorem Output.application?_of_isHourly {o : Output} (h : o.isHourly) : o.application? = none := by
  obtain rfl | rfl | ⟨_, rfl⟩ := cases_of_isHourly h <;> rfl

theorem Output.asks?_eq (o : Output) :
    o.asks? = o.suspension?.map fun w => (w.deed, w.question.stage) := by
  cases o <;> rfl

namespace System

/-- The answers on their way to the engine: those it only has to take, and those still asked for. -/
def onWay (s : System) : List (DeedId × Stage) :=
  s.finished.map (fun f => (f.deed, f.stage)) ++ s.waiting.map fun w => (w.deed, w.question.stage)

theorem onWay_of_finished {s : System} {f : Finding} (hf : f ∈ s.finished) :
    (f.deed, f.stage) ∈ s.onWay :=
  List.mem_append_left _ (List.mem_map.2 ⟨f, hf, rfl⟩)

theorem onWay_of_waiting {s : System} {w : Suspension} (hw : w ∈ s.waiting) :
    (w.deed, w.question.stage) ∈ s.onWay :=
  List.mem_append_right _ (List.mem_map.2 ⟨w, hw, rfl⟩)

theorem deed_onWay_of_finished {s : System} {f : Finding} (hf : f ∈ s.finished) :
    f.deed ∈ s.onWay.map Prod.fst := List.mem_map_of_mem (onWay_of_finished hf)

theorem deed_onWay_of_waiting {s : System} {w : Suspension} (hw : w ∈ s.waiting) :
    w.deed ∈ s.onWay.map Prod.fst := List.mem_map_of_mem (onWay_of_waiting hw)

/-- The questions that outputs put. -/
def questions (outputs : List Output) : List Suspension := outputs.filterMap Output.suspension?

theorem asked_eq_map_questions (outputs : List Output) :
    Engine.asked outputs = (questions outputs).map fun w => (w.deed, w.question.stage) := by
  rw [Engine.asked, questions, List.map_filterMap]
  exact congrArg (List.filterMap · outputs) (funext Output.asks?_eq)

variable {s : System} {o : Output} {outputs : List Output} {token : Token}

@[simp] theorem performAll_nil : s.performAll [] = s := rfl

@[simp] theorem performAll_cons : s.performAll (o :: outputs) = (s.perform o).performAll outputs :=
  rfl

/-! ## One output -/

theorem engine_perform : (s.perform o).engine = s.engine := by
  cases o <;> rfl

theorem finished_perform : (s.perform o).finished = s.finished := by
  cases o <;> rfl

theorem waiting_perform : (s.perform o).waiting = s.waiting ++ questions [o] := by
  cases o <;> first | rfl | exact (List.append_nil _).symm

theorem world_perform :
    (s.perform o).world =
      (o.application?.map fun (actor, effects) =>
        (s.world.applyAll actor effects).1).getD s.world := by
  cases o <;> rfl

theorem mem_fired_perform : token ∈ (s.perform o).fired ↔ token ∈ s.fired ∨ o = .fire token := by
  cases o with
  | fire t =>
    simp only [perform, fire, List.mem_cons, Output.fire.injEq, eq_comm (a := t)]
    exact or_comm
  | _ => simp [perform, suspend]

/-! ## All outputs -/

theorem engine_performAll : (s.performAll outputs).engine = s.engine := by
  induction outputs generalizing s with
  | nil => rfl
  | cons o outputs ih => rw [performAll_cons, ih, engine_perform]

theorem finished_performAll : (s.performAll outputs).finished = s.finished := by
  induction outputs generalizing s with
  | nil => rfl
  | cons o outputs ih => rw [performAll_cons, ih, finished_perform]

theorem waiting_performAll : (s.performAll outputs).waiting = s.waiting ++ questions outputs := by
  induction outputs generalizing s with
  | nil => exact (List.append_nil _).symm
  | cons o outputs ih =>
    rw [performAll_cons, ih, waiting_perform, List.append_assoc, questions, questions, questions,
      ← List.filterMap_append, List.singleton_append]

theorem mem_fired_performAll :
    token ∈ (s.performAll outputs).fired ↔ token ∈ s.fired ∨ .fire token ∈ outputs := by
  induction outputs generalizing s with
  | nil => simp
  | cons o outputs ih =>
    rw [performAll_cons, ih, mem_fired_perform, List.mem_cons, or_assoc, eq_comm (a := o)]

/-- The world after some applications, in order. -/
def applied (w : World) (applications : List (CharacterId × List Effect)) : World :=
  applications.foldl (fun w (actor, effects) => (w.applyAll actor effects).1) w

theorem world_performAll :
    (s.performAll outputs).world = applied s.world (outputs.filterMap Output.application?) := by
  induction outputs generalizing s with
  | nil => rfl
  | cons o outputs ih =>
    rw [performAll_cons, ih, world_perform, List.filterMap_cons]
    cases o.application? <;> rfl

/-- Without a word on hours the reader of the clock stays where it is. -/
theorem ticks_performAll (hsub : .subscribe ∉ outputs) (hunsub : .unsubscribe ∉ outputs) :
    (s.performAll outputs).ticks = s.ticks := by
  induction outputs generalizing s with
  | nil => rfl
  | cons o outputs ih =>
    rw [List.mem_cons, not_or] at hsub hunsub
    rw [performAll_cons, ih hsub.2 hunsub.2]
    cases o with
    | subscribe => exact absurd rfl hsub.1
    | unsubscribe => exact absurd rfl hunsub.1
    | _ => rfl

theorem onWay_performAll :
    (s.performAll outputs).onWay = s.onWay ++ Engine.asked outputs := by
  rw [onWay, onWay, finished_performAll, waiting_performAll, List.map_append, List.append_assoc,
    asked_eq_map_questions]

end System

end Deeds
