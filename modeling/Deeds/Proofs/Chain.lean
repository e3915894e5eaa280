/-!
# Chains of steps

A step leads from a state to a state and says something. A chain makes steps one after the other and
says all that they say, in order.

* `Chain.trans` : two chains in a row;
* `Chain.history` : what every step keeps between a state and everything said so far, a chain keeps.
-/

namespace Deeds

variable {σ ω : Type}

/-- Steps one after the other, with everything they say. -/
inductive Chain (step : σ → List ω → σ → Prop) : σ → List ω → σ → Prop
  | nil (s : σ) : Chain step s [] s
  | cons {s t u : σ} {first rest : List ω} (head : step s first t) (tail : Chain step t rest u) :
      Chain step s (first ++ rest) u

namespace Chain

variable {step : σ → List ω → σ → Prop} {s t u : σ} {xs ys : List ω}

theorem single (h : step s xs t) : Chain step s xs t := by
  have := Chain.cons h (Chain.nil t)
  rwa [List.append_nil] at this

theorem trans (h₁ : Chain step s xs t) (h₂ : Chain step t ys u) : Chain step s (xs ++ ys) u := by
  induction h₁ with
  | nil => exact h₂
  | cons head _ ih =>
    rw [List.append_assoc]
    exact .cons head (ih h₂)

theorem mono {step' : σ → List ω → σ → Prop} (hstep : ∀ s xs t, step s xs t → step' s xs t)
    (h : Chain step s xs t) : Chain step' s xs t := by
  induction h with
  | nil => exact .nil _
  | cons head _ ih => exact .cons (hstep _ _ _ head) ih

/-- What every step keeps between a state and the words said so far, a chain keeps. -/
theorem history {P : List ω → σ → Prop}
    (hstep : ∀ said s xs t, P said s → step s xs t → P (said ++ xs) t) (hs : P [] s)
    (h : Chain step s xs t) : P xs t := by
  have later : ∀ said, P said s → P (said ++ xs) t := by
    clear hs
    induction h with
    | nil =>
      intro said hsaid
      rwa [List.append_nil]
    | cons head _ ih =>
      intro said hsaid
      rw [← List.append_assoc]
      exact ih _ (hstep _ _ _ _ hsaid head)
  exact later [] hs

end Chain

end Deeds
