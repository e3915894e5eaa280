import Deeds.Proofs.Engine.Origin
import Deeds.Proofs.Progression
import Deeds.Proofs.Registration
import Deeds.Proofs.System.Sound

/-!
# Deeds that have their indicator complete

A part of the indicator may be missing at completion, never more than all of it: so a deed with its
whole indicator completes. A part of an infinite indicator is infinite as well, and what is left is
not a number; such an indicator is never reached.

* `Deed.reaches_of_le`, `Deed.not_reaches_infinity` : which progression reaches an indicator;
* `Deed.completes_iff` : whether a deed with its whole indicator completes;
* `Engine.InTime` : no deed is pending with its whole indicator; `InTime.transition` keeps that;
* `System.completion_exact` : all of this, for all definitions and after any moves;
* `System.vigil_never_ends` : a deed that has its whole indicator, an infinite one, and is pending.
-/

namespace Deeds

open Binary32

/-! ## Indicators of templates -/

theorem Binary32.IsPositive.ne_nan {x : Binary32} (h : x.IsPositive) : x ≠ .nan := by
  rintro rfl
  exact h

theorem Binary32.IsPositive.eq_infinity {x : Binary32} (h : x.IsPositive)
    (hfinite : x.isFinite = false) : x = .infinity false := by
  cases x with
  | nan => exact h.elim
  | infinity negative => rw [show negative = false from h]
  | finite => cases hfinite

/-- The indicators of tracked actions are checked. -/
theorem Template.positive_of_definition {d : Definition} {t : Template}
    (h : Template.ofDefinition d = .ok t) (hm : t.mode.isTracked = true) :
    t.progressIndicator.IsPositive := by
  unfold Template.ofDefinition at h
  dsimp only at h
  generalize hfaults : (_ ++ _ : List Fault) = faults at h
  split at h
  · cases h
  next mode hmode =>
    split at h
    next hempty =>
      cases h
      have hnil : faults = [] := by simpa using hempty
      rw [hnil, List.append_eq_nil_iff, hmode] at hfaults
      have hmodeFaults := hfaults.2
      unfold Template.modeFaults at hmodeFaults
      simpa [hm, lt_zero_iff] using hmodeFaults
    · cases h

theorem Catalog.exists_definition {definitions : List Definition} {c : Catalog} {t : Template}
    (h : Catalog.load definitions = .ok c) (ht : t ∈ c.templates) :
    ∃ d ∈ definitions, Template.ofDefinition d = .ok t := by
  have htemplates := (Catalog.registered_of_load h).templates rfl
  have hmem : Except.ok t ∈ definitions.map Template.ofDefinition := by
    rw [htemplates]
    exact List.mem_map_of_mem ht
  exact List.mem_map.1 hmem

/-! ## Whole indicators -/

namespace Deed

variable {d d' : Deed} {rate current x indicator : Binary32}

theorem exists_tolerance_eq : ∃ part, tolerance = .finite false part := ⟨_, rfl⟩

/-- What is left of a finite indicator is not above it. -/
theorem sub_tolerance_le (h : indicator.isFinite = true) :
    le (indicator.sub (indicator.abs.mul tolerance)) indicator = true := by
  cases indicator with
  | nan => cases h
  | infinity => cases h
  | finite s size =>
    obtain ⟨part, hpart⟩ := exists_tolerance_eq
    have hmissing : ((finite s size).abs.mul tolerance).neg =
        ofUnits true (size.units * part.units) (1 <<< 149) := by
      rw [hpart]
      exact neg_ofUnits ..
    unfold Binary32.sub
    rw [hmissing]
    refine add_le (ofUnits_neg_le (s := false) (m := .zero) (by decide) ?_)
      (finite_add_ne_nan (ofUnits_ne_nan _ _ _))
    rw [signedUnits_zero, Int.zero_mul]
    omega

/-- A whole finite indicator is enough. -/
theorem reaches_of_le (h : indicator.isFinite = true) (hle : le indicator x = true) :
    reaches x indicator = true := le_trans (sub_tolerance_le h) hle

/-- Nothing is enough for an infinite indicator, since infinity less infinity is not a number. -/
theorem not_reaches_infinity (x : Binary32) : reaches x (.infinity false) = false := rfl

theorem isFinite_of_reaches (hpos : indicator.IsPositive) (h : reaches x indicator = true) :
    indicator.isFinite = true := by
  cases hfinite : indicator.isFinite with
  | true => rfl
  | false =>
    rw [hpos.eq_infinity hfinite, not_reaches_infinity] at h
    cases h

/-- A deed that gets its whole indicator completes exactly if that is finite. -/
theorem completes_iff (hp : d.phase = .pending) (hpos : d.template.progressIndicator.IsPositive)
    (hle : le d.template.progressIndicator (d.gained rate) = true) :
    (∃ d' current, d.advance rate = (d', .completed current)) ↔
      d.template.progressIndicator.isFinite = true := by
  constructor
  · rintro ⟨d', current, h⟩
    exact isFinite_of_reaches hpos (reaches_of_completed h).1
  · intro hfinite
    exact ⟨_, _, advance_of_reaches hp (reaches_of_le hfinite hle)⟩

/-! ## Deeds in time -/

/-- A tracked deed as it should be: while it is pending it has less than its indicator. One with an
infinite indicator has never been anything but pending. -/
structure InTime (d : Deed) : Prop where
  positive : d.template.progressIndicator.IsPositive
  steady : d.Steady
  below : d.phase = .pending → d.template.progressIndicator.isFinite = true →
    lt d.current d.template.progressIndicator = true
  endless : d.template.progressIndicator.isFinite = false → d.phase = .pending ∧ d.completions = 0

/-- A deed without progression. -/
structure Unbegun (d : Deed) : Prop where
  current : d.current = .zero
  calculated : d.calculated = .zero

theorem Unbegun.steady (h : d.Unbegun) : d.Steady :=
  ⟨by rw [h.current]; rfl, by rw [h.calculated]; rfl⟩

/-- A tracked deed begins in time. -/
theorem Unbegun.inTime_start (h : d.Unbegun) (hpos : d.template.progressIndicator.IsPositive)
    (hcompletions : d.completions = 0) : d.start.InTime where
  positive := hpos
  steady := h.steady.perform .start
  below _ _ := by
    show lt d.current _ = true
    rw [h.current]
    exact lt_zero_iff.2 hpos
  endless _ := ⟨rfl, hcompletions⟩

theorem InTime.progress (h : d.InTime) (ha : d.advance rate = (d', .progressed current)) :
    d'.InTime := by
  have hsteady := (h.steady.advance rate).1
  rw [ha] at hsteady
  obtain ⟨hnot, rfl⟩ := not_reaches_of_progressed ha
  obtain ⟨-, rfl⟩ := advance_eq_progressed ha
  refine ⟨h.positive, hsteady, fun _ hfinite => ?_, h.endless⟩
  refine lt_of_le_eq_false (ne_nan_of_le hsteady.current).2 h.positive.ne_nan ?_
  cases hle : le d.template.progressIndicator (d.gained rate) with
  | false => rfl
  | true =>
    rw [reaches_of_le hfinite hle] at hnot
    cases hnot

/-- A deed that is between two cycles has completed one, so its indicator is finite. -/
theorem InTime.completeCycle (h : d.InTime) (ha : d.advance rate = (d', .completed current)) :
    d'.beginReverification.InTime := by
  have hsteady := (h.steady.advance rate).1
  rw [ha] at hsteady
  have hfinite := isFinite_of_reaches h.positive (reaches_of_completed ha).1
  obtain ⟨-, rfl⟩ := advance_eq_completed ha
  refine ⟨h.positive, hsteady.perform .beginReverification, fun hp => (nomatch hp), fun hnot => ?_⟩
  rw [show d.template.progressIndicator.isFinite = false from hnot] at hfinite
  cases hfinite

theorem InTime.restart (h : d.InTime) (hp : d.phase = .reverifying)
    (conditions : List Condition) : (d.recordVerification conditions true).restart.InTime where
  positive := h.positive
  steady := (h.steady.perform (.record conditions true)).perform .restart
  below _ _ := lt_zero_iff.2 h.positive
  endless hnot := by
    obtain ⟨hpending, -⟩ := h.endless hnot
    rw [hp] at hpending
    cases hpending

end Deed

/-! ## Engines in time -/

namespace Engine

variable {e e' : Engine} {f : Option Finding} {id : DeedId} {outputs : List Output}

/-- No pending invocation has any progression, and all tracked deeds are in time. -/
structure InTime (e : Engine) : Prop where
  templates : ∀ t ∈ e.catalog.templates, t.mode.isTracked = true → t.progressIndicator.IsPositive
  pending : ∀ i ∈ e.pending, i.deed.Unbegun
  tracked : ∀ d ∈ e.tracker.deeds, d.InTime

/-- A transition leaves no deed pending with its whole indicator. -/
theorem InTime.transition (hs : e.Sound) (h : e.InTime) (ht : Transition e f id outputs e') :
    e'.InTime where
  templates := by
    rw [(ht.sameOthers hs).catalog]
    exact h.templates
  pending i hmem := by
    cases (ht.origins hs).pending i hmem with
    | kept hi => exact h.pending i hi
    | entered => exact ⟨rfl, rfl⟩
    | bound hi hd =>
      have hold := h.pending _ hi
      obtain ⟨-, rfl⟩ := Deed.assign?_eq_some hd
      exact ⟨hold.current, hold.calculated⟩
  tracked d hmem := by
    cases (ht.origins hs).tracked d hmem with
    | kept hd => exact h.tracked d hd
    | begun hi hg hmet hm =>
      have hold := h.pending _ hi
      have hget := hs.template _ (Sound.deed_mem hi)
      have hpos := h.templates _ (List.mem_of_find?_eq_some hget) (bne_iff_ne.2 hm)
      exact Deed.Unbegun.inTime_start ⟨hold.current, hold.calculated⟩ hpos (hs.starting _ hi).2
    | progressed hd ha => exact (h.tracked _ hd).progress ha
    | completed hd ha => exact (h.tracked _ hd).completeCycle ha
    | restarted hd hp => exact (h.tracked _ hd).restart hp _

end Engine

/-! ## Runs -/

namespace System

variable {definitions : List Definition} {catalog : Catalog}

theorem inTime_ofCatalog (h : Catalog.load definitions = .ok catalog) :
    (Engine.ofCatalog catalog).InTime where
  templates t ht hm := by
    obtain ⟨d, -, hd⟩ := Catalog.exists_definition h ht
    exact Template.positive_of_definition hd hm
  pending _ h := nomatch h
  tracked _ h := nomatch h

theorem inTime_run (h : Catalog.load definitions = .ok catalog) (world : World) (clock : Clock)
    (bus : Bus) (moves : List Move) :
    ((ofParts catalog world clock bus).run moves).1.engine.InTime := by
  have hs := sound_ofParts catalog world clock bus
  exact Engine.invariant_of_chain (Q := Engine.InTime) (fun hs hi _ ht => hi.transition hs ht)
    hs.sound (inTime_ofCatalog h) (chain_of_run hs moves)

/-- A watch that takes one hour to get to an infinite indicator. -/
def endlessWatch : Definition where
  name := "watch"
  duration := 1
  progressIndicator := .infinity false
  types := ["Indicator"]

/-- The template of an endless watch: the gain of an hour is the whole indicator. -/
def vigil : Template where
  name := "watch"
  description := ""
  duration := 1
  targetNumber := 1
  progressIndicator := .infinity false
  fixedProgression := .infinity false
  tags := ⟨[.indicator]⟩
  mode := .indicator
  conditions := []
  effects := []
  costs := []
  mode_eq := rfl

/-- A tracked deed completes as soon as it has its indicator, unless the indicator is infinite:
* for every accepted definition of a tracked action, a pending deed whose progression would get to
  the indicator, however it came about and at whatever rate, completes exactly if the indicator is
  finite;
* after any moves, a pending tracked deed with a finite indicator has less than that, and a tracked
  deed with an infinite indicator is pending and never completed. -/
theorem completion_exact (definitions : List Definition) (catalog : Catalog) (world : World)
    (clock : Clock) (bus : Bus) (moves : List Move) :
    (∀ definition t, Template.ofDefinition definition = .ok t → t.mode.isTracked = true →
      ∀ d : Deed, d.template = t → d.phase = .pending → ∀ rate,
        le t.progressIndicator (d.gained rate) = true →
          ((∃ d' current, d.advance rate = (d', .completed current)) ↔
            t.progressIndicator.isFinite = true)) ∧
    (Catalog.load definitions = .ok catalog →
      ∀ d ∈ ((ofParts catalog world clock bus).run moves).1.engine.tracker.deeds,
        (d.template.progressIndicator.isFinite = true → d.phase = .pending →
          lt d.current d.template.progressIndicator = true) ∧
        (d.template.progressIndicator.isFinite = false →
          d.phase = .pending ∧ d.completions = 0)) := by
  refine ⟨fun definition t ht hm d hd hp rate hle => ?_, fun hload d hd => ?_⟩
  · subst hd
    exact Deed.completes_iff hp (Template.positive_of_definition ht hm) hle
  · have hin := (inTime_run hload world clock bus moves).tracked d hd
    exact ⟨fun hfinite hp => hin.below hp hfinite, hin.endless⟩

/-- An endless watch is accepted and begun. An hour later it has its whole indicator and is pending
as before, and so it is after the next hour, whose progression is the indicator again. -/
theorem vigil_never_ends :
    Template.ofDefinition endlessWatch = .ok vigil ∧ vigil.mode.isTracked = true ∧
    Catalog.load [endlessWatch] = .ok ⟨[vigil]⟩ ∧
    let start := ofParts ⟨[vigil]⟩ watchWorld (.ofCapacity 4) (.ofCapacity 4)
    let s := (start.run (beginWatch ++ [.advanceClock, .takeTick])).1
    ∃ d ∈ s.engine.tracker.deeds, d.template = vigil ∧ d.phase = .pending ∧
      le vigil.progressIndicator d.current = true ∧
      le vigil.progressIndicator (d.gained .zero) = true ∧
      d.advance .zero = (d, .progressed vigil.progressIndicator) := by
  decide +kernel

end System

end Deeds
