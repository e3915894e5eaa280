import Deeds.Proofs.Accuracy
import Deeds.Proofs.Completion

/-!
# How long a deed takes

The gain of an hour is the indicator divided by the duration, so that a deed should take its duration.
It does so unless rounding gets in the way: the gains of all hours together may be more than the
tolerance away from the indicator, and the gain of the last hour may be less than the tolerance.

* `Magnitude.Spreads` : indicators and durations that are clear of both;
* `Deed.CompletesAt` : the hour in which a deed completes;
* `Deed.gathered` : the progression that some gains add up to;
* `Deed.completesAt_iff` : the hour is the first whose gains together reach the indicator;
* `Deed.duration_exact` : which deeds take their duration;
* `Deed.duration_not_kept` : one that takes an hour less, and one that never completes.
-/

namespace Deeds

open Binary32

/-! ## Indicators in units -/

namespace Magnitude

/-- The part of an indicator that may be missing, in units of the indicator. -/
def missing (units : Nat) : Nat := nearest (13743895 * units) (2 ^ 37)

/-- The part of an indicator that is enough. -/
def enough (units : Nat) : Nat := nearest (units - missing units) 1

/-- An indicator that can be spread over a number of hours, so that rounding neither uses up what
may be missing nor adds up to an hour's gain. -/
def Spreads (units hours : Nat) : Prop :=
  if units ≤ 2 ^ 24 then 5000 * (hours + 1) ≤ units
  else hours * (units + 2 ^ 24) ≤ 3340 * units

instance (units hours : Nat) : Decidable (Spreads units hours) := by
  unfold Spreads
  infer_instance

variable {units n : Nat}

theorem enough_pos (h : 0 < units) : 0 < enough units := by
  have hmissing := (within_nearest (13743895 * units) (Nat.two_pow_pos 37)).upper
  rw [← missing] at hmissing
  apply le_nearest (a := ⟨1, 1, 0, by decide, by decide, rfl⟩) Nat.one_pos
  show 1 * 1 ≤ units - missing units
  omega

/-- A small indicator is counted in whole units, and so are its gains. -/
theorem sums_of_small (hsmall : units ≤ 2 ^ 24) (h : 5000 * (n + 2) ≤ units) :
    sums (nearest units (n + 1)) n < enough units ∧
      enough units ≤ sums (nearest units (n + 1)) n + nearest units (n + 1) := by
  have hgain := within_nearest units (show 0 < n + 1 by omega)
  have hmissing := within_nearest (13743895 * units) (Nat.two_pow_pos 37)
  rw [← missing] at hmissing
  generalize nearest units (n + 1) = gain at hgain ⊢
  have hsplit : gain * (n + 1) = n * gain + gain := by ring
  rw [hsplit] at hgain
  have hover := hgain.upper
  have hunder := hgain.lower
  have hmost := hmissing.upper
  have hleast := hmissing.lower
  -- each gain is thousands of units
  have hlarge : 4999 ≤ gain := by
    by_contra hless
    have hbound : n * gain ≤ n * 4998 := Nat.mul_le_mul_left _ (by omega)
    omega
  have hearly : n * gain < units - missing units := by omega
  have hlate : units - missing units ≤ n * gain + gain := by omega
  have hexact : enough units = units - missing units := by
    have h := nearest_of_le (m := units - missing units) (e := 0) (by omega) (by omega)
    rwa [Nat.pow_zero, Nat.mul_one] at h
  have hsum : sums gain n = n * gain := by
    have h := sums_of_le (m := gain) (e := 0) (n := n) (by omega) (by omega)
    rwa [Nat.pow_zero, Nat.mul_one, Nat.mul_one] at h
  rw [hexact, hsum]
  exact ⟨hearly, hlate⟩

/-- What is enough of a large indicator. -/
theorem enough_of_large (hlarge : 2 ^ 24 < units) : ∃ rest,
    Within rest (2 ^ 24 * enough units) (2 ^ 24 * rest) ∧
    2 ^ 62 * units ≤ 2 ^ 62 * rest + (2 ^ 25 * 13743895 + 2 ^ 37) * units ∧
    2 ^ 62 * rest + 2 ^ 25 * 13743895 * units ≤ (2 ^ 62 + 2 ^ 37) * units := by
  have hmissing := within_nearest (13743895 * units) (Nat.two_pow_pos 37)
  rw [← missing] at hmissing
  have hmost := hmissing.upper
  have hleast := hmissing.lower
  refine ⟨units - missing units, within_nearest_one _, ?_, ?_⟩
  · omega
  · omega

/-- The gains of a large indicator are rounded, and so are their sums. -/
theorem sums_of_large (hlarge : 2 ^ 24 < units) (h : (n + 1) * (units + 2 ^ 24) ≤ 3340 * units) :
    sums (nearest units (n + 1)) n < enough units ∧
      enough units ≤ sums (nearest units (n + 1)) n + nearest units (n + 1) := by
  have hhours : n ≤ 3338 := by
    by_contra hless
    have hbound : 3340 * (units + 2 ^ 24) ≤ (n + 1) * (units + 2 ^ 24) :=
      Nat.mul_le_mul_right _ (by omega)
    omega
  have hgain := within_nearest units (show 0 < n + 1 by omega)
  obtain ⟨rest, hrest, hmost, hleast⟩ := enough_of_large hlarge
  generalize nearest units (n + 1) = gain at hgain ⊢
  have hsum := within_sums gain (show n ≤ 4431 by omega)
  have hover : 2 ^ 24 * (gain * (n + 1)) ≤ 2 ^ 24 * units + (2 ^ 23 * (n + 1) + units) := by
    have h := hgain.upper
    omega
  have hunder : 2 ^ 24 * units ≤ 2 ^ 24 * (gain * (n + 1)) + (2 ^ 23 * (n + 1) + units) := by
    have h := hgain.lower
    omega
  -- the errors of all hours together
  have hdrift := Nat.mul_le_mul_left n hover
  have hsquare : n * (n + 1) ≤ 3338 * (n + 1) := Nat.mul_le_mul_right _ hhours
  constructor
  · by_contra hreached
    have hall := Nat.mul_le_mul_left (n + 1) (Nat.le_of_not_lt hreached)
    have hupper := Nat.mul_le_mul_left (n + 1) hsum.upper
    have henough := Nat.mul_le_mul_left (n + 1) hrest.lower
    have hpart := Nat.mul_le_mul_left (n + 1) hmost
    have hrise : (n + 1) * (n * (n + 1) * gain) ≤ 3339 * (n * (n + 1) * gain) :=
      Nat.mul_le_mul_right _ (by omega)
    linarith
  · have hlower := hsum.lower
    have henough := hrest.upper
    linarith

theorem sums_of_spreads (h : Spreads units (n + 1)) :
    sums (nearest units (n + 1)) n < enough units ∧
      enough units ≤ sums (nearest units (n + 1)) n + nearest units (n + 1) := by
  unfold Spreads at h
  split at h
  next hsmall => exact sums_of_small hsmall h
  next hlarge => exact sums_of_large (by omega) h

theorem hours_of_spreads {hours : Nat} (h : Spreads units hours) : hours ≤ 2 ^ 24 := by
  unfold Spreads at h
  split at h
  · omega
  · by_contra hmany
    have hbound : 3341 * (units + 2 ^ 24) ≤ hours * (units + 2 ^ 24) :=
      Nat.mul_le_mul_right _ (by omega)
    omega

theorem spreads_of_normal {hours : Nat} (hnormal : 2 ^ 23 ≤ units) (h : hours ≤ 1670) :
    Spreads units hours := by
  unfold Spreads
  split
  · omega
  · have hbound : hours * (units + 2 ^ 24) ≤ 1670 * (units + 2 ^ 24) :=
      Nat.mul_le_mul_right _ h
    omega

end Magnitude

/-! ## Indicators as values -/

namespace Binary32

theorem round_of_lt {num den : Nat} (h : Magnitude.nearest num den < Magnitude.limit) :
    ∃ p, Magnitude.round num den = some p ∧ p.units = Magnitude.nearest num den :=
  ⟨_, dif_pos h, rfl⟩

theorem units_of_round {num den : Nat} {p : Magnitude} (h : Magnitude.round num den = some p) :
    p.units = Magnitude.nearest num den := by
  unfold Magnitude.round at h
  split at h
  · cases h
    rfl
  · cases h

theorem ofUnits_zero (s : Bool) : ofUnits s 0 1 = .finite s .zero := by
  cases s <;> decide

theorem add_positive (m n : Magnitude) :
    (finite false m).add (.finite false n) = ofUnits false (m.units + n.units) 1 := by
  have htotal : signedUnits false m + signedUnits false n = ((m.units + n.units : Nat) : Int) := by
    simp [signedUnits]
  rw [add_finite, htotal]
  split
  next hzero =>
    rw [show m.units + n.units = 0 by omega, ofUnits_zero]
    rfl
  next => rw [decide_eq_false (by omega), Int.natAbs_natCast]

theorem sub_positive {m n : Magnitude} (h : n.units ≤ m.units) :
    (finite false m).sub (.finite false n) = ofUnits false (m.units - n.units) 1 := by
  have htotal : signedUnits false m + signedUnits true n = ((m.units - n.units : Nat) : Int) := by
    simp [signedUnits]
    omega
  show (finite false m).add (.finite true n) = _
  rw [add_finite, htotal]
  split
  next hzero =>
    rw [show m.units - n.units = 0 by omega, ofUnits_zero]
    rfl
  next => rw [decide_eq_false (by omega), Int.natAbs_natCast]

/-- Zero adds nothing, whatever its sign. -/
theorem add_zero (m : Magnitude) (s : Bool) :
    (finite false m).add (.finite s .zero) = .finite false m := by
  have htotal : signedUnits false m + signedUnits s .zero = (m.units : Int) := by
    rw [signedUnits_zero]
    simp [signedUnits]
  rw [add_finite, htotal]
  split
  next hzero =>
    obtain rfl : m = .zero := Magnitude.eq_of_units_eq (show m.units = 0 by omega)
    rfl
  next =>
    rw [decide_eq_false (by omega), Int.natAbs_natCast]
    obtain ⟨p, hround, hp⟩ := round_of_lt
      (show Magnitude.nearest m.units 1 < Magnitude.limit by
        rw [Magnitude.nearest_units]
        exact m.units_lt_limit)
    rw [Magnitude.nearest_units] at hp
    rw [ofUnits_of_round hround, Magnitude.eq_of_units_eq hp]

theorem max_zero (m : Magnitude) : (finite false m).max .zero = .finite false m := by
  show (if lt .zero (finite false m) then finite false m else .zero) = _
  split
  · rfl
  next hnot =>
    have hunits : m.units = 0 := by
      simpa [lt, le, zero, signedUnits, Magnitude.zero] using hnot
    exact congrArg (finite false) (Magnitude.eq_of_units_eq hunits.symm)

end Binary32

namespace Deed

/-! ## What is enough -/

theorem exists_tolerance_units :
    ∃ part, tolerance = .finite false part ∧ part.units = 13743895 * 2 ^ 112 :=
  ⟨_, rfl, by decide⟩

/-- The part of an indicator that may be missing. -/
theorem mul_tolerance (size : Magnitude) : ∃ part : Magnitude,
    (finite false size).abs.mul tolerance = .finite false part ∧
    part.units = Magnitude.missing size.units ∧ part.units ≤ size.units := by
  obtain ⟨share, hshare, hunits⟩ := exists_tolerance_units
  have hnum : size.units * share.units = 13743895 * size.units * 2 ^ 112 := by
    rw [hunits]
    ring
  have hden : (1 : Nat) <<< 149 = 2 ^ 37 * 2 ^ 112 := by decide
  have hle : size.units * share.units ≤ size.units * 1 <<< 149 := by
    apply Nat.mul_le_mul_left
    rw [hunits]
    decide
  obtain ⟨part, hround, hpart⟩ := Magnitude.exists_round_eq_some (a := size) (by decide) hle
  refine ⟨part, ?_, ?_, hpart⟩
  · rw [hshare]
    exact ofUnits_of_round hround
  · rw [units_of_round hround, hnum, hden, Magnitude.nearest_mul_right _ _ (by decide)]
    rfl

/-- What is left of an indicator without the tolerance. -/
theorem sub_tolerance (size : Magnitude) : ∃ rest : Magnitude,
    (finite false size).sub ((finite false size).abs.mul tolerance) = .finite false rest ∧
    rest.units = Magnitude.enough size.units := by
  obtain ⟨part, hpart, hmissing, hle⟩ := mul_tolerance size
  obtain ⟨rest, hround, -⟩ := Magnitude.exists_round_eq_some (a := size) Nat.one_pos
    (show size.units - part.units ≤ size.units * 1 by omega)
  refine ⟨rest, ?_, ?_⟩
  · rw [hpart, sub_positive hle]
    exact ofUnits_of_round hround
  · rw [units_of_round hround, hmissing]
    rfl

/-- Without any progression no indicator is reached. -/
theorem not_reaches_zero {indicator : Binary32} (h : indicator.IsPositive) :
    reaches .zero indicator = false := by
  cases indicator with
  | nan => exact h.elim
  | infinity s =>
    obtain rfl : s = false := h
    rfl
  | finite s size =>
    obtain ⟨rfl, hpos⟩ : s = false ∧ 0 < size.units := by simpa [IsPositive] using h
    obtain ⟨rest, hrest, henough⟩ := sub_tolerance size
    have hrestPos := Magnitude.enough_pos hpos
    unfold reaches
    rw [hrest]
    simp [le, zero, signedUnits, Magnitude.zero]
    omega

/-! ## Gains together -/

/-- The progression that a gain of every hour adds up to. -/
def gathered (gain : Binary32) : Nat → Binary32
  | 0 => .zero
  | n + 1 => (gathered gain n).add gain

theorem le_zero_gathered {gain : Binary32} (h : le .zero gain = true) (n : Nat) :
    le .zero (gathered gain n) = true := by
  induction n with
  | zero => rfl
  | succ n ih => exact le_trans ih (le_add h (add_ne_nan ih h))

/-- What is not reached by many gains is not reached by fewer. -/
theorem not_reaches_of_le {gain indicator : Binary32} {m n : Nat} (h : le .zero gain = true)
    (hn : reaches (gathered gain n) indicator = false) (hmn : m ≤ n) :
    reaches (gathered gain m) indicator = false := by
  induction hmn with
  | refl => exact hn
  | @step k hmn ih =>
    apply ih
    rw [Bool.eq_false_iff] at hn ⊢
    intro hm
    apply hn
    have hpos := le_zero_gathered h k
    exact le_trans hm (le_add h (add_ne_nan hpos h))

section Sums

variable {gain size : Magnitude} {n : Nat}

/-- Sums below some size are finite. -/
theorem gathered_finite (bound : Magnitude) (h : Magnitude.sums gain.units n < bound.units) :
    ∃ sum : Magnitude, gathered (.finite false gain) n = .finite false sum ∧
      sum.units = Magnitude.sums gain.units n := by
  induction n with
  | zero => exact ⟨.zero, rfl, rfl⟩
  | succ n ih =>
    obtain ⟨sum, hsum, hunits⟩ := ih (Magnitude.sums_lt_of_succ bound h)
    have hnext : Magnitude.sums gain.units (n + 1) = Magnitude.nearest (sum.units + gain.units) 1 := by
      rw [hunits]
      rfl
    obtain ⟨next, hround, hrounded⟩ := round_of_lt
      (show Magnitude.nearest (sum.units + gain.units) 1 < Magnitude.limit from
        Nat.lt_trans (hnext ▸ h) bound.units_lt_limit)
    refine ⟨next, ?_, by rw [hrounded, hnext]⟩
    rw [gathered, hsum, add_positive]
    exact ofUnits_of_round hround

/-- The gains reach the indicator with the last one, not before. -/
theorem reaches_of_sums (hbefore : Magnitude.sums gain.units n < Magnitude.enough size.units)
    (hafter : Magnitude.enough size.units ≤ Magnitude.sums gain.units n + gain.units) :
    reaches (gathered (.finite false gain) n) (.finite false size) = false ∧
      reaches (gathered (.finite false gain) (n + 1)) (.finite false size) = true := by
  obtain ⟨rest, hrest, henough⟩ := sub_tolerance size
  rw [← henough] at hbefore hafter
  obtain ⟨sum, hsum, hunits⟩ := gathered_finite rest hbefore
  unfold reaches
  rw [hrest, gathered, hsum]
  constructor
  · simp [le, signedUnits]
    omega
  · rw [add_positive]
    apply le_ofUnits_pos Nat.one_pos
    simp [signedUnits]
    omega

end Sums

/-! ## Hours -/

/-- The deed after some hours at one rate. -/
def afterHours (rate : Binary32) (d : Deed) : Nat → Deed
  | 0 => d
  | n + 1 => ((afterHours rate d n).advance rate).1

/-- A deed progresses for some hours, and completes in the last of them. -/
structure CompletesAt (rate : Binary32) (d : Deed) (hours : Nat) : Prop where
  positive : 0 < hours
  progressed : ∀ n, n + 1 < hours →
    ∃ current, ((d.afterHours rate n).advance rate).2 = .progressed current
  completed : ∃ current, ((d.afterHours rate (hours - 1)).advance rate).2 = .completed current

section Hours

variable {d : Deed} {rate : Binary32} {n : Nat}

/-- An hour completes a pending deed, or it progresses. -/
theorem advance_of_pending (hp : d.phase = .pending) (rate : Binary32) :
    (∃ current, (d.advance rate).2 = .completed current) ∧
        reaches (d.gained rate) d.template.progressIndicator = true ∨
      (∃ current, (d.advance rate).2 = .progressed current) ∧
        reaches (d.gained rate) d.template.progressIndicator = false := by
  cases h : reaches (d.gained rate) d.template.progressIndicator with
  | true =>
    rw [advance_of_reaches hp h]
    exact .inl ⟨⟨_, rfl⟩, rfl⟩
  | false =>
    rw [advance_of_not_reaches hp h]
    exact .inr ⟨⟨_, rfl⟩, rfl⟩

/-- As long as the indicator is not reached, progression is what was gathered. -/
theorem afterHours_of_not_reaches (hp : d.phase = .pending) (hc : d.current = .zero)
    (h : ∀ k, k < n → reaches (gathered (hourlyGain d.template rate) (k + 1))
      d.template.progressIndicator = false) :
    (d.afterHours rate n).phase = .pending ∧ (d.afterHours rate n).template = d.template ∧
      (d.afterHours rate n).current = gathered (hourlyGain d.template rate) n := by
  induction n with
  | zero => exact ⟨hp, rfl, hc⟩
  | succ n ih =>
    obtain ⟨hphase, htemplate, hcurrent⟩ := ih fun k hk => h k (by omega)
    have hgained : (d.afterHours rate n).gained rate
        = gathered (hourlyGain d.template rate) (n + 1) := by
      rw [gained, hcurrent, htemplate]
      rfl
    have hnot : reaches ((d.afterHours rate n).gained rate)
        (d.afterHours rate n).template.progressIndicator = false := by
      rw [hgained, htemplate]
      exact h n (by omega)
    rw [afterHours, advance_of_not_reaches hphase hnot]
    exact ⟨hphase, htemplate, hgained⟩

/-- What the next hour does then depends on what is gathered by its end. -/
theorem hour_of_not_reaches (hp : d.phase = .pending) (hc : d.current = .zero)
    (h : ∀ k, k < n → reaches (gathered (hourlyGain d.template rate) (k + 1))
      d.template.progressIndicator = false) :
    (∃ current, ((d.afterHours rate n).advance rate).2 = .completed current) ∧
        reaches (gathered (hourlyGain d.template rate) (n + 1))
          d.template.progressIndicator = true ∨
      (∃ current, ((d.afterHours rate n).advance rate).2 = .progressed current) ∧
        reaches (gathered (hourlyGain d.template rate) (n + 1))
          d.template.progressIndicator = false := by
  obtain ⟨hphase, htemplate, hcurrent⟩ := afterHours_of_not_reaches hp hc h
  have hgained : (d.afterHours rate n).gained rate
      = gathered (hourlyGain d.template rate) (n + 1) := by
    rw [gained, hcurrent, htemplate]
    rfl
  have hhour := advance_of_pending hphase rate
  rwa [hgained, htemplate] at hhour

/-- A deed that has only progressed has not reached its indicator. -/
theorem not_reaches_of_all_progressed (hp : d.phase = .pending) (hc : d.current = .zero)
    (h : ∀ k, k < n → ∃ current, ((d.afterHours rate k).advance rate).2 = .progressed current) :
    ∀ k, k < n → reaches (gathered (hourlyGain d.template rate) (k + 1))
      d.template.progressIndicator = false := by
  induction n with
  | zero =>
    intro k hk
    omega
  | succ n ih =>
    have hbefore := ih fun k hk => h k (by omega)
    intro k hk
    rcases Nat.lt_or_eq_of_le (Nat.le_of_lt_succ hk) with hlt | rfl
    · exact hbefore k hlt
    · obtain ⟨current, hprogressed⟩ := h k hk
      rcases hour_of_not_reaches hp hc hbefore with ⟨⟨_, hcompleted⟩, -⟩ | ⟨-, hnot⟩
      · rw [hprogressed] at hcompleted
        cases hcompleted
      · exact hnot

/-- A deed completes in the first hour whose gains together reach the indicator. -/
theorem completesAt_iff (hp : d.phase = .pending) (hc : d.current = .zero) :
    d.CompletesAt rate (n + 1) ↔
      (∀ k, k < n → reaches (gathered (hourlyGain d.template rate) (k + 1))
        d.template.progressIndicator = false) ∧
      reaches (gathered (hourlyGain d.template rate) (n + 1))
        d.template.progressIndicator = true := by
  constructor
  · intro h
    have hbefore := not_reaches_of_all_progressed hp hc (n := n)
      fun k hk => h.progressed k (by omega)
    refine ⟨hbefore, ?_⟩
    obtain ⟨current, hcompleted⟩ := h.completed
    rw [Nat.add_sub_cancel] at hcompleted
    rcases hour_of_not_reaches hp hc hbefore with ⟨-, hreaches⟩ | ⟨⟨_, hprogressed⟩, -⟩
    · exact hreaches
    · rw [hprogressed] at hcompleted
      cases hcompleted
  · rintro ⟨hbefore, hreaches⟩
    refine ⟨Nat.succ_pos n, fun m hm => ?_, ?_⟩
    · rcases hour_of_not_reaches hp hc (n := m) fun k hk => hbefore k (by omega)
        with ⟨-, hreached⟩ | ⟨hprogressed, -⟩
      · rw [hbefore m (by omega)] at hreached
        cases hreached
      · exact hprogressed
    · rcases hour_of_not_reaches hp hc hbefore with ⟨hcompleted, -⟩ | ⟨-, hnot⟩
      · exact hcompleted
      · rw [hreaches] at hnot
        cases hnot

/-- Gains that are not negative reach the indicator once and for all. -/
theorem completesAt_iff_last (n : Nat) (rate : Binary32) (hp : d.phase = .pending)
    (hc : d.current = .zero) (hpos : d.template.progressIndicator.IsPositive) :
    d.CompletesAt rate (n + 1) ↔
      reaches (gathered (hourlyGain d.template rate) n) d.template.progressIndicator = false ∧
      reaches (gathered (hourlyGain d.template rate) (n + 1))
        d.template.progressIndicator = true := by
  rw [completesAt_iff hp hc]
  refine and_congr_left fun hreaches => ⟨fun hbefore => ?_, fun hlast k hk => ?_⟩
  · cases n with
    | zero => exact not_reaches_zero hpos
    | succ m => exact hbefore m (by omega)
  · exact not_reaches_of_le (zero_le_hourlyGain ..) hlast (by omega)

end Hours

/-! ## Gains of definitions -/

section Derived

variable {definition : Definition} {t : Template}

theorem template_of_accepted (h : Template.ofDefinition definition = .ok t) :
    t.progressIndicator = definition.progressIndicator ∧
      t.fixedProgression = Template.gain definition := by
  unfold Template.ofDefinition at h
  dsimp only at h
  generalize (_ ++ _ : List Fault) = faults at h
  split at h
  · cases h
  · split at h
    · cases h
      exact ⟨rfl, rfl⟩
    · cases h

/-- Numbers of hours are not rounded up to a full significand, and never to less than one. -/
theorem ofNat_hours {hours : Nat} (hpos : 1 ≤ hours) (hlimit : hours < 2 ^ 32) : ∃ size,
    Binary32.ofNat hours = .finite false size ∧ 2 ^ 149 ≤ size.units ∧
      (hours ≤ 2 ^ 24 → size.units = hours * 2 ^ 149) := by
  have hunits : hours <<< 149 = hours * 2 ^ 149 := Nat.shiftLeft_eq ..
  have hle : hours <<< 149 ≤ 2 ^ 181 * 1 := by
    rw [hunits]
    omega
  obtain ⟨size, hround, -⟩ := Magnitude.exists_round_eq_some
    (a := ⟨2 ^ 181, 1, 181, by decide, by decide, by decide⟩) Nat.one_pos hle
  refine ⟨size, ofUnits_of_round hround, ?_, fun hexact => ?_⟩
  · apply Magnitude.le_of_round_eq_some (a := ⟨2 ^ 149, 1, 149, by decide, by decide, by decide⟩)
      Nat.one_pos _ hround
    show 2 ^ 149 * 1 ≤ hours <<< 149
    rw [hunits]
    omega
  · rw [units_of_round hround, hunits, Magnitude.nearest_of_le hexact (by decide)]

/-- The indicator spread over the hours. -/
theorem div_hours (size : Magnitude) {hours : Nat} (hpos : 1 ≤ hours) (hlimit : hours < 2 ^ 32) :
    ∃ gain : Magnitude, (finite false size).div (.ofNat hours) = .finite false gain ∧
      (hours ≤ 2 ^ 24 → gain.units = Magnitude.nearest size.units hours) := by
  obtain ⟨den, hden, hone, hexact⟩ := ofNat_hours hpos hlimit
  have hdenPos : 0 < den.units := by omega
  have hnum : size.units <<< 149 = size.units * 2 ^ 149 := Nat.shiftLeft_eq ..
  have hle : size.units <<< 149 ≤ size.units * den.units := by
    rw [hnum]
    exact Nat.mul_le_mul_left _ hone
  obtain ⟨gain, hround, -⟩ := Magnitude.exists_round_eq_some hdenPos hle
  refine ⟨gain, ?_, fun hsmall => ?_⟩
  · rw [hden]
    show (if den.units = 0 then _ else ofUnits false (size.units <<< 149) den.units) = _
    rw [if_neg (by omega)]
    exact ofUnits_of_round hround
  · rw [units_of_round hround, hnum, hexact hsmall, Magnitude.nearest_mul_right _ _ (by decide)]

end Derived

section Duration

variable {d : Deed} {gain : Magnitude}

/-- At the rate zero, a gain from the definition is the gain of each hour. -/
theorem hourlyGain_of_zero (negative : Bool)
    (h : d.template.fixedProgression = .finite false gain) :
    hourlyGain d.template (.finite negative .zero) = .finite false gain := by
  unfold hourlyGain
  rw [h, add_zero, max_zero]

/-- A tracked deed whose gain is derived from its duration takes that many hours, at the rate zero, if
rounding permits. For every accepted definition with a duration and a finite indicator, and without a
gain of its own, a deed that begins with no progression
* completes in the last hour exactly if the gains of all hours together reach the indicator, and
  those of all hours but the last do not;
* completes in the last hour if the indicator can be spread over the hours;
* completes in the last hour if the indicator is not below the least normal number and there are at
  most 1670 hours. -/
theorem duration_exact (definition : Definition) (t : Template) (d : Deed) (negative : Bool)
    (accepted : Template.ofDefinition definition = .ok t) (tracked : t.mode.isTracked = true)
    (derived : definition.fixedProgression = none) (duration : 1 ≤ definition.duration)
    (template : d.template = t) (pending : d.phase = .pending) (unbegun : d.current = .zero)
    (sign : Bool) (size : Magnitude) (finite : definition.progressIndicator = .finite sign size) :
    let hours := definition.duration.toNat
    let gain := definition.progressIndicator.div (.ofNat hours)
    (d.CompletesAt (.finite negative .zero) hours ↔
      reaches (gathered gain (hours - 1)) definition.progressIndicator = false ∧
        reaches (gathered gain hours) definition.progressIndicator = true) ∧
    (Magnitude.Spreads size.units hours → d.CompletesAt (.finite negative .zero) hours) ∧
    (2 ^ 23 ≤ size.units → hours ≤ 1670 → d.CompletesAt (.finite negative .zero) hours) := by
  subst template
  have hpos := Template.positive_of_definition accepted tracked
  obtain ⟨hindicator, hfixed⟩ := template_of_accepted accepted
  rw [hindicator, finite] at hpos
  obtain ⟨rfl, hunits⟩ : sign = false ∧ 0 < size.units := by simpa [IsPositive] using hpos
  have hhours : 1 ≤ definition.duration.toNat := UInt32.le_iff_toNat_le.1 duration
  obtain ⟨gain, hgain, hexact⟩ := div_hours size hhours (UInt32.toNat_lt _)
  have hfixedGain : d.template.fixedProgression = .finite false gain := by
    rw [hfixed, Template.gain, derived, Option.getD_none, if_neg, finite, hgain]
    rintro hzero
    rw [hzero] at duration
    exact absurd duration (by decide)
  have hhourly := hourlyGain_of_zero negative hfixedGain
  dsimp only
  rw [finite, hgain]
  generalize definition.duration.toNat = hours at *
  obtain ⟨n, rfl⟩ := Nat.exists_eq_add_of_le' hhours
  have hiff := completesAt_iff_last n (.finite negative .zero) pending unbegun
    (by rwa [hindicator, finite])
  rw [hhourly, hindicator, finite] at hiff
  have hspread : Magnitude.Spreads size.units (n + 1) →
      d.CompletesAt (.finite negative .zero) (n + 1) := by
    intro h
    have hsums := Magnitude.sums_of_spreads h
    rw [← hexact (Magnitude.hours_of_spreads h)] at hsums
    exact hiff.2 (reaches_of_sums hsums.1 hsums.2)
  refine ⟨hiff, hspread, fun hnormal hfew => hspread ?_⟩
  exact Magnitude.spreads_of_normal hnormal hfew

end Duration

/-! ## Durations that are kept, and some that are not -/

/-- The size of a whole number. -/
def whole (n : Nat) (h : n ≤ 2 ^ 24) : Magnitude :=
  ⟨n * 2 ^ 149, Magnitude.isMagnitude_of_le h (by decide)⟩

/-- An action of five hours whose gain is rounded. -/
def drill : Definition where
  name := "drill"
  duration := 5
  progressIndicator := .ofNat 12
  types := ["Indicator"]

/-- An action of ten thousand hours: the gain of an hour is as much as the tolerance. -/
def patrol : Definition where
  name := "patrol"
  duration := 10000
  progressIndicator := .ofNat 10000
  types := ["Indicator"]

/-- An action of two hours with the least indicator that there is: half of it is rounded to zero. -/
def glimpse : Definition where
  name := "glimpse"
  duration := 2
  progressIndicator := .ofUnits false 1 1
  types := ["Indicator"]

theorem executionMode_indicator : (⟨[.indicator]⟩ : TagSet).executionMode = some .indicator := rfl

/-- The template of an action that progresses, without conditions, effects and costs. -/
def plain (definition : Definition) (gain : Binary32) : Template where
  name := definition.name
  description := ""
  duration := definition.duration
  targetNumber := 1
  progressIndicator := definition.progressIndicator
  fixedProgression := gain
  tags := ⟨[.indicator]⟩
  mode := .indicator
  conditions := []
  effects := []
  costs := []
  mode_eq := executionMode_indicator

/-- A new deed at the docks that is begun at once. -/
def begun (t : Template) : Deed := (ofTemplate ⟨1⟩ t (.location ⟨1⟩ "Docks")).start

theorem accepted_plain :
    Template.ofDefinition drill = .ok (plain drill (drill.progressIndicator.div (.ofNat 5))) ∧
    Template.ofDefinition patrol = .ok (plain patrol (.ofNat 1)) ∧
    Template.ofDefinition glimpse = .ok (plain glimpse .zero) := by
  decide +kernel

/-- A drill is accepted, and takes its five hours. -/
theorem duration_drill :
    Template.ofDefinition drill = .ok (plain drill (drill.progressIndicator.div (.ofNat 5))) ∧
    (begun (plain drill (drill.progressIndicator.div (.ofNat 5)))).CompletesAt .zero 5 := by
  refine ⟨accepted_plain.1, ?_⟩
  have kept := duration_exact drill _ (begun _) false accepted_plain.1 rfl rfl (by decide) rfl rfl rfl
    false (whole 12 (by decide)) (by decide)
  exact kept.2.2 (by decide) (by decide)

/-- The gains of a patrol are exact, and so are their sums: all but the last are enough. -/
theorem reaches_patrol : reaches (gathered (.ofNat 1) 9998) patrol.progressIndicator = false ∧
    reaches (gathered (.ofNat 1) 9999) patrol.progressIndicator = true := by
  have hgain : Binary32.ofNat 1 = .finite false (whole 1 (by decide)) := by decide
  have hsize : patrol.progressIndicator = .finite false (whole 10000 (by decide)) := by
    decide
  have henough : Magnitude.enough (whole 10000 (by decide)).units = 9999 * 2 ^ 149 := by
    decide
  have hsum : Magnitude.sums (whole 1 (by decide)).units 9998 = 9998 * 2 ^ 149 :=
    Magnitude.sums_of_le (m := 1) (e := 149) (n := 9998) (by decide) (by decide)
  rw [hgain, hsize]
  apply reaches_of_sums
  · rw [hsum, henough]
    decide
  · rw [hsum, henough]
    decide

theorem patrol_early : (begun (plain patrol (.ofNat 1))).CompletesAt .zero 9999 ∧
    ¬(begun (plain patrol (.ofNat 1))).CompletesAt .zero 10000 := by
  obtain ⟨hnot, hreaches⟩ := reaches_patrol
  have hgain : hourlyGain (begun (plain patrol (.ofNat 1))).template .zero = .ofNat 1 := by
    decide
  have hpos : (begun (plain patrol (.ofNat 1))).template.progressIndicator.IsPositive := by
    decide
  rw [completesAt_iff_last 9998 .zero rfl rfl hpos, completesAt_iff_last 9999 .zero rfl rfl hpos,
    hgain]
  refine ⟨⟨hnot, hreaches⟩, ?_⟩
  rintro ⟨hlate, -⟩
  rw [show (begun (plain patrol (.ofNat 1))).template.progressIndicator
    = patrol.progressIndicator from rfl, hreaches] at hlate
  cases hlate

theorem gathered_zero (n : Nat) : gathered .zero n = .zero := by
  induction n with
  | zero => rfl
  | succ n ih =>
    rw [gathered, ih]
    decide

theorem glimpse_endless (hours : Nat) : ¬(begun (plain glimpse .zero)).CompletesAt .zero hours := by
  intro h
  have hgain : hourlyGain (begun (plain glimpse .zero)).template .zero = .zero := by
    decide
  have hpos : (begun (plain glimpse .zero)).template.progressIndicator.IsPositive := by
    decide
  obtain ⟨n, rfl⟩ := Nat.exists_eq_add_of_le' h.positive
  obtain ⟨-, hreaches⟩ := (completesAt_iff_last n .zero rfl rfl hpos).1 h
  rw [hgain, gathered_zero, not_reaches_zero hpos] at hreaches
  cases hreaches

/-- A patrol of ten thousand hours is over an hour early, and a glimpse of two hours is never over. -/
theorem duration_not_kept :
    (Template.ofDefinition patrol = .ok (plain patrol (.ofNat 1)) ∧
      (begun (plain patrol (.ofNat 1))).CompletesAt .zero 9999 ∧
      ¬(begun (plain patrol (.ofNat 1))).CompletesAt .zero 10000) ∧
    Template.ofDefinition glimpse = .ok (plain glimpse .zero) ∧
      ∀ hours, ¬(begun (plain glimpse .zero)).CompletesAt .zero hours :=
  ⟨⟨accepted_plain.2.1, patrol_early⟩, accepted_plain.2.2, glimpse_endless⟩

end Deed

end Deeds
