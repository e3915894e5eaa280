import Deeds.Proofs.Rounding
import Mathlib.Tactic.Linarith

/-!
# How far rounding goes

A rounded quotient is off by half a unit, or by a part in `2 ^ 24` of itself where the units are too
fine for it. Sums of sizes that are few units in all are not rounded at all; the others drift off by
no more than what each of their steps rounds away.

* `Magnitude.nearest_units` : sizes are rounded to themselves;
* `Magnitude.within_nearest` : how far a rounded quotient is from the quotient;
* `Magnitude.sums` : one size added again and again;
* `Magnitude.sums_of_le` : sums that are exact;
* `Magnitude.within_sums` : how far the others are from the multiple.
-/

namespace Deeds

/-- Two numbers that differ by no more than a bound. -/
structure Within (bound a b : Nat) : Prop where
  upper : a ≤ b + bound
  lower : b ≤ a + bound

theorem within_roundHalfEven {den : Nat} (num : Nat) (hden : 0 < den) :
    Within den (2 * (roundHalfEven num den * den)) (2 * num) := by
  have hnum := Nat.div_add_mod' num den
  have hrest := Nat.mod_lt num hden
  have hnext : (num / den + 1) * den = num / den * den + den := Nat.succ_mul ..
  simp only [roundHalfEven]
  repeat' split
  all_goals constructor <;> omega

theorem roundHalfEven_mul_right {c : Nat} (num den : Nat) (hc : 0 < c) :
    roundHalfEven (num * c) (den * c) = roundHalfEven num den := by
  have hless : ∀ a b, (a * c < b * c) = (a < b) := fun a b => propext (Nat.mul_lt_mul_right hc)
  unfold roundHalfEven
  simp only [Nat.mul_div_mul_right _ _ hc, Nat.mul_mod_mul_right, ← Nat.mul_assoc, hless]

namespace Magnitude

variable {den : Nat}

/-- Rounding looks at the quotient alone. -/
theorem nearest_mul_right {c : Nat} (num den : Nat) (hc : 0 < c) :
    nearest (num * c) (den * c) = nearest num den := by
  rw [nearest_eq, nearest_eq, Nat.mul_div_mul_right _ _ hc, Nat.mul_right_comm,
    roundHalfEven_mul_right _ _ hc]

/-- Sizes are rounded to themselves. -/
theorem nearest_units (a : Magnitude) : nearest a.units 1 = a.units :=
  Nat.le_antisymm (nearest_le Nat.one_pos (Nat.mul_one _).ge)
    (le_nearest Nat.one_pos (Nat.mul_one _).le)

/-- Up to a full significand, on every grid, there is nothing to round. -/
theorem isMagnitude_of_le {m e : Nat} (hm : m ≤ 2 ^ 24) (he : e ≤ 252) :
    IsMagnitude (m * 2 ^ e) := by
  rcases Nat.lt_or_eq_of_le hm with hlt | rfl
  · exact ⟨m, e, by rwa [Nat.one_shiftLeft], by omega, by rw [Nat.shiftLeft_eq]⟩
  · refine ⟨2 ^ 23, e + 1, by decide, by omega, ?_⟩
    rw [Nat.shiftLeft_eq, Nat.pow_succ]
    ring

theorem nearest_of_le {m e : Nat} (hm : m ≤ 2 ^ 24) (he : e ≤ 252) :
    nearest (m * 2 ^ e) 1 = m * 2 ^ e :=
  nearest_units ⟨_, isMagnitude_of_le hm he⟩

/-- Where a grid is wider than the units, the quotient has a full significand on it. -/
theorem grid_le (num den : Nat) :
    2 ^ 23 * (den * 2 ^ shift (num / den)) ≤ max (2 ^ 23 * den) num := by
  rcases Nat.eq_zero_or_pos (shift (num / den)) with hzero | hpos
  · rw [hzero, Nat.pow_zero, Nat.mul_one]
    exact Nat.le_max_left ..
  · refine Nat.le_trans ?_ (Nat.le_max_right ..)
    calc 2 ^ 23 * (den * 2 ^ shift (num / den))
        = 2 ^ (23 + shift (num / den)) * den := by rw [Nat.pow_add]; ring
      _ ≤ num / den / 2 ^ shift (num / den) * 2 ^ shift (num / den) * den :=
          Nat.mul_le_mul_right _ (pow_le_of_shift_pos hpos)
      _ ≤ num / den * den := Nat.mul_le_mul_right _ (Nat.div_mul_le_self ..)
      _ ≤ num := Nat.div_mul_le_self ..

/-- A rounded quotient is off by half a unit, or by a part in `2 ^ 24`. -/
theorem within_nearest (num : Nat) (hden : 0 < den) :
    Within (max (2 ^ 23 * den) num) (2 ^ 24 * (nearest num den * den)) (2 ^ 24 * num) := by
  have hgrid := grid_le num den
  have hround := within_roundHalfEven num
    (Nat.mul_pos hden (Nat.two_pow_pos (shift (num / den))))
  have hunits : nearest num den * den = roundHalfEven num (den * 2 ^ shift (num / den))
      * (den * 2 ^ shift (num / den)) := by
    rw [nearest_eq]
    ring
  rw [hunits]
  have hupper := hround.upper
  have hlower := hround.lower
  constructor <;> omega

/-- A rounded total is off by a part in `2 ^ 24`. -/
theorem within_nearest_one (total : Nat) :
    Within total (2 ^ 24 * nearest total 1) (2 ^ 24 * total) := by
  rcases Nat.le_total total (2 ^ 24) with hle | hge
  · have hexact := nearest_of_le (e := 0) hle (by omega)
    rw [Nat.pow_zero, Nat.mul_one] at hexact
    rw [hexact]
    constructor <;> omega
  · have h := within_nearest total Nat.one_pos
    rwa [Nat.mul_one, Nat.mul_one, Nat.max_eq_right (by omega)] at h

/-! ## Sums -/

/-- A size added again and again, and the sum rounded each time. -/
def sums (gain : Nat) : Nat → Nat
  | 0 => 0
  | n + 1 => nearest (sums gain n + gain) 1

/-- Sums are exact as long as they are few units of some grid. -/
theorem sums_of_le {m e n : Nat} (he : e ≤ 252) (h : n * m ≤ 2 ^ 24) :
    sums (m * 2 ^ e) n = n * m * 2 ^ e := by
  induction n with
  | zero => rw [sums, Nat.zero_mul, Nat.zero_mul]
  | succ n ih =>
    have hnext : n * m * 2 ^ e + m * 2 ^ e = (n + 1) * m * 2 ^ e := by ring
    rw [sums, ih (by linarith), hnext, nearest_of_le h he]

/-- A sum that has got to some size does not fall below it. -/
theorem sums_lt_of_succ {gain n : Nat} (bound : Magnitude)
    (h : sums gain (n + 1) < bound.units) : sums gain n < bound.units := by
  by_contra hge
  have hnext : bound.units ≤ nearest (sums gain n + gain) 1 :=
    le_nearest Nat.one_pos (by omega)
  rw [sums] at h
  omega

/-- Each step rounds away a part of what is there so far, which is all gains up to then. So the sum
drifts off with the square of their number. -/
theorem within_sums {n : Nat} (gain : Nat) (hn : n ≤ 4431) :
    Within (n * (n + 1) * gain) (33550000 * sums gain n) (33550000 * (n * gain)) := by
  induction n with
  | zero =>
    rw [sums, Nat.zero_mul]
    constructor <;> omega
  | succ n ih =>
    have hsum := ih (by omega)
    have hround := within_nearest_one (sums gain n + gain)
    have hupper := hsum.upper
    have hlower := hsum.lower
    have hup := hround.upper
    have hlow := hround.lower
    -- the square of the number of gains counts only up to where it is small beside a significand
    have hsquare : n * (n * gain) ≤ 4430 * (n * gain) := Nat.mul_le_mul_right _ (by omega)
    rw [sums]
    constructor <;> linarith

end Magnitude

end Deeds
