import Deeds.Binary32.Arithmetic
import Mathlib.Tactic.Ring

/-!
# Rounding keeps the order

A rounded result lies on the same side of every size as the exact one, so sums and differences of
floating-point numbers move the way their exact counterparts do, or not at all.

* `Magnitude.le_nearest`, `Magnitude.nearest_le` : rounding stops at every size;
* `Binary32.le_trans`, `Binary32.le_total` : the order of all values but not-a-number;
* `Binary32.le_add`, `Binary32.add_le` : what is added decides the direction;
* `Binary32.le_max_left`, `Binary32.le_max_right` : the larger operand is an upper bound.
-/

namespace Deeds

theorem roundHalfEven_le_of_le {num den c : Nat} (hden : 0 < den) (h : num ≤ c * den) :
    roundHalfEven num den ≤ c := by
  have hq : num / den ≤ c := Nat.div_le_of_le_mul (by rwa [Nat.mul_comm])
  rcases Nat.lt_or_eq_of_le hq with hlt | heq
  · have := roundHalfEven_le num den
    omega
  · -- nothing is left over, so nothing is rounded up
    have hrest : num % den = 0 := by
      have := Nat.div_add_mod num den
      rw [heq, Nat.mul_comm] at this
      omega
    simp only [roundHalfEven, hrest, Nat.mul_zero, hden, if_true, heq, Nat.le_refl]

namespace Magnitude

variable {num den e : Nat} {a : Magnitude}

theorem nearest_eq (num den : Nat) : nearest num den =
    roundHalfEven num (den * 2 ^ shift (num / den)) * 2 ^ shift (num / den) := by
  simp only [nearest, Nat.shiftLeft_eq]

/-- A size off a grid is below the places where the grid is used. -/
theorem dvd_units_or_lt (a : Magnitude) (e : Nat) :
    2 ^ e ∣ a.units ∨ 0 < e ∧ a.units < 2 ^ (23 + e) := by
  obtain ⟨m, k, hm, -, hunits⟩ := a.isMagnitude
  rw [Nat.shiftLeft_eq] at hunits
  rcases Nat.lt_or_ge k e with hlt | hge
  · refine .inr ⟨by omega, ?_⟩
    calc a.units = m * 2 ^ k := hunits
      _ < 2 ^ 24 * 2 ^ k := Nat.mul_lt_mul_of_pos_right hm (Nat.two_pow_pos k)
      _ = 2 ^ (24 + k) := (Nat.pow_add 2 24 k).symm
      _ ≤ 2 ^ (23 + e) := Nat.pow_le_pow_right (by decide) (by omega)
  · refine .inl ?_
    rw [hunits]
    exact Nat.dvd_mul_left_of_dvd (Nat.pow_dvd_pow 2 hge) m

/-- Where a grid is used that is wider than the units, it begins with a full significand. -/
theorem pow_le_of_shift_pos {q : Nat} (h : 0 < shift q) :
    2 ^ (23 + shift q) ≤ q / 2 ^ shift q * 2 ^ shift q := by
  have hq := le_shiftRight_shift h
  rw [Nat.shiftRight_eq_div_pow, Nat.one_shiftLeft] at hq
  rw [Nat.pow_add]
  exact Nat.mul_le_mul_right _ hq

/-- Rounding goes no lower than a size below. -/
theorem le_nearest (hden : 0 < den) (h : a.units * den ≤ num) : a.units ≤ nearest num den := by
  have hq : a.units ≤ num / den := (Nat.le_div_iff_mul_le hden).2 h
  rw [nearest_eq]
  generalize he : shift (num / den) = e
  have hround : num / den / 2 ^ e * 2 ^ e ≤ roundHalfEven num (den * 2 ^ e) * 2 ^ e := by
    rw [Nat.div_div_eq_div_mul]
    exact Nat.mul_le_mul_right _ (le_roundHalfEven ..)
  refine Nat.le_trans ?_ hround
  rcases dvd_units_or_lt a e with hdvd | ⟨hpos, hlt⟩
  · calc a.units = a.units / 2 ^ e * 2 ^ e := (Nat.div_mul_cancel hdvd).symm
      _ ≤ num / den / 2 ^ e * 2 ^ e := Nat.mul_le_mul_right _ (Nat.div_le_div_right hq)
  · have hgrid := pow_le_of_shift_pos (q := num / den) (by rwa [he])
    rw [he] at hgrid
    omega

/-- Rounding goes no higher than a size above. -/
theorem nearest_le (hden : 0 < den) (h : num ≤ a.units * den) : nearest num den ≤ a.units := by
  have hq : num / den ≤ a.units := Nat.div_le_of_le_mul (by rwa [Nat.mul_comm])
  rw [nearest_eq]
  generalize he : shift (num / den) = e
  rcases dvd_units_or_lt a e with ⟨c, hc⟩ | ⟨hpos, hlt⟩
  · have hnum : num ≤ c * (den * 2 ^ e) := by
      calc num ≤ a.units * den := h
        _ = c * (den * 2 ^ e) := by rw [hc]; ring
    rw [hc, Nat.mul_comm (2 ^ e)]
    exact Nat.mul_le_mul_right _
      (roundHalfEven_le_of_le (Nat.mul_pos hden (Nat.two_pow_pos e)) hnum)
  · -- the quotient would be beyond the size
    have hgrid := pow_le_of_shift_pos (q := num / den) (by rwa [he])
    have hback := Nat.div_mul_le_self (num / den) (2 ^ e)
    rw [he] at hgrid
    omega

theorem units_lt_limit (a : Magnitude) : a.units < limit := by
  obtain ⟨m, k, hm, hk, hunits⟩ := a.isMagnitude
  rw [hunits, limit, Nat.shiftLeft_eq, Nat.shiftLeft_eq (1 <<< 24)]
  calc m * 2 ^ k < 1 <<< 24 * 2 ^ k := Nat.mul_lt_mul_of_pos_right hm (Nat.two_pow_pos k)
    _ ≤ 1 <<< 24 * 2 ^ 253 := Nat.mul_le_mul_left _ (Nat.pow_le_pow_right (by decide) hk)

theorem le_of_round_eq_some {p : Magnitude} (hden : 0 < den) (h : a.units * den ≤ num)
    (hround : round num den = some p) : a.units ≤ p.units := by
  unfold round at hround
  split at hround
  · cases hround
    exact le_nearest hden h
  · cases hround

theorem exists_round_eq_some (hden : 0 < den) (h : num ≤ a.units * den) :
    ∃ p, round num den = some p ∧ p.units ≤ a.units := by
  have hle := nearest_le hden h
  have hlt : nearest num den < limit := Nat.lt_of_le_of_lt hle a.units_lt_limit
  exact ⟨_, by rw [round, dif_pos hlt], hle⟩

end Magnitude

namespace Binary32

variable {x y z g : Binary32}

/-! ## The order -/

theorem le_finite_iff {s t : Bool} {m n : Magnitude} :
    le (.finite s m) (.finite t n) = true ↔ signedUnits s m ≤ signedUnits t n := decide_eq_true_iff

theorem le_infinity {s t : Bool} : le (.infinity s) (.infinity t) = (s || !t) := rfl

theorem ne_nan_of_le (h : le x y = true) : x ≠ .nan ∧ y ≠ .nan := by
  constructor
  · rintro rfl
    cases h
  · rintro rfl
    cases x <;> cases h

theorem le_total (hx : x ≠ .nan) (hy : y ≠ .nan) : le x y = true ∨ le y x = true := by
  cases x with
  | nan => exact absurd rfl hx
  | infinity s => cases y with
    | nan => exact absurd rfl hy
    | infinity t => cases s <;> cases t <;> simp [le_infinity]
    | finite => cases s with
      | true => exact .inl rfl
      | false => exact .inr rfl
  | finite s m => cases y with
    | nan => exact absurd rfl hy
    | infinity t => cases t with
      | true => exact .inr rfl
      | false => exact .inl rfl
    | finite t n =>
      rw [le_finite_iff, le_finite_iff]
      omega

theorem lt_of_le_eq_false (hx : x ≠ .nan) (hy : y ≠ .nan) (h : le y x = false) :
    lt x y = true := by
  have hle : le x y = true := (le_total hx hy).resolve_right (by rw [h]; nofun)
  rw [lt, hle, h]
  rfl

theorem le_refl (hx : x ≠ .nan) : le x x = true := (le_total hx hx).elim id id

theorem le_trans (hxy : le x y = true) (hyz : le y z = true) : le x z = true := by
  cases x with
  | nan => cases hxy
  | infinity s =>
    cases y <;> cases z <;> cases s <;> simp_all [le]
  | finite s m =>
    cases y <;> cases z <;> simp_all [le]
    omega

/-! ## The larger operand -/

theorem max_eq (hx : x ≠ .nan) (hy : y ≠ .nan) : x.max y = if lt y x then x else y := by
  cases x <;> cases y <;> first | rfl | contradiction

theorem max_nan (x : Binary32) : x.max .nan = x := by
  cases x <;> rfl

theorem le_max_right (hy : y ≠ .nan) : le y (x.max y) = true := by
  by_cases hx : x = .nan
  · subst hx
    exact le_refl hy
  · rw [max_eq hx hy]
    split
    next hlt =>
      unfold lt at hlt
      simp only [Bool.and_eq_true] at hlt
      exact hlt.1
    · exact le_refl hy

theorem le_max_left (hx : x ≠ .nan) : le x (x.max y) = true := by
  by_cases hy : y = .nan
  · rw [hy, max_nan]
    exact le_refl hx
  · rw [max_eq hx hy]
    split
    · exact le_refl hx
    next hlt =>
      cases hxy : le x y with
      | true => rfl
      | false => exact absurd (lt_of_le_eq_false hy hx hxy) hlt

/-! ## Rounded values -/

section Rounded

variable {s t : Bool} {m n : Magnitude} {num den : Nat} {total : Int}

theorem signedUnits_true (m : Magnitude) : signedUnits true m = -(m.units : Int) := rfl

theorem signedUnits_false (m : Magnitude) : signedUnits false m = m.units := rfl

theorem signedUnits_not (s : Bool) (m : Magnitude) : signedUnits (!s) m = -signedUnits s m := by
  cases s with
  | true => exact (Int.neg_neg _).symm
  | false => rfl

theorem le_neg_neg (x y : Binary32) : le x.neg y.neg = le y x := by
  cases x with
  | nan => cases y <;> rfl
  | infinity s => cases y with
    | infinity t => cases s <;> cases t <;> rfl
    | nan => rfl
    | finite => rfl
  | finite s m => cases y with
    | finite t n =>
      rw [Bool.eq_iff_iff, neg, neg, le_finite_iff, le_finite_iff, signedUnits_not, signedUnits_not,
        Int.neg_le_neg_iff]
    | nan => rfl
    | infinity t => cases t <;> rfl

theorem neg_ofUnits (s : Bool) (num den : Nat) :
    (ofUnits s num den).neg = ofUnits (!s) num den := by
  unfold ofUnits
  split <;> rfl

theorem ofUnits_of_round {p : Magnitude} (h : Magnitude.round num den = some p) :
    ofUnits s num den = .finite s p := by
  unfold ofUnits
  rw [h]

theorem ofUnits_of_round_none (h : Magnitude.round num den = none) :
    ofUnits s num den = .infinity s := by
  unfold ofUnits
  rw [h]

theorem le_ofUnits_pos (hden : 0 < den) (h : signedUnits s m * den ≤ num) :
    le (.finite s m) (ofUnits false num den) = true := by
  cases hround : Magnitude.round num den with
  | none =>
    rw [ofUnits_of_round_none hround]
    rfl
  | some p =>
    rw [ofUnits_of_round hround, le_finite_iff]
    cases s with
    | true =>
      rw [signedUnits_true, signedUnits_false]
      omega
    | false =>
      rw [signedUnits_false] at h
      exact Int.ofNat_le.2 (Magnitude.le_of_round_eq_some hden (by exact_mod_cast h) hround)

theorem ofUnits_pos_le (hden : 0 < den) (h : num ≤ m.units * den) :
    le (ofUnits false num den) (.finite false m) = true := by
  obtain ⟨p, hround, hp⟩ := Magnitude.exists_round_eq_some hden h
  rw [ofUnits_of_round hround, le_finite_iff]
  exact Int.ofNat_le.2 hp

theorem ofUnits_neg_le (hden : 0 < den) (h : -(num : Int) ≤ signedUnits s m * den) :
    le (ofUnits true num den) (.finite s m) = true := by
  rw [← le_neg_neg, neg_ofUnits]
  refine le_ofUnits_pos hden ?_
  rw [signedUnits_not, Int.neg_mul]
  omega

theorem le_ofUnits_neg (hden : 0 < den) (h : num ≤ m.units * den) :
    le (.finite true m) (ofUnits true num den) = true := by
  rw [← le_neg_neg, neg_ofUnits]
  exact ofUnits_pos_le hden h

/-- The value nearest to an integer is not below any value that the integer is not below. -/
theorem le_ofUnits (h : signedUnits s m ≤ total) :
    le (.finite s m) (ofUnits (total < 0) total.natAbs 1) = true := by
  by_cases hneg : total < 0
  · rw [decide_eq_true hneg]
    cases s with
    | true =>
      rw [signedUnits_true] at h
      exact le_ofUnits_neg Nat.one_pos (by omega)
    | false =>
      rw [signedUnits_false] at h
      omega
  · rw [decide_eq_false hneg]
    exact le_ofUnits_pos Nat.one_pos (by omega)

/-- The value nearest to an integer is not above any value that the integer is not above. -/
theorem ofUnits_le (h : total ≤ signedUnits s m) :
    le (ofUnits (total < 0) total.natAbs 1) (.finite s m) = true := by
  by_cases hneg : total < 0
  · rw [decide_eq_true hneg]
    exact ofUnits_neg_le Nat.one_pos (by omega)
  · rw [decide_eq_false hneg]
    refine le_trans (ofUnits_pos_le (m := m) Nat.one_pos ?_) (le_finite_iff.2 ?_)
    all_goals
      cases s <;> simp only [signedUnits_true, signedUnits_false] at h ⊢ <;> omega

end Rounded

/-! ## Sums -/

theorem zero_le_finite_iff {s : Bool} {m : Magnitude} :
    le .zero (.finite s m) = true ↔ 0 ≤ signedUnits s m := by
  rw [zero, le_finite_iff]
  rfl

theorem finite_le_zero_iff {s : Bool} {m : Magnitude} :
    le (.finite s m) .zero = true ↔ signedUnits s m ≤ 0 := by
  rw [zero, le_finite_iff]
  rfl

theorem add_finite (s t : Bool) (m n : Magnitude) : (finite s m).add (.finite t n) =
    if signedUnits s m + signedUnits t n = 0 then .finite (s && t) .zero
    else ofUnits (signedUnits s m + signedUnits t n < 0)
      (signedUnits s m + signedUnits t n).natAbs 1 := rfl

theorem add_infinity (s t : Bool) :
    (infinity s).add (.infinity t) = if s = t then .infinity s else .nan := rfl

theorem signedUnits_zero (s : Bool) : signedUnits s .zero = 0 := by
  cases s <;> rfl

/-- A sum is one of the operands if one of them is infinite. -/
theorem add_cases (hsum : x.add g ≠ .nan) : x.add g = x ∨
    (∃ s m t, x = .finite s m ∧ g = .infinity t ∧ x.add g = g) ∨
    ∃ s m t n, x = .finite s m ∧ g = .finite t n := by
  cases x with
  | nan => exact absurd rfl hsum
  | infinity s =>
    refine .inl ?_
    cases g with
    | nan => exact absurd rfl hsum
    | infinity t =>
      rw [add_infinity] at hsum ⊢
      split at hsum
      next heq => rw [if_pos heq]
      · exact absurd rfl hsum
    | finite => rfl
  | finite s m =>
    cases g with
    | nan => exact absurd rfl hsum
    | infinity t => exact .inr (.inl ⟨s, m, t, rfl, rfl, rfl⟩)
    | finite t n => exact .inr (.inr ⟨s, m, t, n, rfl, rfl⟩)

/-- A sum is not below the first operand, if the second is not below zero. -/
theorem le_add (hg : le .zero g = true) (hsum : x.add g ≠ .nan) : le x (x.add g) = true := by
  rcases add_cases hsum with heq | ⟨s, m, t, rfl, rfl, heq⟩ | ⟨s, m, t, n, rfl, rfl⟩
  · rw [heq] at hsum ⊢
    exact le_refl hsum
  · rw [heq]
    exact hg
  · have hn := zero_le_finite_iff.1 hg
    rw [add_finite]
    split
    · rw [le_finite_iff, signedUnits_zero]
      omega
    · exact le_ofUnits (by omega)

/-- A sum is not above the first operand, if the second is not above zero. -/
theorem add_le (hg : le g .zero = true) (hsum : x.add g ≠ .nan) : le (x.add g) x = true := by
  rcases add_cases hsum with heq | ⟨s, m, t, rfl, rfl, heq⟩ | ⟨s, m, t, n, rfl, rfl⟩
  · rw [heq] at hsum ⊢
    exact le_refl hsum
  · rw [heq]
    exact hg
  · have hn := finite_le_zero_iff.1 hg
    rw [add_finite]
    split
    · rw [le_finite_iff, signedUnits_zero]
      omega
    · exact ofUnits_le (by omega)

theorem ofUnits_ne_nan (s : Bool) (num den : Nat) : ofUnits s num den ≠ .nan := by
  unfold ofUnits
  split
  · nofun
  · nofun

theorem finite_add_ne_nan {s : Bool} {m : Magnitude} (hg : g ≠ .nan) :
    (finite s m).add g ≠ .nan := by
  cases g with
  | nan => exact absurd rfl hg
  | infinity t => nofun
  | finite t n =>
    rw [add_finite]
    split
    · nofun
    · exact ofUnits_ne_nan _ _ _

theorem add_ne_nan (hx : le .zero x = true) (hg : le .zero g = true) : x.add g ≠ .nan := by
  cases x with
  | nan => cases hx
  | infinity s =>
    cases g with
    | nan => cases hg
    | infinity t =>
      obtain rfl : s = false := Bool.eq_false_of_not_eq_true' hx
      obtain rfl : t = false := Bool.eq_false_of_not_eq_true' hg
      rw [add_infinity, if_pos rfl]
      nofun
    | finite => nofun
  | finite s m => exact finite_add_ne_nan (ne_nan_of_le hg).2

end Binary32

end Deeds
