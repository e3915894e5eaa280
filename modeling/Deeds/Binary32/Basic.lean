/-!
# Binary floating point in 32 bits

* `Magnitude` : a finite size, counted in units of `2 ^ -149`, the least positive value; a size is
  a significand below `2 ^ 24` shifted by at most 253 places;
* `roundHalfEven` : the integer nearest to a quotient, a half going to the even neighbour;
* `Magnitude.round` : the size nearest to a quotient of units, `none` beyond the largest size;
* `Binary32` : one not-a-number, two infinities, and signed sizes;
* `Binary32.toBits` : the interchange encoding.

Since every finite value is an integer number of units, order and arithmetic of finite values are
those of integers, followed by one rounding.
-/

namespace Deeds

/-- The integer nearest to `num / den`; of two equally near ones the even one. -/
def roundHalfEven (num den : Nat) : Nat :=
  let q := num / den
  let r := num % den
  if 2 * r < den then q
  else if den < 2 * r then q + 1
  else if q % 2 = 0 then q else q + 1

theorem le_roundHalfEven (num den : Nat) : num / den ≤ roundHalfEven num den := by
  simp only [roundHalfEven]
  repeat' split
  all_goals omega

theorem roundHalfEven_le (num den : Nat) : roundHalfEven num den ≤ num / den + 1 := by
  simp only [roundHalfEven]
  repeat' split
  all_goals omega

/-- A count of units that a finite value can have. -/
def IsMagnitude (units : Nat) : Prop :=
  ∃ m e, m < 1 <<< 24 ∧ e ≤ 253 ∧ units = m <<< e

/-- The size of a finite value, in units of `2 ^ -149`. -/
structure Magnitude where
  units : Nat
  isMagnitude : IsMagnitude units
  deriving DecidableEq

namespace Magnitude

/-- The first count of units beyond all sizes. -/
def limit : Nat := 1 <<< 24 <<< 253

theorem eq_of_units_eq {a b : Magnitude} (h : a.units = b.units) : a = b := by
  cases a; cases b; simp_all

/-- How many places the significand of a size with this many units is shifted. -/
def shift (units : Nat) : Nat := units.log2 - 23

/-- The candidate of `round`: the nearest multiple of the grid spacing at `num / den`. -/
def nearest (num den : Nat) : Nat :=
  let e := shift (num / den)
  roundHalfEven num (den <<< e) <<< e

theorem shiftRight_shift_lt (q : Nat) : q >>> shift q < 1 <<< 24 := by
  rw [Nat.shiftRight_eq_div_pow, Nat.shiftLeft_eq, Nat.one_mul]
  by_cases hq : q = 0
  · subst hq; decide
  · have h1 : q < 2 ^ (q.log2 + 1) := Nat.lt_log2_self
    rw [Nat.div_lt_iff_lt_mul (Nat.two_pow_pos _), ← Nat.pow_add]
    exact Nat.lt_of_lt_of_le h1 (Nat.pow_le_pow_right (by decide) (by unfold shift; omega))

theorem le_shiftRight_shift {q : Nat} (h : 0 < shift q) : 1 <<< 23 ≤ q >>> shift q := by
  have hq : q ≠ 0 := by rintro rfl; revert h; decide
  rw [Nat.shiftRight_eq_div_pow, Nat.shiftLeft_eq, Nat.one_mul,
    Nat.le_div_iff_mul_le (Nat.two_pow_pos _), ← Nat.pow_add]
  have h1 : 2 ^ q.log2 ≤ q := Nat.log2_self_le hq
  refine Nat.le_trans (Nat.pow_le_pow_right (by decide) ?_) h1
  unfold shift at *; omega

theorem isMagnitude_nearest {num den : Nat} (h : nearest num den < limit) :
    IsMagnitude (nearest num den) := by
  have e_def : nearest num den
      = roundHalfEven num (den * 2 ^ shift (num / den)) * 2 ^ shift (num / den) := by
    simp only [nearest, Nat.shiftLeft_eq]
  have hlim : limit = 2 ^ 24 * 2 ^ 253 := by rw [limit, Nat.shiftLeft_eq, Nat.one_shiftLeft]
  generalize hs : shift (num / den) = e at e_def
  generalize hk : roundHalfEven num (den * 2 ^ e) = k at e_def
  have hlo := le_roundHalfEven num (den * 2 ^ e)
  have hhi := roundHalfEven_le num (den * 2 ^ e)
  rw [hk, ← Nat.div_div_eq_div_mul, ← Nat.shiftRight_eq_div_pow] at hlo hhi
  have hq := shiftRight_shift_lt (num / den)
  rw [hs] at hq
  have he : e ≤ 253 := by
    rcases Nat.eq_zero_or_pos e with h0 | hpos
    · omega
    · have hb := le_shiftRight_shift (q := num / den) (by rw [hs]; exact hpos)
      rw [hs] at hb
      have hm : 2 ^ (23 + e) ≤ nearest num den := by
        rw [e_def, Nat.pow_add]; exact Nat.mul_le_mul_right _ (Nat.le_trans hb hlo)
      rw [hlim, ← Nat.pow_add] at h
      have := (Nat.pow_lt_pow_iff_right (a := 2) (by decide)).1 (Nat.lt_of_le_of_lt hm h)
      omega
  by_cases hk' : k < 1 <<< 24
  · exact ⟨k, e, hk', he, by rw [e_def, Nat.shiftLeft_eq]⟩
  · have hk24 : k = 2 ^ 24 := by omega
    refine ⟨2 ^ 23, e + 1, by decide, ?_, ?_⟩
    · rw [hlim, e_def, hk24, ← Nat.pow_add, ← Nat.pow_add] at h
      have := (Nat.pow_lt_pow_iff_right (a := 2) (by decide)).1 h
      omega
    · rw [e_def, hk24, Nat.shiftLeft_eq, Nat.pow_succ]; omega

/-- The size nearest to `num / den` units, ties to the even significand; `none` when that lies
beyond the largest size. -/
def round (num den : Nat) : Option Magnitude :=
  if h : nearest num den < limit then some ⟨nearest num den, isMagnitude_nearest h⟩ else none

/-- No units at all. -/
def zero : Magnitude := ⟨0, 0, 0, by decide, by decide, rfl⟩

/-- The encoding of a size: sizes in ascending order have consecutive codes. -/
def code (s : Magnitude) : Nat := shift s.units <<< 23 + s.units >>> shift s.units

end Magnitude

/-- A binary floating-point number of 32 bits. -/
inductive Binary32 where
  | nan
  | infinity (negative : Bool)
  | finite (negative : Bool) (size : Magnitude)
  deriving DecidableEq

namespace Binary32

instance : Inhabited Binary32 := ⟨.finite false .zero⟩

/-- Positive zero. -/
def zero : Binary32 := .finite false .zero

/-- The interchange encoding; not-a-number has the quiet code without payload. -/
def toBits : Binary32 → Nat
  | .nan => 0x7fc00000
  | .infinity negative => (if negative then 1 <<< 31 else 0) + 0x7f800000
  | .finite negative size => (if negative then 1 <<< 31 else 0) + size.code

/-- The value nearest to `± num / den` units. -/
def ofUnits (negative : Bool) (num den : Nat) : Binary32 :=
  match Magnitude.round num den with
  | some size => .finite negative size
  | none => .infinity negative

/-- The value nearest to `± m * 2 ^ e`. -/
def ofDyadic (negative : Bool) (m : Nat) (e : Int) : Binary32 :=
  if 0 ≤ e + 149 then ofUnits negative (m <<< (e + 149).toNat) 1
  else ofUnits negative m (1 <<< (-(e + 149)).toNat)

/-- Ten to a power. -/
def powerOfTen (exponent : Nat) : Nat := Nat.pow 10 exponent

/-- The value nearest to `± digits * 10 ^ exponent`. -/
def ofDecimal (negative : Bool) (digits : Nat) (exponent : Int) : Binary32 :=
  if digits = 0 then .finite negative .zero
  else if 400 < exponent then .infinity negative
  else if exponent < -(digits.log2 + 400 : Int) then .finite negative .zero
  else if 0 ≤ exponent then ofUnits negative ((digits * powerOfTen exponent.toNat) <<< 149) 1
  else ofUnits negative (digits <<< 149) (powerOfTen (-exponent).toNat)

/-- The value nearest to a natural number. -/
def ofNat (n : Nat) : Binary32 := ofUnits false (n <<< 149) 1

/-- Signed units of a finite value. -/
def signedUnits (negative : Bool) (size : Magnitude) : Int :=
  if negative then -(size.units : Int) else size.units

/-- Neither infinite nor not-a-number. -/
def isFinite : Binary32 → Bool
  | .finite .. => true
  | _ => false

end Binary32

end Deeds
