import Deeds.Ron.Number
import Deeds.Proofs.Ron.Spelling

/-!
# Numerals of the object notation

How natural numbers and zero can be written.

* `Numeral` : digits in one of four bases, among which underscores may stand, and an optional sign;
  `Numeral.natural32?_eq` : they are read as the number that they write;
* `Zeros` : zeros with or without a point; `Zeros.binary32?_eq` : they are read as zero.
-/

namespace Deeds.Ron

open Text (hexDigit?)
open Line (StopsAt takeWhile_run dropWhile_run)

variable {base n : Nat} {cs : List Char}

/-! ## Natural numbers -/

/-- A digit, and digits and underscores behind it. -/
structure Digits (base : Nat) (cs : List Char) (n : Nat) : Prop where
  head : ∃ c more, cs = c :: more ∧ c ≠ '_'
  value : WritesIn base (cs.filter (· != '_')) n

/-- Digits in a base that a zero and a letter name; without them it is ten. -/
inductive Unsigned : List Char → Nat → Prop
  | decimal {cs : List Char} {n : Nat} (h : Digits 10 cs n) : Unsigned cs n
  | binary {cs : List Char} {n : Nat} (h : Digits 2 cs n) : Unsigned ('0' :: 'b' :: cs) n
  | octal {cs : List Char} {n : Nat} (h : Digits 8 cs n) : Unsigned ('0' :: 'o' :: cs) n
  | hexadecimal {cs : List Char} {n : Nat} (h : Digits 16 cs n) : Unsigned ('0' :: 'x' :: cs) n

/-- The ways to write a natural number. -/
inductive Numeral : List Char → Nat → Prop
  | bare {cs : List Char} {n : Nat} (h : Unsigned cs n) : Numeral cs n
  | plus {cs : List Char} {n : Nat} (h : Unsigned cs n) : Numeral ('+' :: cs) n

theorem WritesIn.foldlM_eq (h : WritesIn base cs n) :
    cs.foldlM (fun n c => do
      let d ← hexDigit? c
      if d < base then some (base * n + d) else none) 0 = some n := by
  induction h with
  | nil => rfl
  | digit _ hc hd ih =>
    rw [List.foldlM_append, ih]
    simp [hc, hd]

theorem Digits.digitsIn?_eq (h : Digits base cs n) : digitsIn? base cs = some n := h.value.foldlM_eq

theorem Digits.eq_underscore_or (h : Digits base cs n) :
    ∀ c ∈ cs, c = '_' ∨ ∃ d, hexDigit? c = some d ∧ d < base := by
  intro c hc
  by_cases hunderscore : c = '_'
  · exact .inl hunderscore
  · exact .inr (h.value.exists_digit c (List.mem_filter.2 ⟨hc, by simpa using hunderscore⟩))

theorem Digits.isIntegerChar (h : Digits base cs n) : ∀ c ∈ cs, isIntegerChar c := by
  intro c hc
  obtain rfl | ⟨d, hd, _⟩ := h.eq_underscore_or c hc
  · rfl
  · simp [Ron.isIntegerChar, hd]

/-- Digits to the end are an integer without a suffix. -/
theorem integer?_eq {written : String} {rest : List Char} (hsign : signOf written.toList = (false, rest))
    (hbase : baseOf rest = (base, cs)) (h : Digits base cs n) :
    integer? written = some ⟨false, base = 10, n, ""⟩ := by
  have htake : cs.takeWhile isIntegerChar = cs := List.takeWhile_eq_self_iff.2 h.isIntegerChar
  have hdrop : cs.dropWhile isIntegerChar = [] := List.dropWhile_eq_nil_iff.2 h.isIntegerChar
  obtain ⟨c, more, rfl, hc⟩ := h.head
  simp [integer?, hsign, hbase, htake, hdrop, hc, h.digitsIn?_eq]

/-- Decimal digits are no name of a base. -/
theorem Digits.baseOf_eq (h : Digits 10 cs n) : baseOf cs = (10, cs) := by
  have hnot {a : Char} (ha : a = 'b' ∨ a = 'o' ∨ a = 'x') : a ∉ cs := by
    intro hmem
    obtain hunderscore | ⟨d, hd, hlt⟩ := h.eq_underscore_or a hmem
    · rcases ha with rfl | rfl | rfl <;> cases hunderscore
    · rcases ha with rfl | rfl | rfl
      · obtain rfl : 11 = d := Option.some.inj hd
        omega
      · cases hd
      · cases hd
  rw [baseOf]
  all_goals
    rintro more rfl
    exact hnot (by simp) (.tail _ (.head _))

theorem Unsigned.exists_digits (h : Unsigned cs n) :
    ∃ base digits, baseOf cs = (base, digits) ∧ Digits base digits n := by
  cases h with
  | decimal h => exact ⟨10, cs, h.baseOf_eq, h⟩
  | binary h => exact ⟨2, _, rfl, h⟩
  | octal h => exact ⟨8, _, rfl, h⟩
  | hexadecimal h => exact ⟨16, _, rfl, h⟩

/-- The first character is a digit. -/
theorem Unsigned.head (h : Unsigned cs n) : ∃ c more, cs = c :: more ∧ (hexDigit? c).isSome := by
  cases h with
  | decimal h =>
    obtain ⟨c, more, rfl, hc⟩ := h.head
    obtain hunderscore | ⟨d, hd, _⟩ := h.eq_underscore_or c (.head _)
    · exact absurd hunderscore hc
    · exact ⟨c, more, rfl, hd ▸ rfl⟩
  | _ => exact ⟨'0', _, rfl, rfl⟩

theorem Unsigned.signOf_eq (h : Unsigned cs n) : signOf cs = (false, cs) := by
  obtain ⟨c, more, rfl, hc⟩ := h.head
  rw [signOf]
  all_goals
    rintro _ ⟨⟩
    cases hc

/-- A numeral is an integer without a suffix. -/
theorem Numeral.exists_integer?_eq {written : String} (h : Numeral written.toList n) :
    ∃ isDecimal, integer? written = some ⟨false, isDecimal, n, ""⟩ := by
  generalize hcs : written.toList = cs at h
  cases h with
  | bare h =>
    obtain ⟨base, digits, hbase, hdigits⟩ := h.exists_digits
    exact ⟨_, integer?_eq (hcs ▸ h.signOf_eq) hbase hdigits⟩
  | plus h =>
    obtain ⟨base, digits, hbase, hdigits⟩ := h.exists_digits
    exact ⟨_, integer?_eq (hcs ▸ rfl) hbase hdigits⟩

theorem Numeral.natural32?_eq {written : String} {v : UInt32} (h : Numeral written.toList v.toNat) :
    natural32? written = some v := by
  obtain ⟨isDecimal, hinteger⟩ := h.exists_integer?_eq
  simp [natural32?, hinteger, v.toNat_lt_size]

theorem Numeral.isNumber {written : String} {v : UInt32} (h : Numeral written.toList v.toNat) :
    isNumber written := by
  obtain ⟨isDecimal, hinteger⟩ := h.exists_integer?_eq
  have hlt : v.toNat < 18446744073709551616 := Nat.lt_trans v.toNat_lt_size (by decide)
  simp [Ron.isNumber, hinteger, WrittenInteger.fits, hlt]

/-- Every number can be written with decimal digits alone. -/
theorem exists_writesIn_ten (n : Nat) :
    ∃ cs, cs ≠ [] ∧ (∀ c ∈ cs, c.isDigit) ∧ WritesIn 10 cs n := by
  have hdigit : ∀ d < 10, (Nat.digitChar d).isDigit ∧ hexDigit? (Nat.digitChar d) = some d := by decide
  induction n using Nat.strongRecOn with
  | ind n ih =>
    have hlt : n % 10 < 10 := Nat.mod_lt n (by decide)
    obtain ⟨hlast, hread⟩ := hdigit (n % 10) hlt
    have hdigits {cs : List Char} (hcs : ∀ c ∈ cs, c.isDigit) :
        ∀ c ∈ cs ++ [Nat.digitChar (n % 10)], c.isDigit := by
      intro c hc
      obtain hc | hc := List.mem_append.1 hc
      · exact hcs c hc
      · exact List.mem_singleton.1 hc ▸ hlast
    by_cases hn : n < 10
    · have hwrites := WritesIn.digit .nil hread hlt
      rw [Nat.mul_zero, Nat.zero_add, Nat.mod_eq_of_lt hn] at hwrites
      exact ⟨_, by simp, Nat.mod_eq_of_lt hn ▸ hdigits nofun, hwrites⟩
    · obtain ⟨cs, -, hcs, h⟩ := ih (n / 10) (by omega)
      have hwrites := h.digit hread hlt
      rw [Nat.div_add_mod] at hwrites
      exact ⟨_, by simp, hdigits hcs, hwrites⟩

/-- Every natural number has a numeral that stands as a token of its own. -/
theorem exists_numeral (n : Nat) : ∃ w : String, Numeral w.toList n ∧ IsNumeric w.toList := by
  obtain ⟨cs, hne, hdigit, hwrites⟩ := exists_writesIn_ten n
  obtain ⟨c, more, rfl⟩ := List.exists_cons_of_ne_nil hne
  have hnot : ∀ a ∈ c :: more, a ≠ '_' := by
    rintro a ha rfl
    cases hdigit '_' ha
  have hfilter : (c :: more).filter (· != '_') = c :: more :=
    List.filter_eq_self.2 fun a ha => by simpa using hnot a ha
  have hpart : ∀ c ∈ more, isNamePart c := fun c hc =>
    isNamePart_of_isNumberStart (by simp [isNumberStart, hdigit c (.tail _ hc)])
  refine ⟨String.ofList (c :: more), ?_, ?_⟩ <;> rw [String.toList_ofList]
  · exact .bare (.decimal ⟨⟨c, more, rfl, hnot c (.head _)⟩, hfilter.symm ▸ hwrites⟩)
  · exact ⟨c, more, rfl, by simp [isNumberStart, hdigit c (.head _)], hpart⟩

/-! ## Zero -/

/-- Zeros, among which a point may stand. -/
inductive Zeros : List Char → Prop
  | whole (n : Nat) : Zeros (List.replicate (n + 1) '0')
  | point {m k : Nat} (h : 0 < m + k) : Zeros (List.replicate m '0' ++ '.' :: List.replicate k '0')

theorem Zeros.mem (h : Zeros cs) : ∀ c ∈ cs, c = '0' ∨ c = '.' := by
  cases h with
  | whole n => exact fun c hc => .inl (List.eq_of_mem_replicate hc)
  | point _ =>
    simp only [List.mem_append, List.mem_cons, List.mem_replicate]
    rintro c (⟨-, rfl⟩ | rfl | ⟨-, rfl⟩) <;> simp

theorem Zeros.ne_nil (h : Zeros cs) : cs ≠ [] := by cases h <;> simp

/-- Zeros with a point are no word. -/
theorem Zeros.ofList_ne (h : Zeros cs) (name : String) (hname : ∃ c ∈ name.toList, c ≠ '0' ∧ c ≠ '.')
    {part : List Char} (hpart : part ⊆ cs) : String.ofList part ≠ name := by
  rintro rfl
  obtain ⟨c, hc, hzero, hpoint⟩ := hname
  rw [String.toList_ofList] at hc
  exact (h.mem c (hpart hc)).elim hzero hpoint

theorem Zeros.exists_cons (h : Zeros cs) : ∃ c more, cs = c :: more ∧ (c = '0' ∨ c = '.') := by
  obtain ⟨c, more, rfl⟩ := List.exists_cons_of_ne_nil h.ne_nil
  exact ⟨c, more, rfl, h.mem c (.head _)⟩

theorem withoutUnderscores_eq (h : '_' ∉ cs) (allowed : Bool) :
    withoutUnderscores allowed cs = some cs := by
  induction cs generalizing allowed with
  | nil => rfl
  | cons c cs ih =>
    obtain ⟨hc, hcs⟩ : '_' ≠ c ∧ '_' ∉ cs := by simpa using h
    rw [withoutUnderscores]
    · simp [ih hcs]
    · exact fun h => hc h.symm

theorem decimalValue_replicate (n : Nat) : Text.decimalValue (List.replicate n '0') = 0 := by
  unfold Text.decimalValue
  induction n with
  | zero => rfl
  | succ n ih => simpa [List.replicate_succ] using ih

theorem Zeros.unsignedDecimal?_eq (h : Zeros cs) :
    Binary32.unsignedDecimal? false cs = some .zero := by
  have hdigit : Char.isDigit '0' = true := rfl
  cases h with
  | whole n =>
    simp [Binary32.unsignedDecimal?, hdigit, decimalValue_replicate, Binary32.ofDecimal,
      Binary32.zero]
  | @point m k h =>
    have hpoint (rest : List Char) : StopsAt Char.isDigit ('.' :: rest) := by rintro c ⟨⟩; rfl
    have hzeros : ∀ c ∈ List.replicate m '0', c.isDigit := by simp +contextual
    simp [Binary32.unsignedDecimal?, takeWhile_run hzeros (hpoint _),
      dropWhile_run hzeros (hpoint _), hdigit, decimalValue_replicate, Binary32.ofDecimal,
      Binary32.zero]
    omega

theorem Zeros.ofText?_eq {text : String} (h : Zeros text.toList) :
    Binary32.ofText? text = some .zero := by
  rw [Binary32.ofText?]
  generalize text.toList = cs at h
  have hlower : cs.map Char.toLower = cs := by
    refine (List.map_congr_left fun c hc => ?_).trans (List.map_id cs)
    rcases h.mem c hc with rfl | rfl <;> rfl
  have hunsigned : Binary32.unsigned? false cs = some .zero := by
    have hinf := h.ofList_ne "inf" ⟨'i', by decide⟩ (List.Subset.refl cs)
    have hinfinity := h.ofList_ne "infinity" ⟨'i', by decide⟩ (List.Subset.refl cs)
    have hnan := h.ofList_ne "nan" ⟨'n', by decide⟩ (List.Subset.refl cs)
    simp [Binary32.unsigned?, hlower, hinf, hinfinity, hnan, h.unsignedDecimal?_eq]
  obtain ⟨c, more, rfl, hc⟩ := h.exists_cons
  rcases hc with rfl | rfl <;> exact hunsigned

theorem Zeros.decimal?_eq {written : String} (h : Zeros written.toList) :
    decimal? written = some (.zero, "") := by
  have hsign : signOf written.toList = (false, written.toList) := by
    obtain ⟨c, more, hcs, hc⟩ := h.exists_cons
    rw [hcs]
    rcases hc with rfl | rfl <;> rfl
  have hinf := h.ofList_ne "inf" ⟨'i', by decide⟩ (List.take_subset 3 written.toList)
  have hnan := h.ofList_ne "NaN" ⟨'N', by decide⟩ (List.take_subset 3 written.toList)
  have hchars : ∀ c ∈ written.toList, isDecimalChar c := by
    intro c hc
    rcases h.mem c hc with rfl | rfl <;> rfl
  have hunderscore : '_' ∉ written.toList := fun hmem => by
    rcases h.mem _ hmem with h | h <;> cases h
  have htake := List.takeWhile_eq_self_iff.2 hchars
  have hdrop := List.dropWhile_eq_nil_iff.2 hchars
  simp [decimal?, hsign, hinf, hnan, htake, hdrop, withoutUnderscores_eq hunderscore, h.ofText?_eq]

/-- Zeros are read as zero. -/
theorem Zeros.binary32?_eq {written : String} (h : Zeros written.toList) :
    binary32? written = some .zero := by
  simp [binary32?, h.decimal?_eq]

theorem Zeros.isNumber {written : String} (h : Zeros written.toList) : isNumber written := by
  simp [Ron.isNumber, h.decimal?_eq]

end Deeds.Ron
