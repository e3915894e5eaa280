import Deeds.Effect
import Deeds.Line.Token
import Deeds.Tag
import Deeds.Text.Integer
import Mathlib.Data.List.TakeWhile
import Mathlib.Data.Nat.Digits.Defs

/-!
# The lexicon of lines

What texts are made of, said without the readers: the tokens that a text spells, the words that are
names, and the words that write numbers.

* `Spells` : a text spells tokens; `tokenize_eq_iff` : these are the ones it is split into;
* `Token.IsWellFormed` : the tokens of lines; `exists_tokenize_eq` : any of them make a line;
* `IsName` : a word names something; `ConditionKind.ofName?_eq_some_iff` and its like: it is found;
* `Writes`, `WritesSigned`, `WritesUnsigned` : a word writes a number; `signed?_eq_some_iff`,
  `unsigned?_eq_some_iff` : it is read as that number, if the number is in range.
-/

namespace Deeds

/-! ## Tokens -/

namespace Line

/-- A text does not begin with a character of the given kind. -/
def StopsAt (p : Char → Bool) (cs : List Char) : Prop := ∀ c ∈ cs.head?, p c = false

/-- The tokens that a text spells. Blanks separate tokens; a word, and likewise an operator, is a
run of its own characters that goes on as long as they do. -/
inductive Spells : List Char → List Token → Prop
  | nil : Spells [] []
  | blank {c : Char} {cs : List Char} {ts : List Token} (hc : Text.isBlank c) (h : Spells cs ts) :
      Spells (c :: cs) ts
  | word {w cs : List Char} {ts : List Token} (hne : w ≠ []) (hw : ∀ c ∈ w, isWordChar c)
      (hend : StopsAt isWordChar cs) (h : Spells cs ts) :
      Spells (w ++ cs) (.word (String.ofList w) :: ts)
  | operator {w cs : List Char} {ts : List Token} (hne : w ≠ []) (hw : ∀ c ∈ w, isOperatorChar c)
      (hend : StopsAt isOperatorChar cs) (h : Spells cs ts) :
      Spells (w ++ cs) (.operator (String.ofList w) :: ts)

variable {c : Char} {w cs : List Char} {ts : List Token} {p : Char → Bool}

theorem stopsAt_dropWhile (p : Char → Bool) (cs : List Char) : StopsAt p (cs.dropWhile p) := by
  intro c hc
  have hnot := List.head?_dropWhile_not p cs
  rw [hc] at hnot
  exact hnot

theorem StopsAt.takeWhile (h : StopsAt p cs) : cs.takeWhile p = [] := by
  cases cs with
  | nil => rfl
  | cons c cs => rw [List.takeWhile_cons_of_neg (by simp [h c rfl])]

theorem StopsAt.dropWhile (h : StopsAt p cs) : cs.dropWhile p = cs := by
  cases cs with
  | nil => rfl
  | cons c cs => rw [List.dropWhile_cons_of_neg (by simp [h c rfl])]

theorem takeWhile_run (hw : ∀ c ∈ w, p c) (hend : StopsAt p cs) : (w ++ cs).takeWhile p = w := by
  rw [List.takeWhile_append_of_pos hw, hend.takeWhile, List.append_nil]

theorem dropWhile_run (hw : ∀ c ∈ w, p c) (hend : StopsAt p cs) : (w ++ cs).dropWhile p = cs := by
  rw [List.dropWhile_append_of_pos hw, hend.dropWhile]

/-- No operator character is blank. -/
theorem isBlank_of_isOperatorChar (h : isOperatorChar c) : Text.isBlank c = false := by
  simp only [isOperatorChar, Bool.or_eq_true, decide_eq_true_eq] at h
  rcases h with ((rfl | rfl) | rfl) | rfl <;> rfl

theorem isWordChar_iff : isWordChar c ↔ Text.isBlank c = false ∧ isOperatorChar c = false := by
  simp [isWordChar]

theorem tokens_word (hne : w ≠ []) (hw : ∀ c ∈ w, isWordChar c) (hend : StopsAt isWordChar cs) :
    tokens (w ++ cs) = .word (String.ofList w) :: tokens cs := by
  obtain ⟨c, w, rfl⟩ := List.exists_cons_of_ne_nil hne
  obtain ⟨hc, hw⟩ := List.forall_mem_cons.1 hw
  obtain ⟨hblank, hop⟩ := isWordChar_iff.1 hc
  rw [List.cons_append, tokens, if_neg (by simp [hblank]), if_neg (by simp [hop]),
    takeWhile_run hw hend, dropWhile_run hw hend]

theorem tokens_operator (hne : w ≠ []) (hw : ∀ c ∈ w, isOperatorChar c)
    (hend : StopsAt isOperatorChar cs) :
    tokens (w ++ cs) = .operator (String.ofList w) :: tokens cs := by
  obtain ⟨c, w, rfl⟩ := List.exists_cons_of_ne_nil hne
  obtain ⟨hc, hw⟩ := List.forall_mem_cons.1 hw
  rw [List.cons_append, tokens, if_neg (by simp [isBlank_of_isOperatorChar hc]), if_pos hc,
    takeWhile_run hw hend, dropWhile_run hw hend]

theorem Spells.tokens_eq (h : Spells cs ts) : tokens cs = ts := by
  induction h with
  | nil => rw [tokens]
  | blank hc _ ih => rw [tokens_blank hc, ih]
  | word hne hw hend _ ih => rw [tokens_word hne hw hend, ih]
  | operator hne hw hend _ ih => rw [tokens_operator hne hw hend, ih]

theorem spells_tokens (cs : List Char) : Spells cs (tokens cs) := by
  -- a token ends where the first character of another kind stands, which is what a spelling asks for
  fun_induction tokens cs with
  | case1 => exact .nil
  | case2 c cs hc ih => exact .blank hc ih
  | case3 c cs hc hop ih =>
    have h := Spells.operator (List.cons_ne_nil c (cs.takeWhile isOperatorChar))
      (List.forall_mem_cons.2 ⟨hop, fun _ => List.mem_takeWhile_imp⟩)
      (stopsAt_dropWhile isOperatorChar cs) ih
    rwa [List.cons_append, List.takeWhile_append_dropWhile] at h
  | case4 c cs hc hop ih =>
    have hword : isWordChar c := isWordChar_iff.2 ⟨by simpa using hc, by simpa using hop⟩
    have h := Spells.word (List.cons_ne_nil c (cs.takeWhile isWordChar))
      (List.forall_mem_cons.2 ⟨hword, fun _ => List.mem_takeWhile_imp⟩)
      (stopsAt_dropWhile isWordChar cs) ih
    rwa [List.cons_append, List.takeWhile_append_dropWhile] at h

/-- A line is split into the tokens that it spells, and it spells no others. -/
theorem tokenize_eq_iff {line : String} : tokenize line = ts ↔ Spells line.toList ts :=
  ⟨fun h => h ▸ spells_tokens line.toList, Spells.tokens_eq⟩

/-- A token as it can stand on a line: a run of its own characters, of at least one. -/
def Token.IsWellFormed : Token → Prop
  | .word w => w ≠ "" ∧ ∀ c ∈ w.toList, isWordChar c
  | .operator o => o ≠ "" ∧ ∀ c ∈ o.toList, isOperatorChar c

theorem isWellFormed_word {w : String} (hne : w ≠ "") (hw : w.toList.all isWordChar = true) :
    (Token.word w).IsWellFormed := ⟨hne, List.all_eq_true.1 hw⟩

/-- The tokens of a line are well formed. -/
theorem Spells.isWellFormed {t : Token} (h : Spells cs ts) (ht : t ∈ ts) : t.IsWellFormed := by
  induction h with
  | nil => cases ht
  | blank _ _ ih => exact ih ht
  | @word w cs ts hne hw _ _ ih =>
    rcases List.mem_cons.1 ht with rfl | ht
    · exact ⟨by simpa using hne, by simpa using hw⟩
    · exact ih ht
  | @operator w cs ts hne hw _ _ ih =>
    rcases List.mem_cons.1 ht with rfl | ht
    · exact ⟨by simpa using hne, by simpa using hw⟩
    · exact ih ht

/-- The texts of some tokens, each with a blank behind it. -/
def spaced (ts : List Token) : List Char := ts.flatMap fun t => t.text.toList ++ [' ']

/-- Well-formed tokens are spelled by their texts, since a blank ends each of them. -/
theorem spells_spaced (h : ∀ t ∈ ts, t.IsWellFormed) : Spells (spaced ts) ts := by
  have hstop {p : Char → Bool} (hp : p ' ' = false) (cs : List Char) : StopsAt p (' ' :: cs) := by
    rintro c ⟨⟩
    exact hp
  induction ts with
  | nil => exact .nil
  | cons t ts ih =>
    obtain ⟨ht, hts⟩ := List.forall_mem_cons.1 h
    have hrest : Spells (' ' :: spaced ts) ts := .blank rfl (ih hts)
    have hline : spaced (t :: ts) = t.text.toList ++ ' ' :: spaced ts := by simp [spaced]
    rw [hline]
    cases t with
    | word w =>
      obtain ⟨hne, hw⟩ := ht
      have hspells := Spells.word (by simpa using hne) hw (hstop rfl _) hrest
      rwa [String.ofList_toList] at hspells
    | operator o =>
      obtain ⟨hne, ho⟩ := ht
      have hspells := Spells.operator (by simpa using hne) ho (hstop rfl _) hrest
      rwa [String.ofList_toList] at hspells

/-- Well-formed tokens are those of a line. -/
theorem exists_tokenize_eq (h : ∀ t ∈ ts, t.IsWellFormed) : ∃ line, tokenize line = ts :=
  ⟨String.ofList (spaced ts), tokenize_eq_iff.2 (by rw [String.toList_ofList]; exact spells_spaced h)⟩

end Line

/-! ## Names -/

namespace Text

/-- A word names what is called so, whatever the case of its ASCII letters. -/
def IsName (w name : String) : Prop := w.toList.map Char.toLower = name.toList.map Char.toLower

theorem sameName_iff {w name : String} : sameName w name = true ↔ IsName w name := by
  simp [sameName, IsName]

/-- Looking a word up among named values finds the one that it names, if their names differ. -/
theorem find?_sameName_eq_some_iff {α : Type} {name : α → String} {all : List α} {w : String} {a : α}
    (hall : ∀ a, a ∈ all) (hinj : ∀ a b, sameName (name a) (name b) → a = b) :
    all.find? (fun b => sameName w (name b)) = some a ↔ IsName w (name a) := by
  have hnamed {b : α} (hb : all.find? (fun b => sameName w (name b)) = some b) :
      IsName w (name b) :=
    sameName_iff.1 (List.find?_some (p := fun b => sameName w (name b)) hb)
  refine ⟨hnamed, fun h => ?_⟩
  obtain ⟨b, hb⟩ := Option.isSome_iff_exists.1
    (List.find?_isSome (p := fun b => sameName w (name b)).2 ⟨a, hall a, sameName_iff.2 h⟩)
  rw [hb, hinj b a (sameName_iff.2 ((hnamed hb).symm.trans h))]

end Text

open Text (IsName)

theorem ConditionKind.ofName?_eq_some_iff {w : String} {k : ConditionKind} :
    ConditionKind.ofName? w = some k ↔ IsName w k.name :=
  Text.find?_sameName_eq_some_iff (by rintro (⟨_ | _⟩ | _) <;> decide)
    (by rintro (⟨_ | _⟩ | _) (⟨_ | _⟩ | _) <;> decide)

theorem EffectKind.ofName?_eq_some_iff {w : String} {k : EffectKind} :
    EffectKind.ofName? w = some k ↔ IsName w k.name :=
  Text.find?_sameName_eq_some_iff (by rintro (⟨_ | _, _ | _⟩ | ⟨_ | _, _ | _⟩) <;> decide)
    (by
      rintro (⟨_ | _, _ | _⟩ | ⟨_ | _, _ | _⟩) (⟨_ | _, _ | _⟩ | ⟨_ | _, _ | _⟩) <;> decide)

theorem Stat.ofName?_eq_some_iff {w : String} {s : Stat} :
    Stat.ofName? w = some s ↔ IsName w s.name :=
  Text.find?_sameName_eq_some_iff (by rintro (_ | _) <;> decide)
    (by rintro (_ | _) (_ | _) <;> decide)

theorem Tag.ofName?_eq_some_iff {w : String} {t : Tag} : Tag.ofName? w = some t ↔ IsName w t.name :=
  Text.find?_sameName_eq_some_iff Tag.mem_all (by rintro (_ | _) (_ | _) <;> decide)

/-! ## Numbers -/

namespace Text

/-- The value of a decimal digit. -/
def digitValue (c : Char) : Nat := c.toNat - '0'.toNat

/-- Digits write a number in base ten: at least one, the last one for the units. -/
structure Writes (cs : List Char) (n : Nat) : Prop where
  ne_nil : cs ≠ []
  digit : ∀ c ∈ cs, c.isDigit
  value : Nat.ofDigits 10 (cs.reverse.map digitValue) = n

/-- A whole number is written by digits after an optional sign. -/
inductive WritesSigned : List Char → Int → Prop
  | bare {cs : List Char} {n : Nat} (h : Writes cs n) : WritesSigned cs n
  | plus {cs : List Char} {n : Nat} (h : Writes cs n) : WritesSigned ('+' :: cs) n
  | minus {cs : List Char} {n : Nat} (h : Writes cs n) : WritesSigned ('-' :: cs) (-n)

/-- A natural number is written by digits after an optional plus sign. -/
inductive WritesUnsigned : List Char → Nat → Prop
  | bare {cs : List Char} {n : Nat} (h : Writes cs n) : WritesUnsigned cs n
  | plus {cs : List Char} {n : Nat} (h : Writes cs n) : WritesUnsigned ('+' :: cs) n

variable {cs : List Char} {s : String} {bits n : Nat} {v : Int}

/-- What is written without a minus sign is also a signed number. -/
theorem WritesUnsigned.writesSigned (h : WritesUnsigned cs n) :
    WritesSigned cs n := by
  cases h with
  | bare h => exact .bare h
  | plus h => exact .plus h

theorem decimalValue_eq_ofDigits (cs : List Char) :
    decimalValue cs = Nat.ofDigits 10 (cs.reverse.map digitValue) := by
  have hfold : ∀ cs : List Char, cs.reverse.foldl (fun n c => 10 * n + (c.toNat - 48)) 0
      = Nat.ofDigits 10 (cs.map digitValue) := by
    intro cs
    induction cs with
    | nil => rfl
    | cons c cs ih =>
      rw [List.reverse_cons, List.foldl_append, ih, List.map_cons, Nat.ofDigits_cons, add_comm]
      rfl
  rw [decimalValue, ← hfold cs.reverse, List.reverse_reverse]

theorem digits?_eq_some_iff : digits? cs = some n ↔ Writes cs n := by
  rw [digits?, decimalValue_eq_ofDigits]
  constructor
  · intro h
    split at h
    · cases h
    next hcs =>
      simp only [Bool.or_eq_true, List.isEmpty_iff, Bool.not_eq_true', not_or, Bool.not_eq_false,
        List.all_eq_true] at hcs
      exact ⟨hcs.1, hcs.2, Option.some.inj h⟩
  · rintro ⟨hne, hdigit, hvalue⟩
    rw [if_neg (by simpa [hne] using hdigit), hvalue]

/-- Digits do not begin with a sign. -/
theorem Writes.ne_cons {c : Char} (h : Writes (c :: cs) n) : c ≠ '+' ∧ c ≠ '-' := by
  have hdigit := h.digit c List.mem_cons_self
  refine ⟨?_, ?_⟩ <;>
  · rintro rfl
    cases hdigit

/-- A word is read as the number that it writes, if that fits into the width. -/
theorem signed?_eq_some_iff : signed? bits s = some v ↔
    WritesSigned s.toList v ∧ -2 ^ (bits - 1) ≤ v ∧ v < 2 ^ (bits - 1) := by
  unfold signed?
  generalize s.toList = cs
  simp only [Option.filter_eq_some_iff, Bool.and_eq_true, decide_eq_true_eq, Nat.one_shiftLeft,
    Int.ofNat_eq_natCast, Nat.cast_pow, Nat.cast_ofNat]
  refine and_congr ⟨fun h => ?_, fun h => ?_⟩ Iff.rfl
  · split at h
    · obtain ⟨n, hn, rfl⟩ := Option.map_eq_some_iff.1 h
      exact .plus (digits?_eq_some_iff.1 hn)
    · obtain ⟨n, hn, rfl⟩ := Option.map_eq_some_iff.1 h
      exact .minus (digits?_eq_some_iff.1 hn)
    · obtain ⟨n, hn, rfl⟩ := Option.map_eq_some_iff.1 h
      exact .bare (digits?_eq_some_iff.1 hn)
  · cases h with
    | bare h =>
      split
      · exact absurd rfl h.ne_cons.1
      · exact absurd rfl h.ne_cons.2
      · rw [digits?_eq_some_iff.2 h]
        rfl
    | plus h => exact Option.map_eq_some_iff.2 ⟨_, digits?_eq_some_iff.2 h, rfl⟩
    | minus h => exact Option.map_eq_some_iff.2 ⟨_, digits?_eq_some_iff.2 h, rfl⟩

/-- A word is read as the natural number that it writes, if that is below the bound. -/
theorem unsigned?_eq_some_iff : unsigned? bits s = some n ↔
    WritesUnsigned s.toList n ∧ n < 2 ^ bits := by
  unfold unsigned?
  generalize s.toList = cs
  simp only [Option.filter_eq_some_iff, decide_eq_true_eq, Nat.one_shiftLeft]
  refine and_congr ⟨fun h => ?_, fun h => ?_⟩ Iff.rfl
  · split at h
    · exact .plus (digits?_eq_some_iff.1 h)
    · exact .bare (digits?_eq_some_iff.1 h)
  · cases h with
    | bare h =>
      split
      · exact absurd rfl h.ne_cons.1
      · exact digits?_eq_some_iff.2 h
    | plus h => exact digits?_eq_some_iff.2 h

end Text

end Deeds
