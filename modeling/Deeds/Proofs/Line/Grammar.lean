import Deeds.Line.Read
import Deeds.Proofs.Line.Lexicon

/-!
# The grammar of lines

What the lines of a definition may say, as relations between tokens and values, and that the readers
accept these lines with these values and no others.

* `IsCondition`, `IsEffect`, `IsTag` : the tokens of a line and what it means;
* `takeWord_eq_ok_iff` and its like : what each step of a reader takes;
* `line_eq_ok_iff` : the lines that are read, and what they are read as.
-/

namespace Deeds.Line

open Text (IsName WritesSigned WritesUnsigned)

/-- One of some operators, or none. -/
inductive OptionalOperator (allowed : List String) : List Token → Prop
  | absent : OptionalOperator allowed []
  | present {o : String} (ho : o ∈ allowed) : OptionalOperator allowed [.operator o]

/-- The lines that are conditions. -/
inductive IsCondition : List Token → Requirement → Prop
  | balance {r : Resource} {name amount : String} {op : List Token} {v : Int64}
      (hname : IsName name (ConditionKind.balance r).name)
      (hop : OptionalOperator [">=", "=", "=="] op) (hv : WritesSigned amount.toList v.toInt) :
      IsCondition (.word name :: (op ++ [.word amount])) (.atLeast r v)
  | targetType {name typeName : String} {op : List Token}
      (hname : IsName name ConditionKind.targetType.name)
      (hop : OptionalOperator ["=", "=="] op) :
      IsCondition (.word name :: (op ++ [.word typeName])) (.targetType typeName)

/-- What follows the name of an effect and its operator. -/
inductive Operands : EffectKind → List Token → Effect → Prop
  | resource {d : Direction} {r : Resource} {amount : String} {v : Int64}
      (hv : WritesSigned amount.toList v.toInt) (hpos : 0 ≤ v.toInt) :
      Operands (.resource d r) [.word amount] (.resource d r v)
  | stat {d : Direction} {s : Stat} {name amount : String} {v : Int32}
      (hs : IsName name s.name) (hv : WritesSigned amount.toList v.toInt) (hpos : 0 ≤ v.toInt) :
      Operands (.stat d false) [.word name, .word amount] (.stat d s v none)
  | chance {d : Direction} {s : Stat} {name amount percentage : String} {v : Int32} {p : Nat}
      (hs : IsName name s.name) (hv : WritesSigned amount.toList v.toInt) (hpos : 0 ≤ v.toInt)
      (hp : WritesUnsigned percentage.toList p) (hle : p ≤ 100) :
      Operands (.stat d true) [.word name, .word amount, .word percentage] (.stat d s v (some p))

/-- The lines that are effects or costs. -/
inductive IsEffect : List Token → Effect → Prop
  | line {kind : EffectKind} {name : String} {op operands : List Token} {e : Effect}
      (hname : IsName name kind.name) (hop : OptionalOperator ["=", "=="] op)
      (h : Operands kind operands e) : IsEffect (.word name :: (op ++ operands)) e

/-- The lines that are tags. -/
inductive IsTag : List Token → Tag → Prop
  | line {name : String} {t : Tag} (hname : IsName name t.name) : IsTag [.word name] t

/-! ## Steps of a reader -/

/-- A computation that goes on with a value succeeds if both parts do. -/
theorem bind_eq_ok_iff {ε α β : Type} {x : Except ε α} {f : α → Except ε β} {b : β} :
    (x >>= f) = .ok b ↔ ∃ a, x = .ok a ∧ f a = .ok b := by
  cases x with
  | error => exact ⟨fun h => (nomatch h), fun ⟨_, h, _⟩ => nomatch h⟩
  | ok a =>
    refine ⟨fun h => ⟨a, rfl, h⟩, ?_⟩
    rintro ⟨a, ⟨⟩, h⟩
    exact h

section Steps

variable {α : Type} {a : α} {lookup read : String → Option α} {category : Category}
  {operand : Operand} {name w : String} {allowed : List String} {t : Token}
  {ts rest op : List Token} {bits p : Nat} {v : Int} {s : Stat}

theorem resolve_eq_ok_iff :
    t.resolve category lookup = .ok a ↔ ∃ w, t = .word w ∧ lookup w = some a := by
  cases t with
  | operator o => exact ⟨fun h => (nomatch h), fun ⟨_, h, _⟩ => nomatch h⟩
  | word w =>
    unfold Token.resolve
    cases h : lookup w <;> simp [h]

/-- What is left is the line without an operator that is allowed. -/
theorem skipOperator_eq_ok (h : skipOperator name allowed ts = .ok rest) :
    ∃ op, OptionalOperator allowed op ∧ ts = op ++ rest := by
  unfold skipOperator at h
  split at h
  next o ts =>
    split at h
    next ho =>
      cases h
      exact ⟨[.operator o], .present (List.contains_iff_mem.1 ho), rfl⟩
    · cases h
  · cases h
    exact ⟨[], .absent, rfl⟩

/-- An operator that is allowed is skipped in front of a word. -/
theorem skipOperator_append (hop : OptionalOperator allowed op) :
    skipOperator name allowed (op ++ .word w :: rest) = .ok (.word w :: rest) := by
  cases hop with
  | absent => rfl
  | present ho => exact if_pos (List.contains_iff_mem.2 ho)

theorem takeWord_eq_ok_iff : takeWord name operand ts = .ok (w, rest) ↔ ts = .word w :: rest := by
  unfold takeWord
  split <;> simp

theorem takeNumber_eq_ok_iff : takeNumber name operand read ts = .ok (a, rest) ↔
    ∃ w, ts = .word w :: rest ∧ read w = some a := by
  unfold takeNumber
  constructor
  · intro h
    obtain ⟨⟨w, rest'⟩, hw, h⟩ := bind_eq_ok_iff.1 h
    dsimp only at h
    split at h
    next hread =>
      cases h
      exact ⟨w, takeWord_eq_ok_iff.1 hw, hread⟩
    · cases h
  · rintro ⟨w, rfl, hread⟩
    refine bind_eq_ok_iff.2 ⟨(w, rest), rfl, ?_⟩
    dsimp only
    rw [hread]

theorem takeAmount_eq_ok_iff : takeAmount name bits ts = .ok (v, rest) ↔
    ∃ w, ts = .word w :: rest ∧ Text.signed? bits w = some v ∧ 0 ≤ v := by
  unfold takeAmount
  constructor
  · intro h
    obtain ⟨⟨v', rest'⟩, hv, h⟩ := bind_eq_ok_iff.1 h
    dsimp only at h
    split at h
    · cases h
    next hnot =>
      cases h
      obtain ⟨w, hw, hread⟩ := takeNumber_eq_ok_iff.1 hv
      exact ⟨w, hw, hread, not_lt.1 hnot⟩
  · rintro ⟨w, hw, hread, hpos⟩
    exact bind_eq_ok_iff.2
      ⟨(v, rest), takeNumber_eq_ok_iff.2 ⟨w, hw, hread⟩, if_neg (not_lt.2 hpos)⟩

theorem takeChance_eq_ok_iff : takeChance name ts = .ok (p, rest) ↔
    ∃ w, ts = .word w :: rest ∧ WritesUnsigned w.toList p ∧ p ≤ 100 := by
  unfold takeChance
  constructor
  · intro h
    obtain ⟨⟨p', rest'⟩, hp, h⟩ := bind_eq_ok_iff.1 h
    dsimp only at h
    split at h
    · cases h
    next hnot =>
      cases h
      obtain ⟨w, hw, hread⟩ := takeNumber_eq_ok_iff.1 hp
      exact ⟨w, hw, (Text.unsigned?_eq_some_iff.1 hread).1, not_lt.1 hnot⟩
  · rintro ⟨w, hw, hp, hle⟩
    have hread : Text.unsigned? 8 w = some p := Text.unsigned?_eq_some_iff.2 ⟨hp, by omega⟩
    exact bind_eq_ok_iff.2
      ⟨(p, rest), takeNumber_eq_ok_iff.2 ⟨w, hw, hread⟩, if_neg (not_lt.2 hle)⟩

theorem takeStat_eq_ok_iff : takeStat name ts = .ok (s, rest) ↔
    ∃ w, ts = .word w :: rest ∧ IsName w s.name := by
  unfold takeStat
  constructor
  · intro h
    obtain ⟨⟨w, rest'⟩, hw, h⟩ := bind_eq_ok_iff.1 h
    dsimp only at h
    split at h
    next hs =>
      cases h
      exact ⟨w, takeWord_eq_ok_iff.1 hw, Stat.ofName?_eq_some_iff.1 hs⟩
    · cases h
  · rintro ⟨w, rfl, hs⟩
    refine bind_eq_ok_iff.2 ⟨(w, rest), rfl, ?_⟩
    dsimp only
    rw [Stat.ofName?_eq_some_iff.2 hs]

theorem finish_eq_ok_iff : finish name ts = .ok () ↔ ts = [] := by
  unfold finish
  split <;> simp

end Steps

/-! ## Amounts -/

section Amounts

variable {w : String} {v : Int}

/-- What is read at a width of 64 bits is a number of that width, written by the word. -/
theorem signed?_int64 : Text.signed? 64 w = some v ↔
    ∃ x : Int64, v = x.toInt ∧ WritesSigned w.toList x.toInt := by
  rw [Text.signed?_eq_some_iff]
  constructor
  · rintro ⟨hw, hle, hlt⟩
    have hx : (Int64.ofInt v).toInt = v := Int64.toInt_ofInt_of_le hle hlt
    exact ⟨.ofInt v, hx.symm, hx.symm ▸ hw⟩
  · rintro ⟨x, rfl, hw⟩
    exact ⟨hw, x.le_toInt, x.toInt_lt⟩

/-- What is read at a width of 32 bits is a number of that width, written by the word. -/
theorem signed?_int32 : Text.signed? 32 w = some v ↔
    ∃ x : Int32, v = x.toInt ∧ WritesSigned w.toList x.toInt := by
  rw [Text.signed?_eq_some_iff]
  constructor
  · rintro ⟨hw, hle, hlt⟩
    have hx : (Int32.ofInt v).toInt = v := Int32.toInt_ofInt_of_le hle hlt
    exact ⟨.ofInt v, hx.symm, hx.symm ▸ hw⟩
  · rintro ⟨x, rfl, hw⟩
    exact ⟨hw, x.le_toInt, x.toInt_lt⟩

end Amounts

/-! ## Whole lines -/

variable {ts : List Token} {c : Condition} {e : Effect} {tag : Tag}

theorem IsCondition.of_tokens (h : conditionOfTokens ts = .ok c) :
    ∃ r, IsCondition ts r ∧ c = .ofRequirement r := by
  cases ts with
  | nil => cases h
  | cons t ts =>
    obtain ⟨kind, hkind, h⟩ := bind_eq_ok_iff.1 h
    obtain ⟨⟨r, rest⟩, hr, h⟩ := bind_eq_ok_iff.1 h
    obtain ⟨_, hfinish, h⟩ := bind_eq_ok_iff.1 h
    obtain ⟨name, rfl, hname⟩ := resolve_eq_ok_iff.1 hkind
    rw [ConditionKind.ofName?_eq_some_iff] at hname
    obtain rfl := finish_eq_ok_iff.1 hfinish
    refine ⟨r, ?_, (Except.ok.inj h).symm⟩
    cases kind with
    | balance r =>
      obtain ⟨ts, hskip, hr⟩ := bind_eq_ok_iff.1 hr
      obtain ⟨⟨v, rest⟩, hv, hr⟩ := bind_eq_ok_iff.1 hr
      cases hr
      obtain ⟨op, hop, rfl⟩ := skipOperator_eq_ok hskip
      obtain ⟨w, rfl, hw⟩ := takeNumber_eq_ok_iff.1 hv
      obtain ⟨x, rfl, hx⟩ := signed?_int64.1 hw
      rw [Int64.ofInt_toInt]
      exact .balance hname hop hx
    | targetType =>
      obtain ⟨ts, hskip, hr⟩ := bind_eq_ok_iff.1 hr
      obtain ⟨⟨w, rest⟩, hw, hr⟩ := bind_eq_ok_iff.1 hr
      cases hr
      obtain ⟨op, hop, rfl⟩ := skipOperator_eq_ok hskip
      obtain rfl := takeWord_eq_ok_iff.1 hw
      exact .targetType hname hop

theorem IsCondition.conditionOfTokens_eq {r : Requirement} (h : IsCondition ts r) :
    conditionOfTokens ts = .ok (.ofRequirement r) := by
  cases h with
  | @balance r name amount op v hname hop hv =>
    have hread : Text.signed? 64 amount = some v.toInt := signed?_int64.2 ⟨v, rfl, hv⟩
    refine bind_eq_ok_iff.2 ⟨.balance r, resolve_eq_ok_iff.2
      ⟨name, rfl, ConditionKind.ofName?_eq_some_iff.2 hname⟩, ?_⟩
    refine bind_eq_ok_iff.2 ⟨(.atLeast r v, []), ?_, rfl⟩
    refine bind_eq_ok_iff.2 ⟨_, skipOperator_append hop, ?_⟩
    refine bind_eq_ok_iff.2 ⟨_, takeNumber_eq_ok_iff.2 ⟨amount, rfl, hread⟩, ?_⟩
    dsimp only
    rw [Int64.ofInt_toInt]
  | @targetType name typeName op hname hop =>
    refine bind_eq_ok_iff.2 ⟨.targetType, resolve_eq_ok_iff.2
      ⟨name, rfl, ConditionKind.ofName?_eq_some_iff.2 hname⟩, ?_⟩
    refine bind_eq_ok_iff.2 ⟨(.targetType typeName, []), ?_, rfl⟩
    exact bind_eq_ok_iff.2 ⟨_, skipOperator_append hop, rfl⟩

theorem Operands.of_tokens {name : String} {kind : EffectKind}
    (h : readChange name ts kind = .ok (e, [])) : Operands kind ts e := by
  cases kind with
  | resource d r =>
    obtain ⟨⟨v, rest⟩, hv, h⟩ := bind_eq_ok_iff.1 h
    cases h
    obtain ⟨w, rfl, hw, hpos⟩ := takeAmount_eq_ok_iff.1 hv
    obtain ⟨x, rfl, hx⟩ := signed?_int64.1 hw
    rw [Int64.ofInt_toInt]
    exact .resource hx hpos
  | stat d byChance =>
    obtain ⟨⟨s, ts'⟩, hstat, h⟩ := bind_eq_ok_iff.1 h
    obtain ⟨⟨v, rest⟩, hv, h⟩ := bind_eq_ok_iff.1 h
    obtain ⟨name, rfl, hs⟩ := takeStat_eq_ok_iff.1 hstat
    obtain ⟨w, rfl, hw, hpos⟩ := takeAmount_eq_ok_iff.1 hv
    obtain ⟨x, rfl, hx⟩ := signed?_int32.1 hw
    dsimp only at h
    rw [Int32.ofInt_toInt] at h
    cases byChance with
    | false =>
      cases h
      exact .stat hs hx hpos
    | true =>
      obtain ⟨⟨p, rest⟩, hchance, h⟩ := bind_eq_ok_iff.1 h
      cases h
      obtain ⟨q, rfl, hp, hle⟩ := takeChance_eq_ok_iff.1 hchance
      exact .chance hs hx hpos hp hle

theorem Operands.readChange_eq {name : String} {kind : EffectKind} (h : Operands kind ts e) :
    readChange name ts kind = .ok (e, []) := by
  cases h with
  | @resource d r amount v hv hpos =>
    have hread : Text.signed? 64 amount = some v.toInt := signed?_int64.2 ⟨v, rfl, hv⟩
    refine bind_eq_ok_iff.2 ⟨_, takeAmount_eq_ok_iff.2 ⟨amount, rfl, hread, hpos⟩, ?_⟩
    dsimp only
    rw [Int64.ofInt_toInt]
  | @stat d s stat amount v hs hv hpos =>
    have hread : Text.signed? 32 amount = some v.toInt := signed?_int32.2 ⟨v, rfl, hv⟩
    refine bind_eq_ok_iff.2 ⟨_, takeStat_eq_ok_iff.2 ⟨stat, rfl, hs⟩, ?_⟩
    refine bind_eq_ok_iff.2 ⟨_, takeAmount_eq_ok_iff.2 ⟨amount, rfl, hread, hpos⟩, ?_⟩
    dsimp only
    rw [Int32.ofInt_toInt]
    rfl
  | @chance d s stat amount percentage v p hs hv hpos hp hle =>
    have hread : Text.signed? 32 amount = some v.toInt := signed?_int32.2 ⟨v, rfl, hv⟩
    refine bind_eq_ok_iff.2 ⟨_, takeStat_eq_ok_iff.2 ⟨stat, rfl, hs⟩, ?_⟩
    refine bind_eq_ok_iff.2 ⟨_, takeAmount_eq_ok_iff.2 ⟨amount, rfl, hread, hpos⟩, ?_⟩
    refine bind_eq_ok_iff.2 ⟨_, takeChance_eq_ok_iff.2 ⟨percentage, rfl, hp, hle⟩, ?_⟩
    dsimp only
    rw [Int32.ofInt_toInt]

/-- All operands are words. -/
theorem Operands.exists_word {kind : EffectKind} (h : Operands kind ts e) :
    ∃ w rest, ts = .word w :: rest := by
  cases h <;> exact ⟨_, _, rfl⟩

theorem effectOfTokens_eq_ok_iff : effectOfTokens ts = .ok e ↔ IsEffect ts e := by
  constructor
  · intro h
    cases ts with
    | nil => cases h
    | cons t ts =>
      obtain ⟨kind, hkind, h⟩ := bind_eq_ok_iff.1 h
      obtain ⟨ts', hskip, h⟩ := bind_eq_ok_iff.1 h
      obtain ⟨⟨e', rest⟩, he, h⟩ := bind_eq_ok_iff.1 h
      obtain ⟨_, hfinish, h⟩ := bind_eq_ok_iff.1 h
      cases h
      obtain ⟨name, rfl, hname⟩ := resolve_eq_ok_iff.1 hkind
      obtain ⟨op, hop, rfl⟩ := skipOperator_eq_ok hskip
      obtain rfl := finish_eq_ok_iff.1 hfinish
      exact .line (EffectKind.ofName?_eq_some_iff.1 hname) hop (.of_tokens he)
  · rintro @⟨kind, name, op, operands, e, hname, hop, h⟩
    obtain ⟨w, rest, rfl⟩ := h.exists_word
    refine bind_eq_ok_iff.2 ⟨kind, resolve_eq_ok_iff.2
      ⟨name, rfl, EffectKind.ofName?_eq_some_iff.2 hname⟩, ?_⟩
    refine bind_eq_ok_iff.2 ⟨_, skipOperator_append hop, ?_⟩
    exact bind_eq_ok_iff.2 ⟨_, h.readChange_eq, rfl⟩

theorem tagOfTokens_eq_ok_iff : tagOfTokens ts = .ok tag ↔ IsTag ts tag := by
  constructor
  · intro h
    cases ts with
    | nil => cases h
    | cons t ts =>
      obtain ⟨tag', htag, h⟩ := bind_eq_ok_iff.1 h
      obtain ⟨_, hfinish, h⟩ := bind_eq_ok_iff.1 h
      cases h
      obtain ⟨name, rfl, hname⟩ := resolve_eq_ok_iff.1 htag
      obtain rfl := finish_eq_ok_iff.1 hfinish
      exact .line (Tag.ofName?_eq_some_iff.1 hname)
  · rintro ⟨hname⟩
    exact bind_eq_ok_iff.2 ⟨tag, resolve_eq_ok_iff.2
      ⟨_, rfl, Tag.ofName?_eq_some_iff.2 hname⟩, rfl⟩

/-- The readers accept exactly the lines of their grammars, and read what these say:
* a condition is the name of a balance, `>=`, `=`, `==` or no operator, and an amount of 64 bits; or
  the name of the target's type, `=`, `==` or no operator, and a word, which is kept as it is. It has
  not been met yet;
* an effect or a cost is the name of an effect, `=`, `==` or no operator, and its operands: an amount
  of 64 bits; or a stat and an amount of 32 bits; or both of these and a percentage. No amount is
  negative;
* a tag is a name alone. -/
theorem line_eq_ok_iff (line : String) :
    (∀ c, readCondition line = .ok c ↔
      ∃ ts r, Spells line.toList ts ∧ IsCondition ts r ∧ c = ⟨r, false⟩) ∧
    (∀ e, readEffect line = .ok e ↔ ∃ ts, Spells line.toList ts ∧ IsEffect ts e) ∧
    (∀ tag, readTag line = .ok tag ↔ ∃ ts, Spells line.toList ts ∧ IsTag ts tag) := by
  have hspells := spells_tokens line.toList
  refine ⟨fun c => ⟨fun h => ?_, ?_⟩, fun e => ⟨fun h => ?_, ?_⟩, fun tag => ⟨fun h => ?_, ?_⟩⟩
  · obtain ⟨r, hr, hc⟩ := IsCondition.of_tokens h
    exact ⟨_, r, hspells, hr, hc⟩
  · rintro ⟨ts, r, hts, hr, rfl⟩
    rw [readCondition, tokenize_eq_iff.2 hts]
    exact hr.conditionOfTokens_eq
  · exact ⟨_, hspells, effectOfTokens_eq_ok_iff.1 h⟩
  · rintro ⟨ts, hts, he⟩
    rw [readEffect, tokenize_eq_iff.2 hts]
    exact effectOfTokens_eq_ok_iff.2 he
  · exact ⟨_, hspells, tagOfTokens_eq_ok_iff.1 h⟩
  · rintro ⟨ts, hts, htag⟩
    rw [readTag, tokenize_eq_iff.2 hts]
    exact tagOfTokens_eq_ok_iff.2 htag

example : readCondition "playerhasmoneyvalue>= +50" = .ok ⟨.atLeast .money 50, false⟩ := by cbv

end Deeds.Line
