import Deeds.Proofs.Line.Grammar

/-!
# Errors of lines

A reader goes from left to right, and what it reports is exact: the token at fault is the first one
with which no line can be read any more, and a line that is only too short can be completed.

* `LineError.AtEnd`, `Quotes` : what an error is about, the end of the line or a token;
* `ExactErrors` : what the errors of a reader of lines say about all other lines;
* `Exact` : the same of a reader of tokens; `Exact.operand`, `Exact.operator`, `Exact.named` : it is
  kept by putting a step in front;
* `errors_exact` : the errors of conditions, effects and tags are exact.
-/

namespace Deeds.Line

open Text (WritesSigned)

/-! ## What an error says -/

/-- The line ends too early. -/
def LineError.AtEnd (e : LineError) : Prop :=
  e = .empty ∨ ∃ name operand, e = .missingOperand name operand

/-- An error quotes a token: its text, or the number that it writes. -/
inductive Quotes : LineError → Token → Prop
  | unknownName {category : Category} {t : Token} : Quotes (.unknownName category t.text) t
  | invalidNumber {name w : String} {operand : Operand} :
      Quotes (.invalidNumber name operand w) (.word w)
  | unsupportedOperator {name o : String} : Quotes (.unsupportedOperator name o) (.operator o)
  | unexpectedToken {name : String} {t : Token} : Quotes (.unexpectedToken name t.text) t
  | outOfRange {name w : String} {operand : Operand} {v : Int} (hv : WritesSigned w.toList v) :
      Quotes (.outOfRange name operand v) (.word w)
  | unknownStat {w : String} : Quotes (.unknownStat w) (.word w)

/-- The errors of a reader of lines are exact. -/
structure ExactErrors {α : Type} (read : String → Except LineError α) : Prop where
  /-- A line that ends too early can be continued to one that is read. -/
  atEnd : ∀ line e, read line = .error e → e.AtEnd →
    ∃ longer a, tokenize line <+: tokenize longer ∧ read longer = .ok a
  /-- Any other error quotes a token of the line. All lines that are the same up to that token fail
  with the same error, and what stands before it can be continued to a line that is read. -/
  atToken : ∀ line e, read line = .error e → ¬ e.AtEnd →
    ∃ before t after, tokenize line = before ++ t :: after ∧ Quotes e t ∧
      (∀ other, before ++ [t] <+: tokenize other → read other = .error e) ∧
      ∃ longer a, before <+: tokenize longer ∧ read longer = .ok a

/-! ## Readers of tokens -/

section Readers

variable {α β : Type} {p : List Token → Except LineError α}
  {step : List Token → Except LineError (β × List Token)}
  {k : β → List Token → Except LineError α} {name : String} {allowed : List String}
  {ts after : List Token} {t : Token} {e : LineError} {a : α}

/-- Some tokens can be continued to tokens that are read. -/
def Completable (p : List Token → Except LineError α) (ts : List Token) : Prop :=
  ∃ more, (∀ t ∈ more, t.IsWellFormed) ∧ ∃ a, p (ts ++ more) = .ok a

/-- The error of a reader on some tokens, with what it says about other tokens. -/
inductive Fails (p : List Token → Except LineError α) (ts : List Token) (e : LineError) : Prop
  | atEnd (he : e.AtEnd) (h : Completable p ts)
  | atToken {before after : List Token} {t : Token} (hts : ts = before ++ t :: after)
      (hq : Quotes e t) (hsame : ∀ after, p (before ++ t :: after) = .error e)
      (h : Completable p before)

/-- A reader that can be satisfied, and whose errors are exact. -/
structure Exact (p : List Token → Except LineError α) : Prop where
  completable : Completable p []
  fails : ∀ ts e, p ts = .error e → Fails p ts e

/-- A step that takes a word in front and looks no further. -/
structure TakesWord (name : String) (step : List Token → Except LineError (β × List Token)) :
    Prop where
  nil : ∃ operand, step [] = .error (.missingOperand name operand)
  operator : ∀ o rest, step (.operator o :: rest) = .error (.unexpectedToken name o)
  word : ∀ w, (∃ b, ∀ rest, step (.word w :: rest) = .ok (b, rest)) ∨
    ∃ e, Quotes e (.word w) ∧ ∀ rest, step (.word w :: rest) = .error e
  fits : ∃ w b, (Token.word w).IsWellFormed ∧ ∀ rest, step (.word w :: rest) = .ok (b, rest)

/-- What a reader takes after tokens that another one skips. -/
theorem Completable.append {q : List Token → Except LineError β} (skipped : List Token)
    (h : Completable q ts) (hq : ∀ rest b, q rest = .ok b → ∃ a, p (skipped ++ rest) = .ok a) :
    Completable p (skipped ++ ts) := by
  obtain ⟨more, hmore, b, hb⟩ := h
  refine ⟨more, hmore, ?_⟩
  rw [List.append_assoc]
  exact hq _ b hb

/-- So far as a reader does what another one does behind skipped tokens, it fails as that one. -/
theorem Fails.append {q : List Token → Except LineError α} (skipped : List Token)
    (h : Fails q ts e) (hq : ∀ rest, p (skipped ++ rest) = q rest) : Fails p (skipped ++ ts) e := by
  have hcompletes {ts : List Token} (h : Completable q ts) : Completable p (skipped ++ ts) :=
    h.append skipped fun rest a ha => ⟨a, (hq rest).trans ha⟩
  cases h with
  | atEnd he h => exact .atEnd he (hcompletes h)
  | @atToken before after t hts hquotes hsame h =>
    subst hts
    refine .atToken (List.append_assoc ..).symm hquotes (fun after => ?_) (hcompletes h)
    rw [List.append_assoc, hq]
    exact hsame after

/-- A reader that never takes some first token fails at it. -/
theorem Fails.first (hq : Quotes e t) (hsame : ∀ after, p (t :: after) = .error e)
    (h : Completable p []) : Fails p (t :: after) e :=
  .atToken (List.nil_append (t :: after)).symm hq hsame h

theorem Exact.congr {q : List Token → Except LineError α} (h : Exact q) (hq : ∀ ts, p ts = q ts) :
    Exact p := funext hq ▸ h

/-- Nothing may be left at the end. -/
theorem Exact.finish (name : String) (a : α) :
    Exact fun ts => Line.finish name ts >>= fun _ => .ok a where
  completable := ⟨[], by simp, a, rfl⟩
  fails ts e h := by
    cases ts with
    | nil => cases h
    | cons t ts =>
      obtain rfl : .unexpectedToken name t.text = e := Except.error.inj h
      exact .first .unexpectedToken (fun _ => rfl) ⟨[], by simp, a, rfl⟩

/-- An operand may be put in front. -/
theorem Exact.operand (hs : TakesWord name step) (hk : ∀ b, Exact (k b)) :
    Exact fun ts => step ts >>= fun x => k x.1 x.2 := by
  have hskip {w : String} {b : β} (hb : ∀ rest, step (.word w :: rest) = .ok (b, rest))
      (rest : List Token) : (step (.word w :: rest) >>= fun x => k x.1 x.2) = k b rest := by
    rw [hb]
    rfl
  have hstop {ts : List Token} {cause : LineError} (h : step ts = .error cause) :
      (step ts >>= fun x => k x.1 x.2) = .error cause := by
    rw [h]
    rfl
  have hcompletable : Completable (fun ts => step ts >>= fun x => k x.1 x.2) [] := by
    obtain ⟨w, b, hw, hb⟩ := hs.fits
    obtain ⟨more, hmore, a, ha⟩ := (hk b).completable
    exact ⟨.word w :: more, List.forall_mem_cons.2 ⟨hw, hmore⟩, a, (hskip hb more).trans ha⟩
  refine ⟨hcompletable, fun ts e h => ?_⟩
  match ts with
  | [] =>
    obtain ⟨operand, hnil⟩ := hs.nil
    obtain rfl := Except.error.inj ((hstop hnil).symm.trans h)
    exact .atEnd (.inr ⟨name, operand, rfl⟩) hcompletable
  | .operator o :: rest =>
    have hsame (rest : List Token) := hstop (hs.operator o rest)
    obtain rfl := Except.error.inj ((hsame rest).symm.trans h)
    exact .first (.unexpectedToken (t := .operator o)) hsame hcompletable
  | .word w :: rest =>
    rcases hs.word w with ⟨b, hb⟩ | ⟨cause, hq, hcause⟩
    · have hrest : k b rest = .error e := (hskip hb rest).symm.trans h
      exact ((hk b).fails rest e hrest).append [.word w] (hskip hb)
    · have hsame (rest : List Token) := hstop (hcause rest)
      obtain rfl := Except.error.inj ((hsame rest).symm.trans h)
      exact .first hq hsame hcompletable

/-- Without an operator in front, nothing is skipped. -/
theorem skipOperator_of_ok (hop : ∀ o rest a, p (.operator o :: rest) ≠ .ok a) (h : p ts = .ok a) :
    (skipOperator name allowed ts >>= p) = .ok a := by
  match ts with
  | [] => exact h
  | .word w :: rest => exact h
  | .operator o :: rest => exact absurd h (hop o rest a)

/-- An operator that may be left out may be put in front of what begins with none. -/
theorem Exact.operator (name : String) (allowed : List String) (hp : Exact p)
    (hop : ∀ o rest a, p (.operator o :: rest) ≠ .ok a) :
    Exact fun ts => skipOperator name allowed ts >>= p := by
  have hcompletes {ts : List Token} (h : Completable p ts) :
      Completable (fun ts => skipOperator name allowed ts >>= p) ts :=
    h.append [] fun rest a ha => ⟨a, skipOperator_of_ok hop ha⟩
  refine ⟨hcompletes hp.completable, fun ts e h => ?_⟩
  match ts with
  | [] =>
    cases hp.fails [] e h with
    | atEnd he hc => exact .atEnd he (hcompletes hc)
    | atToken hts => exact absurd hts (by simp)
  | .word w :: rest =>
    cases hp.fails (.word w :: rest) e h with
    | atEnd he hc => exact .atEnd he (hcompletes hc)
    | @atToken before after t hts hq hsame hc =>
      refine .atToken hts hq (fun after => ?_) (hcompletes hc)
      -- the first token is still the word, whether it is the one at fault or not
      cases before with
      | nil =>
        obtain ⟨rfl, -⟩ := List.cons.inj hts
        exact hsame after
      | cons first before =>
        obtain ⟨rfl, -⟩ := List.cons.inj hts
        exact hsame after
  | .operator o :: rest =>
    by_cases ho : allowed.contains o
    · have hskip (rest : List Token) :
          (skipOperator name allowed (.operator o :: rest) >>= p) = p rest := by
        rw [skipOperator, if_pos ho]
        rfl
      have hrest : p rest = .error e := (hskip rest).symm.trans h
      exact (hp.fails rest e hrest).append [.operator o] hskip
    · have hsame (rest : List Token) : (skipOperator name allowed (.operator o :: rest) >>= p)
          = .error (.unsupportedOperator name o) := by
        rw [skipOperator, if_neg ho]
        rfl
      obtain rfl := Except.error.inj ((hsame rest).symm.trans h)
      exact .first .unsupportedOperator hsame (hcompletes hp.completable)

theorem Exact.operatorOperand (allowed : List String) (hs : TakesWord name step)
    (hk : ∀ b, Exact (k b)) :
    Exact fun ts => skipOperator name allowed ts >>= fun ts => step ts >>= fun x => k x.1 x.2 :=
  (Exact.operand hs hk).operator name allowed fun o rest a h => by
    rw [hs.operator] at h
    cases h

/-- A token that names nothing is quoted, an operator as well as a word. -/
theorem resolve_eq_error {category : Category} {lookup : String → Option β}
    (h : t.resolve category lookup = .error e) : e = .unknownName category t.text := by
  unfold Token.resolve at h
  split at h
  · split at h
    · cases h
    · exact (Except.error.inj h).symm
  · exact (Except.error.inj h).symm

/-- A name may be put in front. -/
theorem Exact.named {category : Category} {lookup : String → Option β}
    {k : String → β → List Token → Except LineError α} (hk : ∀ name b, Exact (k name b))
    (hfits : ∃ w b, (Token.word w).IsWellFormed ∧ lookup w = some b)
    (hnil : p [] = .error .empty)
    (hcons : ∀ t ts, p (t :: ts) = t.resolve category lookup >>= fun b => k t.text b ts) :
    Exact p := by
  have hcompletable : Completable p [] := by
    obtain ⟨w, b, hw, hb⟩ := hfits
    obtain ⟨more, hmore, a, ha⟩ := (hk w b).completable
    refine ⟨.word w :: more, List.forall_mem_cons.2 ⟨hw, hmore⟩, a, ?_⟩
    rw [List.nil_append, hcons, resolve_eq_ok_iff.2 ⟨w, rfl, hb⟩]
    exact ha
  refine ⟨hcompletable, fun ts e h => ?_⟩
  cases ts with
  | nil =>
    rw [hnil] at h
    exact .atEnd (.inl (Except.error.inj h).symm) hcompletable
  | cons t ts =>
    cases hresolve : t.resolve category lookup with
    | ok b =>
      have hskip (rest : List Token) : p (t :: rest) = k t.text b rest := by
        rw [hcons, hresolve]
        rfl
      have hrest : k t.text b ts = .error e := (hskip ts).symm.trans h
      exact ((hk t.text b).fails ts e hrest).append [t] hskip
    | error cause =>
      have hsame (rest : List Token) : p (t :: rest) = .error cause := by
        rw [hcons, hresolve]
        rfl
      obtain rfl := Except.error.inj ((hsame ts).symm.trans h)
      obtain rfl := resolve_eq_error hresolve
      exact .first .unknownName hsame hcompletable

/-- A reader of lines is as exact as its reader of tokens: a line can be made of any tokens. -/
theorem Exact.exactErrors (hp : Exact p) : ExactErrors fun line => p (tokenize line) := by
  have hline {line : String} {ts after : List Token} (hts : tokenize line = ts ++ after)
      (h : Completable p ts) :
      ∃ longer a, ts <+: tokenize longer ∧ p (tokenize longer) = .ok a := by
    obtain ⟨more, hmore, a, ha⟩ := h
    have hall : ∀ t ∈ ts ++ more, t.IsWellFormed := by
      intro t ht
      rcases List.mem_append.1 ht with ht | ht
      · exact (spells_tokens line.toList).isWellFormed
          (by rw [← tokenize, hts]; exact List.mem_append_left _ ht)
      · exact hmore t ht
    obtain ⟨longer, hlonger⟩ := exists_tokenize_eq hall
    refine ⟨longer, a, ?_, ?_⟩
    · rw [hlonger]
      exact List.prefix_append ts more
    · rw [hlonger]
      exact ha
  constructor
  · intro line e h hend
    cases hp.fails _ e h with
    | atEnd _ hc => exact hline (List.append_nil _).symm hc
    | atToken _ hq =>
      rcases hend with rfl | ⟨name, operand, rfl⟩ <;> cases hq
  · intro line e h hend
    cases hp.fails _ e h with
    | atEnd he => exact absurd he hend
    | @atToken before after t hts hq hsame hc =>
      refine ⟨before, t, after, hts, hq, ?_, hline hts hc⟩
      rintro other ⟨rest, hrest⟩
      rw [← hrest, List.append_assoc]
      exact hsame rest

end Readers

/-! ## The steps of the readers -/

section Steps

variable {β : Type} {name : String} {operand : Operand} {bits : Nat}
  {step : List Token → Except LineError (β × List Token)} {read : String → Option β}

theorem takesWord_takeWord (name : String) (operand : Operand) :
    TakesWord name (takeWord name operand) where
  nil := ⟨operand, rfl⟩
  operator _ _ := rfl
  word w := .inl ⟨w, fun _ => rfl⟩
  fits := ⟨"x", "x", isWellFormed_word (by decide) rfl, fun _ => rfl⟩

theorem takeNumber_of_none {w : String} (h : read w = none) (rest : List Token) :
    takeNumber name operand read (.word w :: rest) = .error (.invalidNumber name operand w) := by
  simp [takeNumber, takeWord, bind, Except.bind, h]

theorem takesWord_takeNumber (name : String) (operand : Operand)
    (hfits : ∃ w b, (Token.word w).IsWellFormed ∧ read w = some b) :
    TakesWord name (takeNumber name operand read) where
  nil := ⟨operand, rfl⟩
  operator _ _ := rfl
  word w := by
    cases h : read w with
    | some b => exact .inl ⟨b, fun rest => takeNumber_eq_ok_iff.2 ⟨w, rfl, h⟩⟩
    | none => exact .inr ⟨_, .invalidNumber, takeNumber_of_none h⟩
  fits := by
    obtain ⟨w, b, hw, h⟩ := hfits
    exact ⟨w, b, hw, fun rest => takeNumber_eq_ok_iff.2 ⟨w, rfl, h⟩⟩

/-- The value of a number may be restricted. -/
theorem TakesWord.restrict (bad : β → Prop) [DecidablePred bad] {range : β → LineError}
    (hq : ∀ w v, read w = some v → Quotes (range v) (.word w))
    (hfits : ∃ w v, (Token.word w).IsWellFormed ∧ read w = some v ∧ ¬ bad v) :
    TakesWord name fun ts => takeNumber name operand read ts >>= fun x =>
      if bad x.1 then .error (range x.1) else .ok x := by
  have hnone {w : String} (h : read w = none) (rest : List Token) :
      (takeNumber name operand read (.word w :: rest) >>= fun x =>
        if bad x.1 then .error (range x.1) else .ok x) =
          .error (.invalidNumber name operand w) := by
    rw [takeNumber_of_none h]
    rfl
  have hsome {w : String} {v : β} (h : read w = some v) (rest : List Token) :
      (takeNumber name operand read (.word w :: rest) >>= fun x =>
        if bad x.1 then .error (range x.1) else .ok x) =
          if bad v then .error (range v) else .ok (v, rest) := by
    rw [takeNumber_eq_ok_iff.2 ⟨w, rfl, h⟩]
    rfl
  refine ⟨⟨operand, rfl⟩, fun _ _ => rfl, fun w => ?_, ?_⟩
  · cases hread : read w with
    | none => exact .inr ⟨_, .invalidNumber, hnone hread⟩
    | some v =>
      by_cases hv : bad v
      · exact .inr ⟨range v, hq w v hread, fun rest => by rw [hsome hread, if_pos hv]⟩
      · exact .inl ⟨v, fun rest => by rw [hsome hread, if_neg hv]⟩
  · obtain ⟨w, v, hw, hread, hv⟩ := hfits
    exact ⟨w, v, hw, fun rest => by rw [hsome hread, if_neg hv]⟩

theorem takesWord_takeAmount (name : String) (hfits : Text.signed? bits "0" = some 0) :
    TakesWord name (takeAmount name bits) :=
  .restrict (· < 0) (fun _ _ h => .outOfRange (Text.signed?_eq_some_iff.1 h).1)
    ⟨"0", 0, isWellFormed_word (by decide) rfl, hfits, by decide⟩

theorem takesWord_takeChance (name : String) : TakesWord name (takeChance name) :=
  .restrict (100 < ·) (fun _ _ h => .outOfRange (Text.unsigned?_eq_some_iff.1 h).1.writesSigned)
    ⟨"0", 0, isWellFormed_word (by decide) rfl, by decide, by decide⟩

theorem takesWord_takeStat (name : String) : TakesWord name (takeStat name) where
  nil := ⟨.statName, rfl⟩
  operator _ _ := rfl
  word w := by
    cases h : Stat.ofName? w with
    | some s =>
      exact .inl ⟨s, fun rest => takeStat_eq_ok_iff.2 ⟨w, rfl, Stat.ofName?_eq_some_iff.1 h⟩⟩
    | none =>
      refine .inr ⟨.unknownStat w, .unknownStat, fun rest => ?_⟩
      simp [takeStat, takeWord, bind, Except.bind, h]
  fits := ⟨"loyalty", .loyalty, isWellFormed_word (by decide) rfl,
    fun _ => takeStat_eq_ok_iff.2 ⟨_, rfl, rfl⟩⟩

end Steps

/-! ## The readers -/

/-- What follows the name of a condition. -/
theorem exact_requirement (name : String) (kind : ConditionKind) :
    Exact fun ts => readRequirement name ts kind >>= fun x =>
      finish name x.2 >>= fun _ => .ok (Condition.ofRequirement x.1) := by
  cases kind with
  | balance r =>
    have hamount : TakesWord name (takeNumber name .amount (Text.signed? 64)) :=
      takesWord_takeNumber name .amount ⟨"0", 0, isWellFormed_word (by decide) rfl, by decide⟩
    refine (Exact.operatorOperand orderOperators hamount fun v =>
      .finish name (Condition.ofRequirement (.atLeast r (Int64.ofInt v)))).congr fun ts => ?_
    simp only [readRequirement, bind_assoc]
    rfl
  | targetType =>
    refine (Exact.operatorOperand equalityOperators (takesWord_takeWord name .typeName) fun w =>
      .finish name (Condition.ofRequirement (.targetType w))).congr fun ts => ?_
    simp only [readRequirement, bind_assoc]
    rfl

/-- What follows the name of an effect. -/
theorem exact_change (name : String) (kind : EffectKind) :
    Exact fun ts => skipOperator name equalityOperators ts >>= fun ts =>
      readChange name ts kind >>= fun x => finish name x.2 >>= fun _ => .ok x.1 := by
  have hamount (bits : Nat) (h : Text.signed? bits "0" = some 0) := takesWord_takeAmount name h
  have hstat := takesWord_takeStat name
  match kind with
  | .resource d r =>
    refine (Exact.operatorOperand equalityOperators (hamount 64 (by decide)) fun v =>
      .finish name (Effect.resource d r (Int64.ofInt v))).congr fun ts => ?_
    simp only [readChange, bind_assoc]
    rfl
  | .stat d false =>
    refine (Exact.operatorOperand equalityOperators hstat fun s =>
      .operand (hamount 32 (by decide)) fun v =>
        .finish name (Effect.stat d s (Int32.ofInt v) none)).congr fun ts => ?_
    simp only [readChange, bind_assoc]
    rfl
  | .stat d true =>
    refine (Exact.operatorOperand equalityOperators hstat fun s =>
      .operand (hamount 32 (by decide)) fun v => .operand (takesWord_takeChance name) fun p =>
        .finish name (Effect.stat d s (Int32.ofInt v) (some p))).congr fun ts => ?_
    simp only [readChange, if_true, bind_assoc]
    rfl

theorem exact_conditionOfTokens : Exact conditionOfTokens :=
  .named exact_requirement
    ⟨"TargetLocationType", .targetType, isWellFormed_word (by decide) rfl, by decide⟩
    rfl fun _ _ => rfl

theorem exact_effectOfTokens : Exact effectOfTokens :=
  .named exact_change
    ⟨"AddMoney", .resource .up .money, isWellFormed_word (by decide) rfl, by decide⟩
    rfl fun _ _ => rfl

theorem exact_tagOfTokens : Exact tagOfTokens :=
  .named (fun name tag => .finish name tag)
    ⟨"Illegal", .illegal, isWellFormed_word (by decide) rfl, by decide⟩ rfl fun _ _ => rfl

/-- The errors of conditions, effects and tags are exact. If a line ends too early, it can be
continued to one that is read. Otherwise the error quotes a token of the line, or the value of that
token; every line with the same tokens up to there fails with the same error, and the tokens before
it can be continued to a line that is read. -/
theorem errors_exact :
    ExactErrors readCondition ∧ ExactErrors readEffect ∧ ExactErrors readTag :=
  ⟨exact_conditionOfTokens.exactErrors, exact_effectOfTokens.exactErrors,
    exact_tagOfTokens.exactErrors⟩

example : readEffect "AddMoney = -5 gold" = .error (.outOfRange "AddMoney" .amount (-5)) := by cbv

end Deeds.Line
