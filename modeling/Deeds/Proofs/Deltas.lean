import Deeds.Proofs.Chances
import Deeds.Proofs.Line.Grammar

/-!
# Effect lines as signed changes

An effect line says what is changed, by how much, and which way. What is read from it is one change,
of one balance or of one stat, whose number is the amount of the line with the sign of the direction;
and an application that meets the effect carries out this change and no other.

* `Delta`, `Effect.deltas` : the changes that an effect states, by whole numbers;
* `Effect.deltas_resource`, `Effect.deltas_stat` : an amount that is not negative has an opposite at
  its width;
* `Carried`, `World.carried_applyAll` : the turn of an effect in an application;
* `Line.Tells` : what an effect line says, as numbers;
* `Line.effect_line_exact` : a line that is read makes exactly the change that it tells.
-/

namespace Deeds

/-! ## Directions -/

namespace Direction

/-- The sign of the changes that go in a direction. -/
def sign : Direction → Int
  | up => 1
  | down => -1

/-- The other direction. -/
def opposite : Direction → Direction
  | up => down
  | down => up

theorem sign_opposite (d : Direction) : d.opposite.sign = -d.sign := by cases d <;> rfl

end Direction

namespace EffectKind

/-- Which way the effects of a kind go. -/
def direction : EffectKind → Direction
  | resource d _ => d
  | stat d _ => d

/-- The kind of the same changes the other way. -/
def opposite : EffectKind → EffectKind
  | resource d r => resource d.opposite r
  | stat d byChance => stat d.opposite byChance

theorem direction_opposite (k : EffectKind) : k.opposite.direction = k.direction.opposite := by
  cases k <;> rfl

end EffectKind

/-! ## Changes -/

/-- What an effect changes: a balance, or a stat of the actor. -/
inductive Subject where
  | balance (resource : Resource)
  | stat (stat : Stat)
  deriving DecidableEq, Repr

/-- How often the treasury is adjusted by one change of a subject. -/
def Subject.adjustments : Subject → Nat
  | balance _ => 1
  | stat _ => 0

/-- A change of a subject by a whole number, that may depend on a roll. -/
structure Delta where
  subject : Subject
  value : Int
  chance : Option Nat
  deriving DecidableEq, Repr

namespace Delta

/-- A roll lets the change through. -/
def passes (d : Delta) (roll : Nat) : Bool := d.chance.all (roll < ·)

/-- By how much a subject moves, if a change of it goes through. -/
def on (d : Delta) (s : Subject) : Int := if d.subject = s then d.value else 0

end Delta

namespace Effect

/-- The changes that an effect states: that of a resource, if it has one, and that of a stat, if it
has one. -/
def deltas (e : Effect) : List Delta :=
  (e.resourceDelta.map fun (r, delta) => ⟨.balance r, delta.toInt, none⟩).toList
    ++ (e.statChange.map fun c => ⟨.stat c.stat, c.delta.toInt, c.chance⟩).toList

/-- Either a resource is changed or a stat. -/
theorem readings (e : Effect) :
    (∃ r delta, e.resourceDelta = some (r, delta) ∧ e.statChange = none) ∨
      ∃ c, e.resourceDelta = none ∧ e.statChange = some c := by
  cases e with
  | resource direction => cases direction <;> exact .inl ⟨_, _, rfl, rfl⟩
  | stat direction => cases direction <;> exact .inr ⟨_, rfl, rfl⟩

theorem deltas_resource (direction : Direction) (r : Resource) {n : Nat} (hn : n < 2 ^ 63) :
    (resource direction r (.ofInt n)).deltas = [⟨.balance r, direction.sign * n, none⟩] := by
  have hup : (Int64.ofInt n).toInt = n := Int64.toInt_ofInt_of_le (by omega) (by omega)
  have hdown : (-Int64.ofInt n).toInt = -n := by
    rw [Int64.neg_ofInt]
    exact Int64.toInt_ofInt_of_le (by omega) (by omega)
  cases direction with
  | up => simp [deltas, resourceDelta, statChange, Direction.sign, hup]
  | down => simp [deltas, resourceDelta, statChange, Direction.sign, hdown]

theorem deltas_stat (direction : Direction) (s : Stat) (chance : Option Nat) {n : Nat}
    (hn : n < 2 ^ 31) :
    (stat direction s (.ofInt n) chance).deltas = [⟨.stat s, direction.sign * n, chance⟩] := by
  have hup : (Int32.ofInt n).toInt = n := Int32.toInt_ofInt_of_le (by omega) (by omega)
  have hdown : (-Int32.ofInt n).toInt = -n := by
    rw [Int32.neg_ofInt]
    exact Int32.toInt_ofInt_of_le (by omega) (by omega)
  cases direction with
  | up => simp [deltas, resourceDelta, statChange, Direction.sign, hup]
  | down => simp [deltas, resourceDelta, statChange, Direction.sign, hdown]

section OneDelta

variable {e : Effect} {d : Delta}

/-- A single change is that of the one reading that there is. -/
theorem cases_of_deltas (h : e.deltas = [d]) :
    (∃ r delta, e.resourceDelta = some (r, delta) ∧ e.statChange = none ∧
        d = ⟨.balance r, delta.toInt, none⟩) ∨
      ∃ c, e.resourceDelta = none ∧ e.statChange = some c ∧
        d = ⟨.stat c.stat, c.delta.toInt, c.chance⟩ := by
  unfold deltas at h
  rcases e.readings with ⟨r, delta, hr, hs⟩ | ⟨c, hr, hs⟩ <;> rw [hr, hs] at h
  · exact .inl ⟨r, delta, hr, hs, (List.singleton_inj.1 h).symm⟩
  · exact .inr ⟨c, hr, hs, (List.singleton_inj.1 h).symm⟩

theorem chance?_of_deltas (h : e.deltas = [d]) : e.chance? = d.chance := by
  unfold chance?
  rcases cases_of_deltas h with ⟨r, delta, -, hs, rfl⟩ | ⟨c, -, hs, rfl⟩ <;> rw [hs] <;> rfl

theorem change_of_deltas (h : e.deltas = [d]) (r : Resource) :
    e.change r = .ofInt (d.on (.balance r)) := by
  unfold change
  rcases cases_of_deltas h with ⟨changed, delta, hr, -, rfl⟩ | ⟨c, hr, -, rfl⟩ <;> rw [hr]
  · by_cases hsame : changed = r <;> simp [Delta.on, hsame]
  · rfl

theorem statDelta_of_deltas (h : e.deltas = [d]) (s : Stat) : e.statDelta s = d.on (.stat s) := by
  unfold statDelta
  rcases cases_of_deltas h with ⟨r, delta, -, hs, rfl⟩ | ⟨c, -, hs, rfl⟩ <;> rw [hs] <;>
    simp [Delta.on]

theorem adjustments_of_deltas (h : e.deltas = [d]) :
    (if e.resourceDelta.isSome then 1 else 0) = d.subject.adjustments := by
  rcases cases_of_deltas h with ⟨r, delta, hr, -, rfl⟩ | ⟨c, hr, -, rfl⟩ <;> rw [hr] <;> rfl

end OneDelta

end Effect

/-! ## Turns of an application -/

/-- A change was carried out on behalf of an actor, from a world and a count to the next ones. It went
through if it depends on no roll or the next one is below its chance; then it was counted, and its
subject moved by its number, the balances at 64 bits. Nothing else moved, and a roll was taken if it
depends on one. -/
structure Carried (actor : CharacterId) (d : Delta) (start stop : World × Nat) : Prop where
  count : stop.2 = start.2 + if d.passes start.1.dice.roll.1 then 1 else 0
  balance : ∀ r, stop.1.treasury.balance r = start.1.treasury.balance r
    + .ofInt (if d.passes start.1.dice.roll.1 then d.on (.balance r) else 0)
  stat : ∀ a s, stop.1.cast.stat a s = start.1.cast.stat a s
    + if d.passes start.1.dice.roll.1 ∧ actor = a then d.on (.stat s) else 0
  adjustments : stop.1.treasury.adjustments = start.1.treasury.adjustments + d.subject.adjustments
  dice : stop.1.dice = start.1.dice.after (if d.chance.isSome then 1 else 0)
  cast : { stop.1.cast with stats := start.1.cast.stats } = start.1.cast

namespace World

/-- Only the sums of stats change in the cast. -/
theorem cast_change (w : World) (p : CharacterId × Effect) :
    { (w.change p).cast with stats := w.cast.stats } = w.cast := by
  unfold change
  split
  · rfl
  · split <;> rfl

/-- One effect carries out the change that it states. -/
theorem carried_applyOne {e : Effect} {d : Delta} (h : e.deltas = [d]) (w : World)
    (actor : CharacterId) (n : Nat) :
    Carried actor d (w, n)
      ((w.applyOne actor e).1, n + if (w.applyOne actor e).2 then 1 else 0) := by
  have hpasses : e.passes w.dice.roll.1 = d.passes w.dice.roll.1 :=
    congrArg (·.all (w.dice.roll.1 < ·)) (Effect.chance?_of_deltas h)
  have happly := applyOne_eq w actor e
  rw [hpasses] at happly
  have hadjustments := adjustments_applyOne w actor e
  rw [Effect.adjustments_of_deltas h] at hadjustments
  have hdice := dice_applyOne w actor e
  rw [Effect.isGated_eq, Effect.chance?_of_deltas h] at hdice
  rw [happly] at hadjustments hdice ⊢
  -- what is left are the sums, which stay as they are if the roll is against the effect
  refine ⟨rfl, fun r => ?balance, fun a s => ?stat, hadjustments, hdice, ?cast⟩
  case balance =>
    cases d.passes w.dice.roll.1 with
    | true => exact (balance_change w _ r).trans (by rw [Effect.change_of_deltas h]; rfl)
    | false => exact (Int64.add_zero _).symm
  case stat =>
    cases d.passes w.dice.roll.1 with
    | true => exact (stat_change w _ a s).trans (by rw [Effect.statDelta_of_deltas h]; simp)
    | false => simp
  case cast =>
    cases d.passes w.dice.roll.1 with
    | true => exact cast_change w (actor, e)
    | false => rfl

/-- In its turn, wherever it stands, an effect carries out the change that it states. -/
theorem carried_applyAll {e : Effect} {d : Delta} (h : e.deltas = [d]) (w : World)
    (actor : CharacterId) (before : List Effect) :
    Carried actor d (w.applyAll actor before) (w.applyAll actor (before ++ [e])) := by
  rw [applyAll_append]
  exact carried_applyOne h (w.applyAll actor before).1 actor (w.applyAll actor before).2

end World

/-! ## What effect lines tell -/

namespace Line

open Text (IsName WritesSigned WritesUnsigned)

/-- What an effect line says besides the direction: what is changed, by how much, and with which
chance. -/
structure Terms where
  subject : Subject
  amount : Nat
  chance : Option Nat

/-- The change that the terms mean in a direction. -/
def Terms.delta (t : Terms) (d : Direction) : Delta := ⟨t.subject, d.sign * t.amount, t.chance⟩

/-- The terms of a kind, and the words that write them: an amount for a resource; a stat and an
amount; or both of these and a percentage. -/
inductive Terms.WrittenBy : EffectKind → List String → Terms → Prop
  | resource {d : Direction} {r : Resource} {amount : String} {n : Nat}
      (hn : WritesSigned amount.toList n) (hlt : n < 2 ^ 63) :
      WrittenBy (.resource d r) [amount] ⟨.balance r, n, none⟩
  | stat {d : Direction} {s : Stat} {name amount : String} {n : Nat} (hs : IsName name s.name)
      (hn : WritesSigned amount.toList n) (hlt : n < 2 ^ 31) :
      WrittenBy (.stat d false) [name, amount] ⟨.stat s, n, none⟩
  | chance {d : Direction} {s : Stat} {name amount percentage : String} {n p : Nat}
      (hs : IsName name s.name) (hn : WritesSigned amount.toList n) (hlt : n < 2 ^ 31)
      (hp : WritesUnsigned percentage.toList p) (hle : p ≤ 100) :
      WrittenBy (.stat d true) [name, amount, percentage] ⟨.stat s, n, some p⟩

/-- An effect line tells a kind by its first word, and terms by the words behind the operator that
may follow. -/
inductive Tells (line : String) (kind : EffectKind) (t : Terms) : Prop
  | intro {name : String} {op : List Token} {words : List String}
      (hline : Spells line.toList (.word name :: (op ++ words.map .word)))
      (hname : IsName name kind.name) (hop : OptionalOperator ["=", "=="] op)
      (hwords : t.WrittenBy kind words)

section Tells

variable {kind : EffectKind} {words : List String} {t : Terms} {ts : List Token} {e : Effect}
  {line : String}

/-- The words of the terms are operands, of an effect that states what the terms mean. -/
theorem Terms.WrittenBy.exists_operands (h : t.WrittenBy kind words) :
    ∃ e, Operands kind (words.map .word) e ∧ e.kind = kind ∧
      e.deltas = [t.delta kind.direction] := by
  cases h with
  | @resource d r amount n hn hlt =>
    have hv : (Int64.ofInt n).toInt = n := Int64.toInt_ofInt_of_le (by omega) (by omega)
    rw [← hv] at hn
    exact ⟨_, .resource hn (by omega), rfl, Effect.deltas_resource d r hlt⟩
  | @stat d s name amount n hs hn hlt =>
    have hv : (Int32.ofInt n).toInt = n := Int32.toInt_ofInt_of_le (by omega) (by omega)
    rw [← hv] at hn
    exact ⟨_, .stat hs hn (by omega), rfl, Effect.deltas_stat d s none hlt⟩
  | @chance d s name amount percentage n p hs hn hlt hp hle =>
    have hv : (Int32.ofInt n).toInt = n := Int32.toInt_ofInt_of_le (by omega) (by omega)
    rw [← hv] at hn
    exact ⟨_, .chance hs hn (by omega) hp hle, rfl, Effect.deltas_stat d s (some p) hlt⟩

/-- Operands write the terms of a kind. -/
theorem Operands.exists_writtenBy (h : Operands kind ts e) :
    ∃ words t, ts = words.map .word ∧ Terms.WrittenBy kind words t := by
  cases h with
  | @resource d r amount v hv hpos =>
    obtain ⟨n, hn⟩ := Int.eq_ofNat_of_zero_le hpos
    have hlt := v.toInt_lt
    rw [hn] at hv
    exact ⟨[amount], _, rfl, .resource hv (by omega)⟩
  | @stat d s name amount v hs hv hpos =>
    obtain ⟨n, hn⟩ := Int.eq_ofNat_of_zero_le hpos
    have hlt := v.toInt_lt
    rw [hn] at hv
    exact ⟨[name, amount], _, rfl, .stat hs hv (by omega)⟩
  | @chance d s name amount percentage v p hs hv hpos hp hle =>
    obtain ⟨n, hn⟩ := Int.eq_ofNat_of_zero_le hpos
    have hlt := v.toInt_lt
    rw [hn] at hv
    exact ⟨[name, amount, percentage], _, rfl, .chance hs hv (by omega) hp hle⟩

/-- A line that tells something is read, as an effect of the kind it tells and of the change that its
terms mean. -/
theorem Tells.exists_readEffect (h : Tells line kind t) :
    ∃ e, readEffect line = .ok e ∧ e.kind = kind ∧ e.deltas = [t.delta kind.direction] := by
  obtain ⟨hline, hname, hop, hwords⟩ := h
  obtain ⟨e, he, hkind, hdeltas⟩ := hwords.exists_operands
  refine ⟨e, ?_, hkind, hdeltas⟩
  rw [readEffect, tokenize_eq_iff.2 hline]
  exact effectOfTokens_eq_ok_iff.2 (.line hname hop he)

/-- A line that is read tells something. -/
theorem exists_tells (h : readEffect line = .ok e) : ∃ kind t, Tells line kind t := by
  have hline := spells_tokens line.toList
  have heffect : IsEffect (tokens line.toList) e := effectOfTokens_eq_ok_iff.1 h
  generalize tokens line.toList = ts at hline heffect
  obtain ⟨hname, hop, hoperands⟩ := heffect
  obtain ⟨words, t, rfl, hwords⟩ := hoperands.exists_writtenBy
  exact ⟨_, t, .intro hline hname hop hwords⟩

/-- Kinds of opposite directions take the same words. -/
theorem Terms.WrittenBy.opposite (h : t.WrittenBy kind words) : t.WrittenBy kind.opposite words := by
  cases h with
  | resource hn hlt => exact .resource hn hlt
  | stat hs hn hlt => exact .stat hs hn hlt
  | chance hs hn hlt hp hle => exact .chance hs hn hlt hp hle

theorem isWellFormed_name (kind : EffectKind) : (Token.word kind.name).IsWellFormed := by
  rcases kind with ⟨_ | _, _ | _⟩ | ⟨_ | _, _ | _⟩ <;>
    exact isWellFormed_word (by decide) rfl

/-- What a line tells can be told the other way: the name of the opposite kind takes the place of the
first word. -/
theorem Tells.exists_opposite (h : Tells line kind t) : ∃ other, Tells other kind.opposite t := by
  obtain @⟨name, op, words, hline, hname, hop, hwords⟩ := h
  have hrest (x : Token) (hx : x ∈ op ++ words.map .word) : x.IsWellFormed :=
    hline.isWellFormed (List.mem_cons_of_mem _ hx)
  obtain ⟨other, hother⟩ :=
    exists_tokenize_eq (List.forall_mem_cons.2 ⟨isWellFormed_name kind.opposite, hrest⟩)
  exact ⟨other, .intro (tokenize_eq_iff.1 hother) rfl hop hwords.opposite⟩

theorem Terms.WrittenBy.isSome_chance_iff (h : t.WrittenBy kind words) :
    t.chance.isSome ↔ kind = .stat .up true ∨ kind = .stat .down true := by
  cases h with
  | resource => simp
  | stat => simp
  | @chance d => cases d <;> simp

theorem Terms.WrittenBy.chance_le (h : t.WrittenBy kind words) : ∀ p ∈ t.chance, p ≤ 100 := by
  cases h with
  | resource => simp
  | stat => simp
  | chance hs hn hlt hp hle => simpa using hle

/-- The same terms the other way mean the opposite number, of the same subject and chance. -/
theorem Terms.value_delta_opposite (t : Terms) (d : Direction) :
    (t.delta d).value + (t.delta d.opposite).value = 0 := by
  unfold Terms.delta
  rw [d.sign_opposite, Int.neg_mul, Int.add_right_neg]

end Tells

/-- A line is read as an effect if and only if it tells a kind and its terms. What is read is then one
change, with the sign of the kind:
* the effect is of the kind that the line names;
* it states a change of a resource or one of a stat, never both and never neither;
* the change is of the resource that the kind names, or of the stat that the line names. Its number is
  the amount of the line, with a minus sign if the kind goes down; as this is the whole number, no
  negation overflows the width of the amount;
* there is a chance for the two kinds of chance and for no other, and it is at most one hundred;
* an application carries out this change and no other in the turn of the effect, whatever effects
  have their turns before;
* some line tells the same terms of the opposite kind, and any such line is read as a change of the
  same subject with the same chance, whose number makes zero with the first one. -/
theorem effect_line_exact (line : String) :
    ((∃ e, readEffect line = .ok e) ↔ ∃ kind t, Tells line kind t) ∧
    ∀ kind t e, Tells line kind t → readEffect line = .ok e →
      e.kind = kind ∧
      e.resourceDelta.isSome ≠ e.statChange.isSome ∧
      e.deltas = [t.delta kind.direction] ∧
      (e.chance?.isSome ↔ kind = .stat .up true ∨ kind = .stat .down true) ∧
      (∀ p ∈ e.chance?, p ≤ 100) ∧
      (∀ (w : World) actor before, Carried actor (t.delta kind.direction)
        (w.applyAll actor before) (w.applyAll actor (before ++ [e]))) ∧
      (∃ other, Tells other kind.opposite t) ∧
      ∀ other e', Tells other kind.opposite t → readEffect other = .ok e' →
        ∃ value, (t.delta kind.direction).value + value = 0 ∧
          e'.deltas = [{ t.delta kind.direction with value }] := by
  refine ⟨⟨fun ⟨e, he⟩ => exists_tells he, fun ⟨kind, t, h⟩ => ?_⟩, fun kind t e h he => ?_⟩
  · obtain ⟨e, he, -⟩ := h.exists_readEffect
    exact ⟨e, he⟩
  · obtain ⟨read, hread, hkind, hdeltas⟩ := h.exists_readEffect
    obtain rfl : e = read := Except.ok.inj (he.symm.trans hread)
    have hone : e.resourceDelta.isSome ≠ e.statChange.isSome := by
      rcases e.readings with ⟨r, delta, hr, hs⟩ | ⟨c, hr, hs⟩ <;> simp [hr, hs]
    have hchance : e.chance? = t.chance := Effect.chance?_of_deltas hdeltas
    have hopposite := h.exists_opposite
    obtain ⟨hline, hname, hop, hwords⟩ := h
    refine ⟨hkind, hone, hdeltas, hchance ▸ hwords.isSome_chance_iff, hchance ▸ hwords.chance_le,
      fun w actor before => World.carried_applyAll hdeltas w actor before, hopposite,
      fun other e' hother he' => ?_⟩
    obtain ⟨read', hread', -, hdeltas'⟩ := hother.exists_readEffect
    obtain rfl : e' = read' := Except.ok.inj (he'.symm.trans hread')
    rw [kind.direction_opposite] at hdeltas'
    exact ⟨_, t.value_delta_opposite kind.direction, hdeltas'⟩

example : (readEffect "RemoveMoney 9223372036854775807").toOption.map Effect.deltas
    = some [⟨.balance .money, -9223372036854775807, none⟩] := by cbv

end Line

end Deeds
