import Deeds.Cast
import Deeds.Chance.Dice
import Deeds.Treasury

/-!
# The world that effects change

The treasury, the cast, and the dice that decide changes of chance.

* `World.applyOne` : one effect, and whether it changed anything;
* `World.applyAll` : a list of effects in order, and how many of them changed something.
-/

namespace Deeds

/-- What deeds act on. -/
structure World where
  treasury : Treasury
  cast : Cast
  dice : Dice
  deriving DecidableEq

namespace World

/-- Adds a change to a stat of an actor. -/
def adjustStat (w : World) (actor : CharacterId) (c : StatChange) : World :=
  { w with cast := w.cast.adjustStat actor c.stat c.delta.toInt }

/-- Applies a change of a stat; one of chance takes a roll, whatever its chance. -/
def applyStat (w : World) (actor : CharacterId) (c : StatChange) : World × Bool :=
  match c.chance with
  | none => (w.adjustStat actor c, true)
  | some _ =>
    let (roll, dice) := w.dice.roll
    let w := { w with dice }
    if c.passes roll then (w.adjustStat actor c, true) else (w, false)

/-- Applies one effect on behalf of an actor. -/
def applyOne (w : World) (actor : CharacterId) (e : Effect) : World × Bool :=
  match e.resourceDelta with
  | some (r, delta) => ({ w with treasury := w.treasury.adjust r delta }, true)
  | none => match e.statChange with
    | some c => w.applyStat actor c
    | none => (w, false)

/-- Applies effects in order on behalf of an actor, and counts those that changed something. -/
def applyAll (w : World) (actor : CharacterId) : List Effect → World × Nat
  | [] => (w, 0)
  | e :: rest =>
    let (w, changed) := w.applyOne actor e
    let (w, count) := w.applyAll actor rest
    (w, (if changed then 1 else 0) + count)

end World

end Deeds
