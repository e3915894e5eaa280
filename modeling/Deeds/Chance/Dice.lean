import Deeds.Chance.Keystream

/-!
# Dice

Rolls of the numbers below 100, one after the other, from a seeded stream. The same seed gives the
same rolls.
-/

namespace Deeds

open Chance

/-- A stream and how many of its words were used. -/
structure Dice where
  stream : Keystream
  used : Nat
  deriving DecidableEq, Repr

namespace Dice

/-- The dice of a seed. -/
def ofSeed (seed : UInt64) : Dice := ⟨.ofSeed seed, 0⟩

/-- How many faces there are. -/
def faces : Nat := 100

/-- A roll: the word scaled to the number of faces. When the part that is cut off is so large that
further bits could carry into the roll, one more word decides. -/
def roll (d : Dice) : Nat × Dice :=
  let product := (d.stream.word d.used).toNat * faces
  let high := product / UInt32.size
  let low := product % UInt32.size
  if UInt32.size - faces < low then
    let more := (d.stream.word (d.used + 1)).toNat * faces / UInt32.size
    (if UInt32.size ≤ low + more then high + 1 else high, { d with used := d.used + 2 })
  else (high, { d with used := d.used + 1 })

/-- The dice after a number of rolls. -/
def after (d : Dice) : Nat → Dice
  | 0 => d
  | n + 1 => (d.roll.2).after n

end Dice

end Deeds
