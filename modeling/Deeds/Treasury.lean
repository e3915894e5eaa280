import Deeds.Effect

/-!
# The treasury

The player's balances, and how many times they were adjusted. Sums wrap at 64 bits.
-/

namespace Deeds

/-- The balances of the player. -/
structure Treasury where
  money : Int64
  influence : Int64
  adjustments : Nat
  deriving DecidableEq, Repr

namespace Treasury

/-- Balances that were never adjusted. -/
def ofBalances (money influence : Int64) : Treasury := ⟨money, influence, 0⟩

/-- The balance of a resource. -/
def balance (t : Treasury) : Resource → Int64
  | .money => t.money
  | .influence => t.influence

/-- Adds a signed amount to a balance. -/
def adjust (t : Treasury) (r : Resource) (delta : Int64) : Treasury :=
  match r with
  | .money => { t with money := t.money + delta, adjustments := t.adjustments + 1 }
  | .influence => { t with influence := t.influence + delta, adjustments := t.adjustments + 1 }

end Treasury

end Deeds
