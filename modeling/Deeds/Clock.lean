import Deeds.Channel
import Deeds.Identity

/-!
# The clock

A count of hours that is moved on by hand; every hour goes to the receivers of the clock's channel.
-/

namespace Deeds

/-- A clock and its channel. -/
structure Clock where
  now : Hour
  ticks : Channel Hour

namespace Clock

/-- How many hours a clock keeps for its receivers unless told otherwise. -/
def defaultCapacity : Nat := 64

/-- A clock at hour zero. -/
def ofCapacity (capacity : Nat) : Clock := ⟨⟨0⟩, .ofCapacity capacity⟩

/-- Moves on by one hour. -/
def advance (c : Clock) : Clock := ⟨c.now.next, c.ticks.send c.now.next⟩

end Clock

end Deeds
