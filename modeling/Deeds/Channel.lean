/-!
# Channels

A channel carries values from one source to any number of receivers. It keeps the latest values up
to its capacity; a receiver is a position in the sequence of all values sent, and one that is
further behind than the capacity is told once how many values it missed.

* `Channel.send` : adds a value;
* `Channel.receive` : what a position reads, and the position after it.
-/

namespace Deeds

/-- A channel of values. -/
structure Channel (α : Type) where
  capacity : Nat
  /-- How many values were ever sent. -/
  sent : Nat
  /-- The latest values, oldest first. -/
  kept : List α
  length_kept : kept.length = min sent capacity

/-- What a receiver reads. -/
inductive Reading (α : Type) where
  | value (a : α)
  /-- This many values were overwritten before they were read. -/
  | lagged (missed : Nat)
  | empty
  deriving DecidableEq, Repr

namespace Channel

variable {α : Type}

/-- A channel that keeps a number of values, rounded up to a power of two. -/
def ofCapacity (capacity : Nat) : Channel α where
  capacity := capacity.nextPowerOfTwo
  sent := 0
  kept := []
  length_kept := by simp

/-- Adds a value; the oldest one makes room. -/
def send (c : Channel α) (a : α) : Channel α where
  capacity := c.capacity
  sent := c.sent + 1
  kept := (c.kept ++ [a]).drop (c.kept.length + 1 - c.capacity)
  length_kept := by
    have := c.length_kept
    simp only [List.length_drop, List.length_append, List.length_cons, List.length_nil]
    omega

/-- The position of a receiver that subscribes now. -/
def subscribe (c : Channel α) : Nat := c.sent

/-- The position of the oldest value kept. -/
def oldest (c : Channel α) : Nat := c.sent - c.kept.length

/-- What a receiver at a position reads, and its next position. -/
def receive (c : Channel α) (position : Nat) : Reading α × Nat :=
  if position < c.oldest then (.lagged (c.oldest - position), c.oldest)
  else match c.kept[position - c.oldest]? with
    | some a => (.value a, position + 1)
    | none => (.empty, position)

/-- Everything that a receiver at a position reads until nothing is left, with at most the given
number of readings. -/
def drainUpTo (c : Channel α) : Nat → Nat → List (Reading α) × Nat
  | 0, position => ([], position)
  | n + 1, position => match c.receive position with
    | (.empty, _) => ([], position)
    | (reading, next) =>
      let (rest, last) := c.drainUpTo n next
      (reading :: rest, last)

/-- Everything that a receiver at a position reads until nothing is left: one notice of missed
values at most, and the values kept. -/
def drain (c : Channel α) (position : Nat) : List (Reading α) × Nat :=
  c.drainUpTo (c.kept.length + 1) position

end Channel

end Deeds
