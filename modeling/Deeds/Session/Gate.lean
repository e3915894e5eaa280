import Deeds.Identity

/-!
# Gates

A gate lets one question through for each permit. Those that find no permit wait in the order in
which they came; a gate without a count of permits is open.
-/

namespace Deeds

/-- A gate and the deeds whose questions wait at it. -/
structure Gate where
  permits : Option Nat
  queue : List DeedId
  deriving DecidableEq, Repr

namespace Gate

/-- A gate with so many permits at first; without a number it is open. -/
def ofPermits (permits : Option Nat) : Gate := ⟨permits, []⟩

/-- Takes a permit and passes, or joins the queue. -/
def enter (g : Gate) (deed : DeedId) : Gate × Bool :=
  match g.permits with
  | none => (g, true)
  | some 0 => ({ g with queue := g.queue ++ [deed] }, false)
  | some (n + 1) => ({ g with permits := some n }, true)

/-- Leaves the queue. -/
def leave (g : Gate) (deed : DeedId) : Gate := { g with queue := g.queue.filter (· != deed) }

/-- Adds a permit; the first in the queue takes it. -/
def release (g : Gate) : Gate × Option DeedId :=
  match g.queue with
  | deed :: rest => ({ g with queue := rest }, some deed)
  | [] => ({ g with permits := g.permits.map (· + 1) }, none)

end Gate

end Deeds
