import Deeds.Channel
import Deeds.Event

/-!
# The event bus

One channel for each topic. A receiver belongs to one topic and reads what is published on it after
it subscribed.
-/

namespace Deeds

/-- The channels of both topics. -/
structure Bus where
  action : Channel Event
  tracker : Channel Event

/-- A place to read on one topic. -/
structure Receiver where
  topic : Topic
  position : Nat
  deriving DecidableEq, Repr

namespace Bus

/-- How many events a topic keeps unless told otherwise. -/
def defaultCapacity : Nat := 100

/-- Two channels of the same capacity. -/
def ofCapacity (capacity : Nat) : Bus := ⟨.ofCapacity capacity, .ofCapacity capacity⟩

/-- The channel of a topic. -/
def channel (b : Bus) : Topic → Channel Event
  | .action => b.action
  | .tracker => b.tracker

/-- Sends an event on its topic. -/
def publish (b : Bus) (e : Event) : Bus :=
  match e.topic with
  | .action => { b with action := b.action.send e }
  | .tracker => { b with tracker := b.tracker.send e }

/-- A receiver of what is published from now on. -/
def subscribe (b : Bus) (topic : Topic) : Receiver := ⟨topic, (b.channel topic).subscribe⟩

/-- What a receiver reads next. -/
def receive (b : Bus) (r : Receiver) : Reading Event × Receiver :=
  let (reading, position) := (b.channel r.topic).receive r.position
  (reading, { r with position })

/-- Everything that a receiver can read. -/
def drain (b : Bus) (r : Receiver) : List (Reading Event) × Receiver :=
  let (readings, position) := (b.channel r.topic).drain r.position
  (readings, { r with position })

end Bus

end Deeds
