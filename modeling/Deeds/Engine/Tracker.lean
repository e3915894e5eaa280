import Deeds.Deed

/-!
# The tracker

The deeds that progress with the hours, in the order in which they were registered: those that
complete once, and those that repeat. Hours are taken only while a deed is tracked.

* `Tracker.register`, `Tracker.remove`, `Tracker.update` : the only ways to change it;
* `Tracker.deeds` : all tracked deeds, in the order in which an hour visits them.
-/

namespace Deeds

/-- The tracked deeds, and whether hours are taken. -/
structure Tracker where
  indicator : List Deed
  repeatable : List Deed
  subscribed : Bool
  deriving DecidableEq

namespace Tracker

/-- No deeds and no hours. -/
def empty : Tracker := ⟨[], [], false⟩

/-- All tracked deeds: those that complete once come first. -/
def deeds (t : Tracker) : List Deed := t.indicator ++ t.repeatable

/-- The numbers of the tracked deeds, in the order in which an hour visits them. -/
def order (t : Tracker) : List DeedId := t.deeds.map Deed.id

/-- Nothing is tracked. -/
def isEmpty (t : Tracker) : Bool := t.indicator.isEmpty && t.repeatable.isEmpty

/-- The tracked deed of a number. -/
def find? (t : Tracker) (id : DeedId) : Option Deed := t.deeds.find? (·.id = id)

/-- Adds a deed to the list of its mode; an immediate deed is never tracked. -/
def register (t : Tracker) (d : Deed) : Tracker :=
  match d.mode with
  | .immediate => t
  | .indicator => { t with indicator := t.indicator ++ [d] }
  | .repeatable => { t with repeatable := t.repeatable ++ [d] }

/-- Drops a deed. -/
def remove (t : Tracker) (id : DeedId) : Tracker :=
  { t with
    indicator := t.indicator.filter (·.id != id)
    repeatable := t.repeatable.filter (·.id != id) }

/-- Puts a deed in the place of the one with its number. -/
def update (t : Tracker) (d : Deed) : Tracker :=
  let replace (old : Deed) : Deed := if old.id = d.id then d else old
  { t with indicator := t.indicator.map replace, repeatable := t.repeatable.map replace }

end Tracker

end Deeds
