import Deeds.Severity
import Deeds.Tag

/-!
# Sets of compatible tags

* `TagSet.push` : a tag joins the set unless it is in already or conflicts with an earlier one;
* `TagSet.ofList` : the set of all given tags, or the first conflict;
* `TagSet.executionMode`, `TagSet.actorMode` : what the tags select.
-/

namespace Deeds

/-- A tag that cannot stand beside an earlier one. -/
structure TagError where
  existing : Tag
  candidate : Tag
  deriving DecidableEq, Repr

instance : Diagnostic TagError where
  message e := s!"type `{e.candidate.name}` is incompatible with `{e.existing.name}`"
  code _ := "TAG_INCOMPATIBLE"
  severity _ := .validation

/-- Tags in the order in which they joined. -/
structure TagSet where
  toList : List Tag
  deriving DecidableEq, Repr

namespace TagSet

/-- No tags. -/
def empty : TagSet := ⟨[]⟩

instance : EmptyCollection TagSet := ⟨empty⟩

/-- A tag is in the set. -/
def contains (s : TagSet) (t : Tag) : Bool := s.toList.contains t

/-- How many tags there are. -/
def size (s : TagSet) : Nat := s.toList.length

/-- No tag has joined. -/
def isEmpty (s : TagSet) : Bool := s.toList.isEmpty

/-- Adds a tag and says whether it is new; the earliest conflict refuses it. -/
def push (s : TagSet) (t : Tag) : Except TagError (TagSet × Bool) :=
  if s.contains t then .ok (s, false)
  else match s.toList.find? (·.conflicts t) with
    | some existing => .error ⟨existing, t⟩
    | none => .ok (⟨s.toList ++ [t]⟩, true)

/-- Adds a tag if it may join, and leaves the set as it is otherwise. -/
def offer (s : TagSet) (t : Tag) : TagSet :=
  match s.push t with
  | .ok (s', _) => s'
  | .error _ => s

/-- The set of the given tags, or the first conflict among them. -/
def ofList (ts : List Tag) : Except TagError TagSet :=
  ts.foldlM (fun s t => (·.1) <$> s.push t) empty

/-- The execution mode, if a tag selects one. -/
def executionMode (s : TagSet) : Option ExecutionMode := s.toList.findSome? Tag.executionMode

/-- The actor mode; without a tag for it the player's character acts. -/
def actorMode (s : TagSet) : ActorMode := (s.toList.findSome? Tag.actorMode).getD .personal

/-- The action is against the law. -/
def isIllegal (s : TagSet) : Bool := s.contains .illegal

end TagSet

end Deeds
