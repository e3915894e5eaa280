import Deeds.Binary32.Basic
import Deeds.Effect
import Deeds.Identity

/-!
# The cast

The characters who can act: the protagonist and the members of the organization, their progression
rates, the choices that are queued for organization actions, and the changes of their stats.
-/

namespace Deeds

/-- The answer to a question for a member: one was chosen, or none. -/
inductive Selection where
  | chosen (member : CharacterId)
  | cancelled
  deriving DecidableEq, Repr

/-- The actor that a selection yields. -/
def Selection.actor? : Selection → Option CharacterId
  | .chosen member => some member
  | .cancelled => none

/-- The characters of a game. -/
structure Cast where
  protagonist : Option CharacterId := none
  /-- In the order in which they joined. -/
  members : List CharacterId := []
  /-- The latest entry of a character is the first one. -/
  rates : List (CharacterId × Binary32) := []
  /-- Answers for the next questions. -/
  selections : List Selection := []
  /-- The latest sum of a stat is the first one. -/
  stats : List ((CharacterId × Stat) × Int) := []
  deriving DecidableEq

namespace Cast

/-- No characters. -/
def empty : Cast := {}

/-- A character progresses at a rate. -/
def setRate (c : Cast) (actor : CharacterId) (rate : Binary32) : Cast :=
  { c with rates := (actor, rate) :: c.rates.filter (·.1 != actor) }

/-- A character has no rate. -/
def withoutRate (c : Cast) (actor : CharacterId) : Cast :=
  { c with rates := c.rates.filter (·.1 != actor) }

/-- The player's character and its rate. -/
def withProtagonist (c : Cast) (actor : CharacterId) (rate : Binary32) : Cast :=
  { c.setRate actor rate with protagonist := some actor }

/-- A further member and its rate. -/
def withMember (c : Cast) (actor : CharacterId) (rate : Binary32) : Cast :=
  { c.setRate actor rate with members := c.members ++ [actor] }

/-- Queues an answer. -/
def queue (c : Cast) (s : Selection) : Cast := { c with selections := c.selections ++ [s] }

/-- Takes the next queued answer, or chooses the first member. -/
def select (c : Cast) : Selection × Cast :=
  match c.selections with
  | s :: rest => (s, { c with selections := rest })
  | [] => ((c.members.head?.map Selection.chosen).getD .cancelled, c)

/-- The progression rate of a character. -/
def rate (c : Cast) (actor : CharacterId) : Option Binary32 := c.rates.lookup actor

/-- The sum of all changes of a stat. -/
def stat (c : Cast) (actor : CharacterId) (s : Stat) : Int := (c.stats.lookup (actor, s)).getD 0

/-- Adds a change to a stat. -/
def adjustStat (c : Cast) (actor : CharacterId) (s : Stat) (delta : Int) : Cast :=
  { c with
    stats := ((actor, s), c.stat actor s + delta) :: c.stats.filter (·.1 != (actor, s)) }

end Cast

end Deeds
