import Deeds.Identity
import Deeds.Text.Pieces

/-!
# Scripts

A script lists actions to be invoked, separated by commas. An action is written `Name@LocationType`,
or as its name alone.

* `PlannedAction.parse` : one entry;
* `PlannedAction.parseScript` : all entries that can be read, in order;
* `PlannedAction.target` : where the action takes place.
-/

namespace Deeds

/-- An action to be invoked. -/
structure PlannedAction where
  name : String
  locationType : String
  deriving DecidableEq, Repr

namespace PlannedAction

/-- The type of location when an entry names none. -/
def defaultLocationType : String := "Square"

/-- An entry with these two parts; neither may be blank. -/
def ofParts (name locationType : List Char) : Option PlannedAction :=
  if name.isEmpty || locationType.isEmpty then none
  else some ⟨String.ofList name, String.ofList locationType⟩

/-- The entry that a piece of a script writes. -/
def ofPiece (piece : List Char) : Option PlannedAction :=
  match Text.breakAt? '@' piece with
  | some (name, locationType) => ofParts (Text.trimChars name) (Text.trimChars locationType)
  | none => ofParts (Text.trimChars piece) defaultLocationType.toList

/-- The action that an entry writes. -/
def parse (entry : String) : Option PlannedAction := ofPiece entry.toList

/-- The actions of a script; pieces that write none are skipped. -/
def parseScript (script : String) : List PlannedAction :=
  (Text.pieces ',' script.toList).filterMap ofPiece

/-- The place of the action that stands at a position of a script. Numbers of places begin at one
and end at the greatest of 32 bits. -/
def target (p : PlannedAction) (index : Nat) : Target :=
  .location ⟨min (index + 1) (UInt32.size - 1)⟩ p.locationType

end PlannedAction

end Deeds
