import Deeds.Binary32.Decimal
import Deeds.Definition
import Deeds.Line.Error
import Deeds.TagSet

/-!
# Errors of definitions

A fault is one thing that is wrong with a definition; a load error is a fault with the name of its
action. Loading reports all of them.
-/

namespace Deeds

/-- What is wrong with a definition. -/
inductive Fault where
  /-- The name has no characters but blanks. -/
  | emptyName
  /-- An earlier valid definition has the same name. -/
  | duplicateName
  /-- A line that cannot be read. -/
  | malformed (field : Definition.Field) (index : Nat) (line : String) (cause : Line.LineError)
  /-- A tag that cannot stand beside an earlier one. -/
  | incompatible (cause : TagError)
  /-- No tag says how the action runs. -/
  | undefinedMode
  /-- A tracked action whose indicator is not positive. -/
  | invalidProgression (mode : ExecutionMode) (indicator : Binary32)
  deriving DecidableEq

namespace Fault

/-- The message of a fault. -/
def message : Fault → String
  | .emptyName => "action name is empty"
  | .duplicateName => "duplicate action name"
  | .malformed field index line cause => s!"{field.name}[{index}] `{line}`: {cause.message}"
  | .incompatible cause => Diagnostic.message cause
  | .undefinedMode => "no execution mode (Immediate, Indicator or Repeatable) defined"
  | .invalidProgression mode indicator =>
    s!"{mode.name} actions need a positive progress indicator, found {indicator.toText}"

/-- The code of a fault. -/
def code : Fault → String
  | .emptyName => "LOAD_EMPTY_NAME"
  | .duplicateName => "LOAD_DUPLICATE_NAME"
  | .malformed .. => "LOAD_MALFORMED_DEFINITION"
  | .incompatible _ => "LOAD_INCOMPATIBLE_TAGS"
  | .undefinedMode => "LOAD_UNDEFINED_EXECUTION_MODE"
  | .invalidProgression .. => "LOAD_INVALID_PROGRESSION"

end Fault

/-- A fault of a named action. -/
structure LoadError where
  action : String
  fault : Fault
  deriving DecidableEq

/-- The message of a load error. -/
def LoadError.message (e : LoadError) : String := s!"action `{e.action}`: {e.fault.message}"

instance : Diagnostic LoadError where
  message := LoadError.message
  code e := e.fault.code
  severity _ := .validation

/-- All errors of a list of definitions, in order. -/
structure LoadErrors where
  toList : List LoadError
  deriving DecidableEq

namespace LoadErrors

/-- How many errors there are. -/
def size (es : LoadErrors) : Nat := es.toList.length

/-- There is no error. -/
def isEmpty (es : LoadErrors) : Bool := es.toList.isEmpty

/-- The errors of one action. -/
def forAction (es : LoadErrors) (action : String) : List LoadError :=
  es.toList.filter (·.action == action)

/-- A heading, and a line for each error. -/
def message (es : LoadErrors) : String :=
  es.toList.foldl (fun text e => text ++ "\n  - " ++ e.message)
    s!"{es.size} action definition error(s)"

end LoadErrors

end Deeds
