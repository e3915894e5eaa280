import Deeds.Severity

/-!
# Errors of lines

Why a line of a definition could not be read. Each error names the first token at fault, or what is
missing at the end.
-/

namespace Deeds.Line

/-- What a line is read as. -/
inductive Category where
  | condition
  | effect
  | actionType
  deriving DecidableEq, Repr

/-- How a category is called. -/
def Category.text : Category → String
  | .condition => "condition"
  | .effect => "effect"
  | .actionType => "action type"

/-- What can follow the name on a line. -/
inductive Operand where
  | amount
  | typeName
  | statName
  | chance
  deriving DecidableEq, Repr

namespace Operand

/-- How an operand is called. -/
def text : Operand → String
  | .amount => "amount"
  | .typeName => "type name"
  | .statName => "stat name"
  | .chance => "chance"

/-- The values that an operand may have. -/
def range : Operand → String
  | .chance => "0..=100"
  | _ => "must not be negative"

end Operand

/-- What is wrong with a line. -/
inductive LineError where
  /-- No token at all. -/
  | empty
  /-- The first token names nothing of the category. -/
  | unknownName (category : Category) (token : String)
  /-- The line ends before an operand. -/
  | missingOperand (name : String) (operand : Operand)
  /-- An operand is no number of its range of integers. -/
  | invalidNumber (name : String) (operand : Operand) (token : String)
  /-- An operator that cannot follow this name. -/
  | unsupportedOperator (name : String) (operator : String)
  /-- A token where none, or another kind, is expected. -/
  | unexpectedToken (name : String) (token : String)
  /-- A number outside the values that the operand may have. -/
  | outOfRange (name : String) (operand : Operand) (value : Int)
  /-- An operand that names no stat. -/
  | unknownStat (token : String)
  deriving DecidableEq, Repr

namespace LineError

/-- The message of an error. -/
def message : LineError → String
  | .empty => "empty definition"
  | .unknownName category token => s!"unknown {category.text} `{token}`"
  | .missingOperand name operand => s!"`{name}` is missing its {operand.text}"
  | .invalidNumber name operand token =>
    s!"`{name}` expects a number for its {operand.text}, found `{token}`"
  | .unsupportedOperator name operator => s!"`{name}` does not support operator `{operator}`"
  | .unexpectedToken name token => s!"`{name}` has unexpected trailing token `{token}`"
  | .outOfRange name operand value =>
    s!"`{name}` {operand.text} {value} is out of range ({operand.range})"
  | .unknownStat token => s!"unknown character stat `{token}`"

/-- The code of an error. -/
def code : LineError → String
  | .empty => "DEFINITION_EMPTY"
  | .unknownName .. => "DEFINITION_UNKNOWN_NAME"
  | .missingOperand .. => "DEFINITION_MISSING_OPERAND"
  | .invalidNumber .. => "DEFINITION_INVALID_NUMBER"
  | .unsupportedOperator .. => "DEFINITION_UNSUPPORTED_OPERATOR"
  | .unexpectedToken .. => "DEFINITION_UNEXPECTED_TOKEN"
  | .outOfRange .. => "DEFINITION_OUT_OF_RANGE"
  | .unknownStat _ => "DEFINITION_UNKNOWN_STAT"

end LineError

instance : Diagnostic LineError where
  message := LineError.message
  code := LineError.code
  severity _ := .validation

end Deeds.Line
