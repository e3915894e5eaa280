/-!
# Severity of errors

Every error type of the library says three things about its values: a message for people, a stable
code, and a severity.
-/

namespace Deeds

/-- How an error should be met. -/
inductive Severity where
  /-- The same request may succeed later. -/
  | recoverable
  /-- The input is wrong and stays wrong. -/
  | validation
  /-- A state that should not arise. -/
  | internal
  /-- The engine cannot go on. -/
  | fatal
  deriving DecidableEq, Repr

namespace Severity

/-- The name of a severity. -/
def name : Severity → String
  | .recoverable => "recoverable"
  | .validation => "validation"
  | .internal => "internal"
  | .fatal => "fatal"

/-- A retry may help. -/
def isRecoverable (s : Severity) : Bool := s = .recoverable

/-- The fault lies inside the engine. -/
def isInternal (s : Severity) : Bool := s = .internal || s = .fatal

end Severity

/-- Errors with a message, a stable code and a severity. -/
class Diagnostic (ε : Type) where
  message : ε → String
  code : ε → String
  severity : ε → Severity

end Deeds
