import Deeds.Text.Blank

/-!
# Conditions

A requirement is a least balance of a resource or a type name of the target. A condition is a
requirement together with the result of its last check.
-/

namespace Deeds

/-- What the player owns. -/
inductive Resource where
  | money
  | influence
  deriving DecidableEq, Repr

namespace Resource

/-- Both resources. -/
def all : List Resource := [.money, .influence]

/-- The name of a resource. -/
def name : Resource → String
  | .money => "money"
  | .influence => "influence"

/-- The resource of a name, whatever its case. -/
def ofName? (s : String) : Option Resource := all.find? fun r => Text.sameName s r.name

end Resource

/-- What kind of thing a condition looks at. -/
inductive ConditionKind where
  | balance (resource : Resource)
  | targetType
  deriving DecidableEq, Repr

namespace ConditionKind

/-- All kinds. -/
def all : List ConditionKind := [.balance .money, .balance .influence, .targetType]

/-- The name of a kind. -/
def name : ConditionKind → String
  | .balance .money => "PlayerHasMoneyValue"
  | .balance .influence => "PlayerHasInfluenceValue"
  | .targetType => "TargetLocationType"

/-- The kind of a name, whatever its case. -/
def ofName? (s : String) : Option ConditionKind := all.find? fun k => Text.sameName s k.name

end ConditionKind

/-- What must hold before a deed runs. -/
inductive Requirement where
  /-- The player owns at least this much. -/
  | atLeast (resource : Resource) (amount : Int64)
  /-- The target has exactly this type name. -/
  | targetType (name : String)
  deriving DecidableEq, Repr

/-- What a check saw. -/
inductive Observation where
  | amount (value : Int64)
  | typeName (name : String)
  deriving DecidableEq, Repr

namespace Requirement

/-- The kind of a requirement. -/
def kind : Requirement → ConditionKind
  | .atLeast r _ => .balance r
  | .targetType _ => .targetType

/-- The observation meets the requirement. An observation of another kind meets none. -/
def isSatisfiedBy : Requirement → Observation → Bool
  | .atLeast _ required, .amount actual => required ≤ actual
  | .targetType expected, .typeName actual => expected == actual
  | _, _ => false

end Requirement

/-- A requirement and whether its last check was met. -/
structure Condition where
  requirement : Requirement
  isMet : Bool
  deriving DecidableEq, Repr

namespace Condition

/-- An unchecked condition. -/
def ofRequirement (r : Requirement) : Condition := ⟨r, false⟩

/-- The kind of the requirement. -/
def kind (c : Condition) : ConditionKind := c.requirement.kind

/-- Keeps the result of a check. -/
def record (c : Condition) (o : Observation) : Condition :=
  { c with isMet := c.requirement.isSatisfiedBy o }

/-- Forgets the result of the last check. -/
def reset (c : Condition) : Condition := { c with isMet := false }

end Condition

end Deeds
