import Deeds.Deed

/-!
# Verification

The conditions of a deed are checked in order, and the first one that fails ends the check. A
condition on a balance waits for an answer of the store; a condition on the target's type does not.

* `Check` : a check under way, or finished with a verdict;
* `Check.begin` : the check of some conditions, as far as it gets without the store;
* `Check.supply` : goes on with the balance that the check waits for.
-/

namespace Deeds

/-- The conditions after a check, and whether all of them were met. -/
structure Verdict where
  conditions : List Condition
  isMet : Bool
  deriving DecidableEq, Repr

/-- A check of conditions. -/
inductive Check where
  /-- Some conditions are met; the next one waits for a balance. -/
  | awaiting (met : List Condition) (next : Condition) (resource : Resource) (rest : List Condition)
  | finished (verdict : Verdict)
  deriving DecidableEq, Repr

namespace Check

/-- Goes on as far as no balance is needed. -/
def proceed (target : Target) (met : List Condition) : List Condition → Check
  | [] => .finished ⟨met, true⟩
  | c :: rest => match c.requirement with
    | .atLeast resource _ => .awaiting met c resource rest
    | .targetType _ =>
      let c := c.record (.typeName target.typeName)
      if c.isMet then proceed target (met ++ [c]) rest else .finished ⟨met ++ c :: rest, false⟩

/-- The check of unmarked conditions against a target. -/
def begin (target : Target) (conditions : List Condition) : Check := proceed target [] conditions

/-- The balance that the check waits for. -/
def awaits : Check → Option Resource
  | .awaiting _ _ resource _ => some resource
  | .finished _ => none

/-- How many balances the check can still ask for. -/
def remaining : Check → Nat
  | .awaiting _ _ _ rest => rest.length + 1
  | .finished _ => 0

/-- The verdict of a finished check. -/
def verdict? : Check → Option Verdict
  | .awaiting .. => none
  | .finished verdict => some verdict

/-- Goes on with the balance that the check waits for. -/
def supply (target : Target) (amount : Int64) : Check → Check
  | .awaiting met next _ rest =>
    let c := next.record (.amount amount)
    if c.isMet then proceed target (met ++ [c]) rest else .finished ⟨met ++ c :: rest, false⟩
  | .finished verdict => .finished verdict

/-- Supplies at most `n` balances, all from a store that does not change. -/
def supplyFrom (target : Target) (balance : Resource → Int64) : Nat → Check → Check
  | 0, check => check
  | n + 1, check => match check.awaits with
    | some resource => supplyFrom target balance n (check.supply target (balance resource))
    | none => check

end Check

/-- The check of conditions against a target and a store that does not change. Each condition takes
at most one balance, so it is finished. -/
def verify (target : Target) (balance : Resource → Int64) (conditions : List Condition) : Check :=
  Check.supplyFrom target balance conditions.length (.begin target conditions)

end Deeds
