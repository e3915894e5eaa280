import Deeds.Binary32.Basic

/-!
# Arithmetic and order of binary floating-point numbers

* `neg`, `abs`, `add`, `sub`, `mul`, `div` : the exact result, rounded once to nearest, ties to
  even; an operation without a result is not-a-number;
* `le`, `lt`, `eq` : the order of the values; nothing compares with not-a-number;
* `max` : the larger operand, or the other one beside not-a-number.
-/

namespace Deeds.Binary32

/-- The same size with the other sign. -/
def neg : Binary32 → Binary32
  | .nan => .nan
  | .infinity s => .infinity (!s)
  | .finite s n => .finite (!s) n

/-- The same size without a sign. -/
def abs : Binary32 → Binary32
  | .nan => .nan
  | .infinity _ => .infinity false
  | .finite _ n => .finite false n

/-- The rounded sum. An exact sum of zero is negative only when both operands are. -/
def add : Binary32 → Binary32 → Binary32
  | .nan, _ => .nan
  | _, .nan => .nan
  | .infinity s, .infinity t => if s = t then .infinity s else .nan
  | .infinity s, .finite .. => .infinity s
  | .finite .., .infinity t => .infinity t
  | .finite s m, .finite t n =>
    let total := signedUnits s m + signedUnits t n
    if total = 0 then .finite (s && t) .zero
    else ofUnits (total < 0) total.natAbs 1

/-- The rounded difference. -/
def sub (x y : Binary32) : Binary32 := add x (neg y)

/-- The rounded product. -/
def mul : Binary32 → Binary32 → Binary32
  | .nan, _ => .nan
  | _, .nan => .nan
  | .infinity s, .infinity t => .infinity (s != t)
  | .infinity s, .finite t n => if n.units = 0 then .nan else .infinity (s != t)
  | .finite s m, .infinity t => if m.units = 0 then .nan else .infinity (s != t)
  | .finite s m, .finite t n => ofUnits (s != t) (m.units * n.units) (1 <<< 149)

/-- The rounded quotient. -/
def div : Binary32 → Binary32 → Binary32
  | .nan, _ => .nan
  | _, .nan => .nan
  | .infinity _, .infinity _ => .nan
  | .infinity s, .finite t _ => .infinity (s != t)
  | .finite s _, .infinity t => .finite (s != t) .zero
  | .finite s m, .finite t n =>
    if n.units = 0 then (if m.units = 0 then .nan else .infinity (s != t))
    else ofUnits (s != t) (m.units <<< 149) n.units

/-- The order of values: negative infinity first, positive infinity last. -/
def le : Binary32 → Binary32 → Bool
  | .nan, _ => false
  | _, .nan => false
  | .infinity s, .infinity t => s || !t
  | .infinity s, .finite .. => s
  | .finite .., .infinity t => !t
  | .finite s m, .finite t n => signedUnits s m ≤ signedUnits t n

/-- Strictly smaller: comparable, and not the other way round. -/
def lt (x y : Binary32) : Bool := le x y && !le y x

/-- Equal as values: the two zeros are, not-a-number is equal to nothing. -/
def eq (x y : Binary32) : Bool := le x y && le y x

/-- The larger operand; beside not-a-number the other one. -/
def max : Binary32 → Binary32 → Binary32
  | .nan, y => y
  | x, .nan => x
  | x, y => if lt y x then x else y

end Deeds.Binary32
