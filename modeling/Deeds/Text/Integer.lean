/-!
# Reading integers of a bounded range

* `digits?` : the value of a non-empty run of ASCII digits;
* `unsigned?` : a number below a bound, with an optional plus sign;
* `signed?` : a number of a two's complement width, with an optional sign.
-/

namespace Deeds.Text

/-- The number written by a run of decimal digits. -/
def decimalValue (cs : List Char) : Nat := cs.foldl (fun n c => 10 * n + (c.toNat - 48)) 0

/-- The value of a non-empty run of ASCII digits. -/
def digits? (cs : List Char) : Option Nat :=
  if cs.isEmpty || !cs.all Char.isDigit then none else some (decimalValue cs)

/-- A number below `2 ^ bits`: digits after an optional plus sign. -/
def unsigned? (bits : Nat) (s : String) : Option Nat :=
  let magnitude := match s.toList with
    | '+' :: cs => digits? cs
    | cs => digits? cs
  magnitude.filter (· < 1 <<< bits)

/-- A number of two's complement width `bits`: digits after an optional sign. -/
def signed? (bits : Nat) (s : String) : Option Int :=
  let value : Option Int := match s.toList with
    | '+' :: cs => (digits? cs).map Int.ofNat
    | '-' :: cs => (digits? cs).map fun n => -Int.ofNat n
    | cs => (digits? cs).map Int.ofNat
  let bound := Int.ofNat (1 <<< (bits - 1))
  value.filter fun v => -bound ≤ v && v < bound

end Deeds.Text
