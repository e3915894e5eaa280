import Deeds.Binary32.Decimal
import Deeds.Ron.Token

/-!
# Numbers of the object notation

A number is kept as it is written, since what it stands for depends on what is asked for.

* `integer?` : an optional sign, a base, digits with underscores, and a type suffix;
* `binary32?` : a decimal with underscores, infinity or not-a-number;
* `isNumber` : whether a number means anything at all.
-/

namespace Deeds.Ron

open Text (hexDigit?)

/-- An integer as it is written. -/
structure WrittenInteger where
  negative : Bool
  isDecimal : Bool
  magnitude : Nat
  suffix : String
  deriving DecidableEq, Repr

/-- The base that the digits are written in, and the digits. -/
def baseOf : List Char → Nat × List Char
  | '0' :: 'b' :: cs => (2, cs)
  | '0' :: 'o' :: cs => (8, cs)
  | '0' :: 'x' :: cs => (16, cs)
  | cs => (10, cs)

/-- A character of the digits of an integer. -/
def isIntegerChar (c : Char) : Bool := (hexDigit? c).isSome || c = '_'

/-- The number that digits write in a base; underscores count nothing. -/
def digitsIn? (base : Nat) (cs : List Char) : Option Nat :=
  (cs.filter (· != '_')).foldlM (fun n c => do
    let d ← hexDigit? c
    if d < base then some (base * n + d) else none) 0

/-- The sign in front, and what follows. -/
def signOf : List Char → Bool × List Char
  | '+' :: cs => (false, cs)
  | '-' :: cs => (true, cs)
  | cs => (false, cs)

/-- The integer that a number writes. -/
def integer? (written : String) : Option WrittenInteger := do
  let (negative, cs) := signOf written.toList
  let (base, cs) := baseOf cs
  let digits := cs.takeWhile isIntegerChar
  let suffix := cs.dropWhile isIntegerChar
  if digits.isEmpty || digits.head? = some '_' then none
  else if !suffix.isEmpty && (base = 8 || base = 16) then none
  else
    let magnitude ← digitsIn? base digits
    some ⟨negative, base = 10, magnitude, String.ofList suffix⟩

/-- A number below `2 ^ 32`. Minus zero is zero. -/
def natural32? (written : String) : Option UInt32 := do
  let i ← integer? written
  if (i.suffix = "" || i.suffix = "u32") && (!i.negative || i.magnitude = 0)
      && i.magnitude < UInt32.size then
    some (UInt32.ofNat i.magnitude)
  else none

/-- The integer fits the type of its suffix; without one, 64 bits. -/
def WrittenInteger.fits (i : WrittenInteger) : Bool :=
  let unsigned (bits : Nat) : Bool := i.magnitude < 1 <<< bits && (!i.negative || i.magnitude = 0)
  let signed (bits : Nat) : Bool :=
    if i.negative then i.magnitude ≤ 1 <<< (bits - 1) else i.magnitude < 1 <<< (bits - 1)
  match i.suffix with
  | "" => unsigned 64 || signed 64
  | "u8" => unsigned 8
  | "u16" => unsigned 16
  | "u32" => unsigned 32
  | "u64" => unsigned 64
  | "i8" => signed 8
  | "i16" => signed 16
  | "i32" => signed 32
  | "i64" => signed 64
  | _ => false

/-- A character of the digits of a decimal. -/
def isDecimalChar (c : Char) : Bool :=
  c.isDigit || c = 'e' || c = 'E' || c = '.' || c = '+' || c = '-' || c = '_'

/-- The decimal without its underscores, which may stand only behind a digit or the exponent's
letter. -/
def withoutUnderscores (allowed : Bool) : List Char → Option (List Char)
  | [] => some []
  | '_' :: cs => if allowed then withoutUnderscores allowed cs else none
  | c :: cs =>
    let allowed := c.isDigit || c = 'e' || c = 'E' || (c != '.' && allowed)
    (withoutUnderscores allowed cs).map (c :: ·)

/-- The value of a decimal, infinity or not-a-number, and its type suffix. -/
def decimal? (written : String) : Option (Binary32 × String) := do
  let (negative, unsigned) := signOf written.toList
  let name := String.ofList (unsigned.take 3)
  if name = "inf" then some (.infinity negative, String.ofList (unsigned.drop 3))
  else if name = "NaN" then some (.nan, String.ofList (unsigned.drop 3))
  else
    let digits ← withoutUnderscores false (written.toList.takeWhile isDecimalChar)
    let value ← Binary32.ofText? (String.ofList digits)
    some (value, String.ofList (written.toList.dropWhile isDecimalChar))

/-- A value of 32 bits. -/
def binary32? (written : String) : Option Binary32 := do
  let (value, suffix) ← decimal? written
  if suffix = "" || suffix = "f32" then some value else none

/-- The number means something. A decimal integer that is too large counts as a decimal. -/
def isNumber (written : String) : Bool :=
  (integer? written).any WrittenInteger.fits
    || (decimal? written).any fun (_, suffix) => suffix = "" || suffix = "f32" || suffix = "f64"

end Deeds.Ron
