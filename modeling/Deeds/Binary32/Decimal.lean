import Deeds.Binary32.Basic
import Deeds.Text.Integer

/-!
# Decimal text of binary floating-point numbers

* `shortest` : the fewest digits that lie nearer to a size than to its neighbours, and of those the
  nearest; an exact tie goes up;
* `Binary32.toText` : the shortest digits in positional notation, without a fraction for whole
  values;
* `Binary32.toTenths` : one digit after the point, a half going to the even digit;
* `Binary32.ofText?` : reads digits with an optional sign, point and exponent, and the names of
  infinity and not-a-number.

Texts of values are positional: no exponent is ever written.
-/

namespace Deeds.Binary32

/-! ## Shortest digits -/

/-- Sizes are compared with decimals on the scale `10 ^ -places`. -/
def places : Nat := 60

/-- Four times the bounds of the numbers that round to a size, in units. Just above a power of two
the lower neighbour is half as far away as the upper one. -/
def rounding (size : Magnitude) : Nat × Nat :=
  let shift := Magnitude.shift size.units
  let gap := 1 <<< shift
  let below := if size.units >>> shift = 1 <<< 23 ∧ 0 < shift then gap else 2 * gap
  (4 * size.units - below, 4 * size.units + 2 * gap)

/-- The decimal `scaled * 10 ^ -places` rounds to the size. The bounds themselves do so when the
significand is even. -/
def roundsTo (size : Magnitude) (scaled : Nat) : Bool :=
  let (low, high) := rounding size
  let x := (4 * scaled) <<< 149
  let scale := powerOfTen places
  if size.units >>> Magnitude.shift size.units % 2 = 0 then low * scale ≤ x && x ≤ high * scale
  else low * scale < x && x < high * scale

/-- How many decimal digits a number has. -/
def digitCount (n : Nat) : Nat := (Nat.toDigits 10 n).length

/-- The nearest decimal with at most `digits` significant digits that rounds to the size, scaled by
`10 ^ places`. -/
def nearestDecimal? (size : Magnitude) (digits : Nat) : Option Nat :=
  let value := size.units * powerOfTen places
  let grid := powerOfTen (digitCount (value >>> 149) - digits)
  let low := value / (grid <<< 149) * grid
  let high := low + grid
  match roundsTo size low, roundsTo size high with
  | true, true => some (if value - low <<< 149 < high <<< 149 - value then low else high)
  | true, false => some low
  | false, true => some high
  | false, false => none

/-- The shortest decimal that rounds to a size, scaled by `10 ^ places`. Nine digits always do. -/
def shortest (size : Magnitude) : Nat :=
  ((List.range' 1 9).findSome? (nearestDecimal? size)).getD 0

/-! ## Positional notation -/

/-- The digits after the point: as many as the scale has, less the zeros at the end. -/
def fractionDigits (scale n : Nat) : List Char :=
  let digits := Nat.toDigits 10 n
  let padded := List.replicate (scale - digits.length) '0' ++ digits
  (padded.reverse.dropWhile (· = '0')).reverse

/-- Positional notation of `n * 10 ^ -scale`, without a point when nothing follows it. -/
def positional (scale n : Nat) : String :=
  let whole := toString (n / powerOfTen scale)
  match fractionDigits scale (n % powerOfTen scale) with
  | [] => whole
  | digits => whole ++ "." ++ String.ofList digits

/-- The sign in front of a text. -/
def signText (negative : Bool) : String := if negative then "-" else ""

/-- The shortest text that reads back as the value. -/
def toText : Binary32 → String
  | .nan => "NaN"
  | .infinity negative => signText negative ++ "inf"
  | .finite negative size => signText negative ++ positional places (shortest size)

/-- The value to one place after the point. -/
def toTenths : Binary32 → String
  | .nan => "NaN"
  | .infinity negative => signText negative ++ "inf"
  | .finite negative size =>
    let tenths := roundHalfEven (10 * size.units) (1 <<< 149)
    signText negative ++ s!"{tenths / 10}.{tenths % 10}"

/-! ## Reading -/

/-- The value of an exponent: digits after an optional sign. -/
def exponent? : List Char → Option Int
  | '+' :: cs => (Text.digits? cs).map Int.ofNat
  | '-' :: cs => (Text.digits? cs).map fun n => -Int.ofNat n
  | cs => (Text.digits? cs).map Int.ofNat

/-- A size with a sign: digits, of which a point may stand before, among or behind, and an optional
exponent. -/
def unsignedDecimal? (negative : Bool) (cs : List Char) : Option Binary32 :=
  let whole := cs.takeWhile Char.isDigit
  let rest := cs.dropWhile Char.isDigit
  let (fraction, rest) := match rest with
    | '.' :: rest => (rest.takeWhile Char.isDigit, rest.dropWhile Char.isDigit)
    | rest => ([], rest)
  let digits := whole ++ fraction
  let exponent := match rest with
    | [] => some 0
    | c :: rest => if c = 'e' || c = 'E' then exponent? rest else none
  if digits.isEmpty then none
  else exponent.map fun e => ofDecimal negative (Text.decimalValue digits) (e - fraction.length)

/-- A value without its sign: a decimal, or a name in any case. -/
def unsigned? (negative : Bool) (cs : List Char) : Option Binary32 :=
  let name := String.ofList (cs.map Char.toLower)
  if name = "inf" || name = "infinity" then some (.infinity negative)
  else if name = "nan" then some .nan
  else unsignedDecimal? negative cs

/-- The value that a text spells. -/
def ofText? (s : String) : Option Binary32 :=
  match s.toList with
  | '+' :: cs => unsigned? false cs
  | '-' :: cs => unsigned? true cs
  | cs => unsigned? false cs

end Deeds.Binary32
