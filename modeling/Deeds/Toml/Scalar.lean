import Deeds.Text.Hexadecimal

/-!
# Numbers, dates and truth values of configurations

What stands unquoted on the right of a key: an integer, a decimal, a date or time, or a truth value.

* `grouped?` : digits with single underscores between them;
* `integer?`, `isDecimal`, `isMoment` : the three kinds of unquoted text that begin with a digit or
  a sign.
-/

namespace Deeds.Toml

/-- Digits without the underscores between them; there must be a digit on either side of each. -/
def grouped? (p : Char → Bool) : List Char → Option (List Char)
  | [] => none
  | [c] => if p c then some [c] else none
  | c :: '_' :: cs => if p c then (grouped? p cs).map (c :: ·) else none
  | c :: cs => if p c then (grouped? p cs).map (c :: ·) else none

/-- Decimal digits without a leading zero. -/
def decimalDigits? (cs : List Char) : Option (List Char) :=
  match grouped? Char.isDigit cs with
  | some ('0' :: _ :: _) => none
  | ds => ds

/-- The number that digits write in a base. -/
def inBase? (base : Nat) (cs : List Char) : Option Nat :=
  let isDigit (c : Char) : Bool := (Text.hexDigit? c).any (· < base)
  (grouped? isDigit cs).map fun ds =>
    ds.foldl (fun n c => base * n + (Text.hexDigit? c).getD 0) 0

/-- The sign in front, and what follows. -/
def signOf : List Char → Bool × List Char
  | '+' :: cs => (false, cs)
  | '-' :: cs => (true, cs)
  | cs => (false, cs)

/-- The integers that a configuration may hold. -/
def isInRange (i : Int) : Bool := -Int.ofNat (1 <<< 127) ≤ i && i < Int.ofNat (1 <<< 128)

/-- An integer: decimal with an optional sign, or with the mark of its base. -/
def integer? : List Char → Option Int
  | '0' :: 'x' :: cs => (inBase? 16 cs).map Int.ofNat
  | '0' :: 'o' :: cs => (inBase? 8 cs).map Int.ofNat
  | '0' :: 'b' :: cs => (inBase? 2 cs).map Int.ofNat
  | cs =>
    let (negative, cs) := signOf cs
    ((decimalDigits? cs).bind (inBase? 10)).map fun n => if negative then -Int.ofNat n else n

/-- An exponent behind its letter: digits with an optional sign. -/
def isExponent (cs : List Char) : Bool := (grouped? Char.isDigit (signOf cs).2).isSome

/-- A decimal: a fraction or an exponent follows the digits; or infinity, or not-a-number. -/
def isDecimal (cs : List Char) : Bool :=
  let cs := (signOf cs).2
  let isLetterE (c : Char) : Bool := c = 'e' || c = 'E'
  let mantissa := cs.takeWhile (!isLetterE ·)
  let exponent := cs.dropWhile (!isLetterE ·)
  let whole := mantissa.takeWhile (· != '.')
  let fraction := mantissa.dropWhile (· != '.')
  let hasFraction := (grouped? Char.isDigit (fraction.drop 1)).isSome
  let hasExponent := isExponent (exponent.drop 1)
  cs = "inf".toList || cs = "nan".toList
    || ((decimalDigits? whole).isSome && (!fraction.isEmpty || !exponent.isEmpty)
      && (fraction.isEmpty || hasFraction) && (exponent.isEmpty || hasExponent))

/-! ## Dates and times -/

/-- A number of exactly so many digits, and what follows. -/
def fixedDigits? (count : Nat) (cs : List Char) : Option (Nat × List Char) :=
  let ds := cs.take count
  if ds.length = count && ds.all Char.isDigit then
    some (ds.foldl (fun n c => 10 * n + (c.toNat - 48)) 0, cs.drop count)
  else none

/-- The days of a month. -/
def daysIn (year month : Nat) : Nat :=
  if month = 2 then
    (if year % 4 = 0 && (year % 100 != 0 || year % 400 = 0) then 29 else 28)
  else if [4, 6, 9, 11].contains month then 30
  else 31

/-- What follows an expected character. -/
def expect? (c : Char) : List Char → Option (List Char)
  | d :: cs => if c = d then some cs else none
  | [] => none

/-- What follows a date. -/
def afterDate? (cs : List Char) : Option (List Char) := do
  let (year, cs) ← fixedDigits? 4 cs
  let cs ← expect? '-' cs
  let (month, cs) ← fixedDigits? 2 cs
  let cs ← expect? '-' cs
  let (day, cs) ← fixedDigits? 2 cs
  if 1 ≤ month && month ≤ 12 && 1 ≤ day && day ≤ daysIn year month then some cs else none

/-- What follows a time of the day. -/
def afterTime? (cs : List Char) : Option (List Char) := do
  let (hour, cs) ← fixedDigits? 2 cs
  let cs ← expect? ':' cs
  let (minute, cs) ← fixedDigits? 2 cs
  let cs ← expect? ':' cs
  let (second, cs) ← fixedDigits? 2 cs
  if hour ≤ 23 && minute ≤ 59 && second ≤ 60 then
    match cs with
    | '.' :: rest =>
      if (rest.takeWhile Char.isDigit).isEmpty then none else some (rest.dropWhile Char.isDigit)
    | cs => some cs
  else none

/-- An offset from universal time, or none. -/
def isOffset : List Char → Bool
  | [] => true
  | ['Z'] => true
  | ['z'] => true
  | c :: cs =>
    (c = '+' || c = '-') && ((do
      let (hour, cs) ← fixedDigits? 2 cs
      let cs ← expect? ':' cs
      let (minute, cs) ← fixedDigits? 2 cs
      some (hour ≤ 23 && minute ≤ 59 && cs.isEmpty)) = some true)

/-- A date, a time, or both; only both may have an offset. -/
def isMoment (cs : List Char) : Bool :=
  match afterDate? cs with
  | some [] => true
  | some (c :: rest) =>
    (c = 'T' || c = 't' || c = ' ') && (afterTime? rest).any isOffset
  | none => afterTime? cs = some []

end Deeds.Toml
