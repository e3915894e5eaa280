import Deeds.Effect
import Deeds.Line.Error
import Deeds.Line.Token
import Deeds.Tag
import Deeds.Text.Integer

/-!
# Reading lines

A line is a name, an operator that may be left out, and the operands of the name.

* `readCondition` : a balance takes `>=`, `=` or `==` and an amount, a target type `=` or `==` and a
  word;
* `readEffect` : every effect takes `=` or `==`; then an amount, or a stat, an amount, and for the
  kinds of chance a percentage;
* `readTag` : a name alone.

All three go from left to right and stop at the first token at fault.
-/

namespace Deeds.Line

/-- Operators of conditions on a balance. -/
def orderOperators : List String := [">=", "=", "=="]

/-- Operators of all other lines. -/
def equalityOperators : List String := ["=", "=="]

/-- What the first token names. -/
def Token.resolve {α : Type} (category : Category) (lookup : String → Option α) :
    Token → Except LineError α
  | .word t => match lookup t with
    | some a => .ok a
    | none => .error (.unknownName category t)
  | .operator t => .error (.unknownName category t)

/-- Drops an operator in front, if one stands there and is allowed. -/
def skipOperator (name : String) (allowed : List String) :
    List Token → Except LineError (List Token)
  | .operator o :: rest =>
    if allowed.contains o then .ok rest else .error (.unsupportedOperator name o)
  | ts => .ok ts

/-- Takes a word in front. -/
def takeWord (name : String) (operand : Operand) :
    List Token → Except LineError (String × List Token)
  | .word w :: rest => .ok (w, rest)
  | .operator o :: _ => .error (.unexpectedToken name o)
  | [] => .error (.missingOperand name operand)

/-- Takes a number in front, of the integers that `read` accepts. -/
def takeNumber {α : Type} (name : String) (operand : Operand) (read : String → Option α)
    (ts : List Token) : Except LineError (α × List Token) := do
  let (w, rest) ← takeWord name operand ts
  match read w with
  | some v => .ok (v, rest)
  | none => .error (.invalidNumber name operand w)

/-- Takes an amount of the given width, which must not be negative. -/
def takeAmount (name : String) (bits : Nat) (ts : List Token) :
    Except LineError (Int × List Token) := do
  let (v, rest) ← takeNumber name .amount (Text.signed? bits) ts
  if v < 0 then .error (.outOfRange name .amount v) else .ok (v, rest)

/-- Takes a percentage. -/
def takeChance (name : String) (ts : List Token) : Except LineError (Nat × List Token) := do
  let (v, rest) ← takeNumber name .chance (Text.unsigned? 8) ts
  if 100 < v then .error (.outOfRange name .chance v) else .ok (v, rest)

/-- Takes the name of a stat. -/
def takeStat (name : String) (ts : List Token) : Except LineError (Stat × List Token) := do
  let (w, rest) ← takeWord name .statName ts
  match Stat.ofName? w with
  | some s => .ok (s, rest)
  | none => .error (.unknownStat w)

/-- Nothing may be left. -/
def finish (name : String) : List Token → Except LineError Unit
  | [] => .ok ()
  | t :: _ => .error (.unexpectedToken name t.text)

/-- The requirement that the tokens after a name spell. -/
def readRequirement (name : String) (ts : List Token) :
    ConditionKind → Except LineError (Requirement × List Token)
  | .balance r => do
    let ts ← skipOperator name orderOperators ts
    let (v, ts) ← takeNumber name .amount (Text.signed? 64) ts
    .ok (.atLeast r (Int64.ofInt v), ts)
  | .targetType => do
    let ts ← skipOperator name equalityOperators ts
    let (w, ts) ← takeWord name .typeName ts
    .ok (.targetType w, ts)

/-- The effect that the tokens after a name and its operator spell. -/
def readChange (name : String) (ts : List Token) :
    EffectKind → Except LineError (Effect × List Token)
  | .resource d r => do
    let (v, ts) ← takeAmount name 64 ts
    .ok (.resource d r (Int64.ofInt v), ts)
  | .stat d byChance => do
    let (s, ts) ← takeStat name ts
    let (v, ts) ← takeAmount name 32 ts
    if byChance then
      let (p, ts) ← takeChance name ts
      .ok (.stat d s (Int32.ofInt v) (some p), ts)
    else .ok (.stat d s (Int32.ofInt v) none, ts)

/-- The condition that a list of tokens spells. -/
def conditionOfTokens : List Token → Except LineError Condition
  | [] => .error .empty
  | t :: ts => do
    let kind ← t.resolve .condition ConditionKind.ofName?
    let (r, ts) ← readRequirement t.text ts kind
    finish t.text ts
    .ok (.ofRequirement r)

/-- The effect that a list of tokens spells. -/
def effectOfTokens : List Token → Except LineError Effect
  | [] => .error .empty
  | t :: ts => do
    let kind ← t.resolve .effect EffectKind.ofName?
    let ts ← skipOperator t.text equalityOperators ts
    let (e, ts) ← readChange t.text ts kind
    finish t.text ts
    .ok e

/-- The tag that a list of tokens spells. -/
def tagOfTokens : List Token → Except LineError Tag
  | [] => .error .empty
  | t :: ts => do
    let tag ← t.resolve .actionType Tag.ofName?
    finish t.text ts
    .ok tag

/-- Reads a condition. -/
def readCondition (line : String) : Except LineError Condition :=
  conditionOfTokens (tokenize line)

/-- Reads an effect or a cost. -/
def readEffect (line : String) : Except LineError Effect := effectOfTokens (tokenize line)

/-- Reads a tag. -/
def readTag (line : String) : Except LineError Tag := tagOfTokens (tokenize line)

end Deeds.Line
