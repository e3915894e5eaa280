import Deeds.Text.Blank
import Deeds.Text.Identifier

/-!
# Environment variables and files that set them

* `Environment` : variables with their values;
* `Environment.load` : adds the variables of a file that are not yet set;
* `Environment.logicalLines` : the lines of a file; one whose quotes are open goes on in the next;
* `Environment.readValue` : the value that a line gives, with quotes, escapes and references to
  other variables.

A file is used up to the first line that cannot be read.
-/

namespace Deeds

/-- Variables with their values. -/
abbrev Environment := List (String × String)

namespace Environment

/-- The value of a variable. -/
def get? (e : Environment) (name : String) : Option String := List.lookup name e

/-! ## Lines -/

/-- Where in a line the reader is. -/
inductive Reading where
  | plain
  | escape
  | strongQuote
  | strongQuoteEscape
  | weakQuote
  | weakQuoteEscape
  | blank
  deriving DecidableEq, Repr

namespace Reading

/-- After a character that is neither quoted nor escaped. -/
def afterOpen (c : Char) : Reading :=
  if c = '\\' then .escape
  else if c = '"' then .weakQuote
  else if c = '\'' then .strongQuote
  else .plain

/-- After a further character. -/
def next (c : Char) : Reading → Reading
  | .plain => if Text.isBlank c && c != '\n' && c != '\r' then .blank else afterOpen c
  | .blank => afterOpen c
  | .escape => .plain
  | .weakQuote => if c = '\\' then .weakQuoteEscape else if c = '"' then .plain else .weakQuote
  | .weakQuoteEscape => .weakQuote
  | .strongQuote =>
    if c = '\\' then .strongQuoteEscape else if c = '\'' then .plain else .strongQuote
  | .strongQuoteEscape => .strongQuote

end Reading

/-- The state after a physical line and the part of it before a comment, which begins with a hash
behind a blank; `none` is the state in a comment. -/
def scanLine : Reading → List Char → Option Reading × List Char
  | r, [] => (some r, [])
  | r, c :: cs =>
    if r = .blank && c = '#' then (none, [])
    else
      let (last, before) := scanLine (r.next c) cs
      (last, c :: before)

/-- The byte that ends a line. -/
def lineEnd : UInt8 := 10

/-- The physical lines of a file, each with its end. -/
def byteLines : List UInt8 → List (List UInt8)
  | [] => []
  | b :: bs =>
    if b = lineEnd then [b] :: byteLines bs
    else match byteLines bs with
      | line :: rest => (b :: line) :: rest
      | [] => [[b]]

/-- The characters of a physical line, unless its bytes are no text. -/
def decodeLine (line : List UInt8) : Option (List Char) :=
  (String.fromUTF8? (ByteArray.mk line.toArray)).map String.toList

/-- A line without its end. -/
def withoutEnd (line : List Char) : List Char :=
  match line.reverse with
  | '\n' :: '\r' :: rest => rest.reverse
  | '\n' :: rest => rest.reverse
  | _ => line

/-- The first thing in a line is a hash. -/
def isComment (line : List Char) : Bool := (line.dropWhile Text.isBlank).head? = some '#'

/-- The logical lines of physical ones; the last is `none` when it is not ended, or no text. The
part of a line that was already read, and the state after it, come first. -/
def logicalLines (start : List Char) (r : Reading) :
    List (Option (List Char)) → List (Option (List Char))
  | [] => if r = .plain then [] else [none]
  | none :: _ => [none]
  | some line :: rest =>
    let all := start ++ line
    if isComment all then some [] :: logicalLines [] .plain rest
    else match scanLine r line with
      | (none, before) => some (start ++ before) :: logicalLines [] .plain rest
      | (some .plain, _) => some (withoutEnd all) :: logicalLines [] .plain rest
      | (some r, _) => logicalLines all r rest

/-! ## Values -/

/-- Whether a reference to a variable is being read. -/
inductive Reference where
  | none
  /-- After a dollar sign. -/
  | bare
  /-- In braces. -/
  | braced
  deriving DecidableEq, Repr

/-- The part of a value that is read. -/
structure ValueState where
  output : List Char := []
  strongQuote : Bool := false
  weakQuote : Bool := false
  escaped : Bool := false
  /-- A blank ended the value; only a comment may follow. -/
  ended : Bool := false
  reference : Reference := .none
  name : List Char := []

namespace ValueState

/-- A further character of the value. -/
def push (s : ValueState) (c : Char) : ValueState := { s with output := s.output ++ [c] }

/-- Puts the variable that was referred to into the value. -/
def resolve (lookup : String → Option String) (s : ValueState) : ValueState :=
  { s with
    output := s.output ++ ((lookup (String.ofList s.name)).getD "").toList
    name := []
    reference := .none }

/-- A letter or a digit. -/
def isNameChar (c : Char) : Bool :=
  c.isAlphanum || (128 ≤ c.toNat && Text.isIdentifierPart c)

/-- What an escape stands for. -/
def escape? (c : Char) : Option Char :=
  if c = '\\' || c = '\'' || c = '"' || c = '$' || c = ' ' then some c
  else if c = 'n' then some '\n'
  else none

/-- Reads a character of a reference. -/
def stepReference (lookup : String → Option String) (s : ValueState) (c : Char) : ValueState :=
  if isNameChar c then { s with name := s.name ++ [c] }
  else match s.reference with
    | .braced => if c = '\x7d' then s.resolve lookup else { s with name := s.name ++ [c] }
    | _ =>
      if c = '\x7b' && s.name.isEmpty then { s with reference := .braced }
      else
        let s := s.resolve lookup
        if c = '$' then { s with reference := .bare } else s.push c

/-- Reads a character outside of escapes, strong quotes and references. -/
def stepPlain (s : ValueState) (c : Char) : ValueState :=
  if c = '$' then { s with reference := .bare }
  else if s.weakQuote then
    if c = '"' then { s with weakQuote := false }
    else if c = '\\' then { s with escaped := true }
    else s.push c
  else if c = '\'' then { s with strongQuote := true }
  else if c = '"' then { s with weakQuote := true }
  else if c = '\\' then { s with escaped := true }
  else if c = ' ' || c = '\t' then { s with ended := true }
  else s.push c

/-- Reads the characters of a value. -/
def readAll (lookup : String → Option String) (s : ValueState) : List Char → Option ValueState
  | [] => some s
  | c :: cs =>
    if s.ended then
      if c = ' ' || c = '\t' then readAll lookup s cs
      else if c = '#' then some s
      else none
    else if s.escaped then match escape? c with
      | some d => readAll lookup { s.push d with escaped := false } cs
      | none => none
    else if s.strongQuote then
      readAll lookup (if c = '\'' then { s with strongQuote := false } else s.push c) cs
    else if s.reference != .none then readAll lookup (s.stepReference lookup c) cs
    else readAll lookup (s.stepPlain c) cs

end ValueState

/-- The value that some text gives; quotes and braces must be closed. -/
def readValue (lookup : String → Option String) (cs : List Char) : Option String := do
  let s ← ValueState.readAll lookup {} cs
  if s.reference = .braced || s.strongQuote || s.weakQuote then none
  else some (String.ofList (s.resolve lookup).output)

/-! ## Assignments -/

/-- A name in front, and what follows it and the blanks behind it. -/
def readName (cs : List Char) : Option (List Char × List Char) :=
  let isPart (c : Char) : Bool := c.isAlphanum || c = '_' || c = '.'
  match cs with
  | [] => none
  | c :: _ =>
    if c.isAlpha || c = '_' then
      some (cs.takeWhile isPart, (cs.dropWhile isPart).dropWhile Text.isBlank)
    else none

/-- The name and what follows the equals sign; the word `export` may stand before the name. -/
def readAssignment (cs : List Char) : Option (List Char × List Char) :=
  match readName cs with
  | none => none
  | some (name, '=' :: rest) => some (name, rest)
  | some (name, rest) =>
    if name = "export".toList then match readName rest with
      | some (name, '=' :: rest) => some (name, rest)
      | _ => none
    else none

/-- What the variables of a file are: those that count, and all values that the file gave. -/
structure Loading where
  counting : Environment
  given : Environment

/-- The value of a variable that a line refers to: the one that counts, or the one last given. -/
def Loading.lookup (l : Loading) (name : String) : Option String :=
  (l.counting.get? name).or (l.given.get? name)

/-- Gives a variable a value, unless it has one. -/
def Loading.assign (l : Loading) (name value : String) : Loading where
  counting := if (l.counting.get? name).isSome then l.counting else l.counting ++ [(name, value)]
  given := (name, value) :: l.given

/-- Takes a line of a file; `none` when it cannot be read. -/
def Loading.takeLine (l : Loading) (line : List Char) : Option Loading :=
  let cs := (line.reverse.dropWhile Text.isBlank).reverse.dropWhile Text.isBlank
  if cs.isEmpty || cs.head? = some '#' then some l
  else do
    let (name, rest) ← readAssignment cs
    let rest := rest.dropWhile Text.isBlank
    let value ← if rest.isEmpty || rest.head? = some '#' then some "" else readValue l.lookup rest
    some (l.assign (String.ofList name) value)

/-- Takes lines up to the first one that cannot be read. -/
def Loading.takeLines (l : Loading) : List (Option (List Char)) → Loading
  | some line :: rest => match l.takeLine line with
    | some l => l.takeLines rest
    | none => l
  | _ => l

/-- The lines without the mark of the byte order, which may stand in front of the first. -/
def withoutMark : List (Option (List Char)) → List (Option (List Char))
  | some ('\ufeff' :: cs) :: rest => if cs.isEmpty then rest else some cs :: rest
  | lines => lines

/-- The variables with those of a file that are not yet set. -/
def load (e : Environment) (file : ByteArray) : Environment :=
  let lines := withoutMark ((byteLines file.toList).map decodeLine)
  (Loading.takeLines ⟨e, []⟩ (logicalLines [] .plain lines)).counting

/-- What stands behind the dollar signs of a text, up to where a name could end. -/
def namesBehindDollars : List Char → List String
  | [] => []
  | '$' :: '\x7b' :: cs => String.ofList (cs.takeWhile (· != '\x7d')) :: namesBehindDollars cs
  | '$' :: cs => String.ofList (cs.takeWhile ValueState.isNameChar) :: namesBehindDollars cs
  | _ :: cs => namesBehindDollars cs

/-- The variables that the values of a file could refer to. -/
def referredNames (file : ByteArray) : List String :=
  (byteLines file.toList).flatMap fun line => namesBehindDollars ((decodeLine line).getD [])

end Environment

end Deeds
