import Deeds.Toml.Scalar

/-!
# Texts, keys and values of configurations

* `basicText`, `literalText` and their forms over several lines: quoted texts;
* `key` : a key of one or more parts;
* `Node` : what a key stands for; `Entries.define` : gives a key a value;
* `value` : reads a value.
-/

namespace Deeds.Toml

/-! ## Texts -/

/-- May stand in a text or a comment. -/
def isTextChar (c : Char) : Bool := c = '\t' || (' ' ≤ c && c != '\x7f')

/-- The character that an escape names, and what follows; the backslash is already read. -/
def escape? : List Char → Option (Char × List Char)
  | 'b' :: cs => some ('\x08', cs)
  | 't' :: cs => some ('\t', cs)
  | 'n' :: cs => some ('\n', cs)
  | 'f' :: cs => some ('\x0c', cs)
  | 'r' :: cs => some ('\r', cs)
  | '"' :: cs => some ('"', cs)
  | '\\' :: cs => some ('\\', cs)
  | 'u' :: cs => codePoint? 4 cs
  | 'U' :: cs => codePoint? 8 cs
  | _ => none
where
  /-- A code point of exactly so many digits. -/
  codePoint? (count : Nat) (cs : List Char) : Option (Char × List Char) := do
    let digits := cs.take count
    let n ← if digits.length = count then Text.hexValue? digits else none
    let c ← Text.charOf? n
    some (c, cs.drop count)

/-- A text and what follows. -/
abbrev Scan (α : Type) := Option (α × List Char)

/-- A character in front of a text. -/
def Scan.cons (c : Char) (r : Scan (List Char)) : Scan (List Char) :=
  r.map fun (content, rest) => (c :: content, rest)

/-- A text on one line up to its quote; at most the given number of characters. -/
def basicText : Nat → List Char → Scan (List Char)
  | 0, _ => none
  | _, [] => none
  | _, '"' :: cs => some ([], cs)
  | n + 1, '\\' :: cs => (escape? cs).bind fun (c, rest) => Scan.cons c (basicText n rest)
  | n + 1, c :: cs => if isTextChar c then Scan.cons c (basicText n cs) else none

/-- A text on one line in which nothing is escaped. -/
def literalText : List Char → Scan (List Char)
  | [] => none
  | '\'' :: cs => some ([], cs)
  | c :: cs => if isTextChar c then Scan.cons c (literalText cs) else none

/-- A blank within a line. -/
def isBlank (c : Char) : Bool := c = ' ' || c = '\t'

/-- Drops blanks and ends of lines. -/
def dropLines : List Char → List Char
  | '\r' :: '\n' :: cs => dropLines cs
  | c :: cs => if isBlank c || c = '\n' then dropLines cs else c :: cs
  | [] => []

/-- What follows an escaped end of line: all blanks and ends of lines after it are dropped. -/
def afterEscapedEnd? (cs : List Char) : Option (List Char) :=
  match cs.dropWhile isBlank with
  | '\n' :: rest => some (dropLines rest)
  | '\r' :: '\n' :: rest => some (dropLines rest)
  | _ => none

/-- The end of a text over several lines. Up to two quotes may stand before the three that end it.
-/
def closing? (quote : Char) (cs : List Char) : Scan (List Char) :=
  let quotes := (cs.takeWhile (· = quote)).length
  if 3 ≤ quotes && quotes ≤ 5 then some (List.replicate (quotes - 3) quote, cs.drop quotes)
  else none

/-- A text over several lines up to its three quotes; at most the given number of characters. -/
def longText (quote : Char) (escapes : Bool) : Nat → List Char → Scan (List Char)
  | 0, _ => none
  | _, [] => none
  | n + 1, '\r' :: '\n' :: cs => Scan.cons '\r' (Scan.cons '\n' (longText quote escapes n cs))
  | n + 1, c :: cs =>
    if c = quote then
      if 3 ≤ ((c :: cs).takeWhile (· = quote)).length then closing? quote (c :: cs)
      else Scan.cons c (longText quote escapes n cs)
    else if c = '\\' && escapes then
      match afterEscapedEnd? cs with
      | some rest => longText quote escapes n rest
      | none => (escape? cs).bind fun (c, rest) => Scan.cons c (longText quote escapes n rest)
    else if isTextChar c || c = '\n' then Scan.cons c (longText quote escapes n cs)
    else none

/-- Drops an end of line in front. -/
def dropEnd : List Char → List Char
  | '\n' :: cs => cs
  | '\r' :: '\n' :: cs => cs
  | cs => cs

/-! ## Keys -/

/-- A character of an unquoted key. -/
def isKeyChar (c : Char) : Bool := c.isAlphanum || c = '_' || c = '-'

/-- One part of a key. -/
def keyPart : List Char → Scan String
  | '"' :: cs => (basicText (cs.length + 1) cs).map fun (s, rest) => (String.ofList s, rest)
  | '\'' :: cs => (literalText cs).map fun (s, rest) => (String.ofList s, rest)
  | cs =>
    let part := cs.takeWhile isKeyChar
    if part.isEmpty then none else some (String.ofList part, cs.dropWhile isKeyChar)

/-- A key: parts with points between them; at most the given number of parts. -/
def key : Nat → List Char → Scan (List String)
  | 0, _ => none
  | n + 1, cs => match keyPart (cs.dropWhile isBlank) with
    | none => none
    | some (part, rest) => match rest.dropWhile isBlank with
      | '.' :: rest => (key n rest).map fun (parts, rest) => (part :: parts, rest)
      | rest => some ([part], rest)

/-! ## What keys stand for -/

/-- A value. A configuration uses integers; of the others only the kind is kept. -/
inductive Value where
  | integer (i : Int)
  | text
  | boolean
  | decimal
  | moment
  | array
  | table
  deriving DecidableEq, Repr

/-- How a table came about. -/
inductive Form where
  /-- It has a heading of its own. -/
  | headed
  /-- It stands in front of a point in a heading. -/
  | implied
  /-- It stands in front of a point in a key. -/
  | dotted
  deriving DecidableEq, Repr

/-- What a key stands for. Of a list of tables only the last one can still grow. -/
inductive Node where
  | value (v : Value)
  | table (form : Form) (entries : List (String × Node))
  | tables (last : List (String × Node))

/-- The keys of a table and what they stand for. -/
abbrev Entries := List (String × Node)

namespace Entries

/-- What a key stands for. -/
def get? (es : Entries) (k : String) : Option Node := List.lookup k es

/-- Lets a key stand for something. -/
def put (es : Entries) (k : String) (n : Node) : Entries := (k, n) :: es.filter (·.1 != k)

/-- Gives a key of several parts a value. The parts before the last name tables that only keys have
made, and the last part must be new. -/
def define (v : Value) : List String → Entries → Option Entries
  | [], _ => none
  | [k], es => match es.get? k with
    | none => some (es.put k (.value v))
    | some _ => none
  | k :: ks, es => match es.get? k with
    | none => (define v ks []).map fun sub => es.put k (.table .dotted sub)
    | some (.table .dotted sub) => (define v ks sub).map fun sub => es.put k (.table .dotted sub)
    | some (.table .implied sub) =>
      if ks.length = 1 then none
      else (define v ks sub).map fun sub => es.put k (.table .implied sub)
    | some (.tables sub) =>
      if ks.length = 1 then none else (define v ks sub).map fun sub => es.put k (.tables sub)
    | some _ => none

end Entries

/-! ## Values -/

/-- Drops blanks, ends of lines and comments; `none` when a comment holds what it may not. -/
def skipLines (inComment : Bool) : List Char → Option (List Char)
  | [] => some []
  | '\r' :: '\n' :: cs => skipLines false cs
  | '\n' :: cs => skipLines false cs
  | c :: cs =>
    if inComment then (if isTextChar c then skipLines true cs else none)
    else if c = '#' then skipLines true cs
    else if isBlank c then skipLines false cs
    else some (c :: cs)

/-- The items of an array up to its bracket; at most the given number. -/
def arrayItems (item : List Char → Scan Value) : Nat → List Char → Option (List Char)
  | 0, _ => none
  | n + 1, cs => match skipLines false cs with
    | none => none
    | some (']' :: rest) => some rest
    | some cs => match item cs with
      | none => none
      | some (_, rest) => match skipLines false rest with
        | some (',' :: rest) => arrayItems item n rest
        | some (']' :: rest) => some rest
        | _ => none

/-- A key, an equals sign and a value. -/
def keyValue (item : List Char → Scan Value) (cs : List Char) :
    Option ((List String × Value) × List Char) := do
  let (k, rest) ← key (cs.length + 1) cs
  let rest ← expect? '=' rest
  let (v, rest) ← item (rest.dropWhile isBlank)
  some ((k, v), rest)

/-- The keys of a table on one line up to its brace; at most the given number. -/
def tableItems (item : List Char → Scan Value) :
    Nat → Entries → List Char → Option (List Char)
  | 0, _, _ => none
  | n + 1, es, cs => do
    let ((k, v), rest) ← keyValue item cs
    let es ← es.define v k
    match rest.dropWhile isBlank with
    | ',' :: rest => tableItems item n es rest
    | '\x7d' :: rest => some rest
    | _ => none

/-- A character of an unquoted value. -/
def isScalarChar (c : Char) : Bool :=
  c.isAlphanum || c = '_' || c = '+' || c = '-' || c = '.' || c = ':'

/-- The characters of an unquoted value. A blank may part a date from a time. -/
def scalarRun (cs : List Char) : List Char × List Char :=
  let first := cs.takeWhile isScalarChar
  match cs.dropWhile isScalarChar with
  | ' ' :: c :: rest =>
    if c.isDigit && (afterDate? first) = some [] then
      (first ++ ' ' :: (c :: rest).takeWhile isScalarChar, (c :: rest).dropWhile isScalarChar)
    else (first, ' ' :: c :: rest)
  | rest => (first, rest)

/-- The value of an unquoted run of characters. -/
def scalar? (cs : List Char) : Option Value :=
  match integer? cs with
  | some i => if isInRange i then some (.integer i) else none
  | none =>
    if cs = "true".toList || cs = "false".toList then some .boolean
    else if isDecimal cs then some .decimal
    else if isMoment cs then some .moment
    else none

/-- How deep brackets and braces may be nested. -/
def nestingLimit : Nat := 80

/-- Reads a value without parts. -/
def plainValue : List Char → Scan Value
  | '"' :: '"' :: '"' :: rest =>
    (longText '"' true (rest.length + 1) (dropEnd rest)).map fun (_, rest) => (.text, rest)
  | '"' :: rest => (basicText (rest.length + 1) rest).map fun (_, rest) => (.text, rest)
  | '\'' :: '\'' :: '\'' :: rest =>
    (longText '\'' false (rest.length + 1) (dropEnd rest)).map fun (_, rest) => (.text, rest)
  | '\'' :: rest => (literalText rest).map fun (_, rest) => (.text, rest)
  | cs =>
    let (written, rest) := scalarRun cs
    (scalar? written).map fun v => (v, rest)

/-- Reads a value, nested at most so deep. -/
def value : Nat → List Char → Scan Value
  | 0, cs => plainValue cs
  | n + 1, cs => match cs with
    | '[' :: rest => (arrayItems (value n) (rest.length + 1) rest).map fun rest => (.array, rest)
    | '\x7b' :: rest => match rest.dropWhile isBlank with
      | '\x7d' :: rest => some (.table, rest)
      | _ => (tableItems (value n) (rest.length + 1) [] rest).map fun rest => (.table, rest)
    | cs => plainValue cs

end Deeds.Toml
