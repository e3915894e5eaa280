import Deeds.Text.Hexadecimal
import Deeds.Text.Identifier

/-!
# Tokens of the object notation

Values are written with words, numbers, quoted texts and brackets; blanks and comments may stand
between any two tokens.

* `skipGap` : drops blanks and comments; block comments nest;
* `quoted`, `rawQuoted` : the content of a text;
* `tokenize` : the tokens of a document.
-/

namespace Deeds.Ron

open Text (hexValue? charOf?)

/-- The marks that stand alone. -/
inductive Mark where
  | openParen
  | closeParen
  | openBracket
  | closeBracket
  | openBrace
  | closeBrace
  | colon
  | comma
  | hash
  | bang
  deriving DecidableEq, Repr

/-- A piece of a document. -/
inductive Token where
  | mark (m : Mark)
  | word (name : String)
  /-- A number as it is written. -/
  | number (written : String)
  | text (content : String)
  /-- A character or a row of bytes. -/
  | literal
  deriving DecidableEq, Repr

/-! ## Between tokens -/

/-- The characters with the Unicode property Pattern_White_Space. -/
def isBlank (c : Char) : Bool :=
  [' ', '\t', '\n', '\r', '\x0b', '\x0c', '\u0085', '\u200e', '\u200f', '\u2028',
    '\u2029'].contains c

/-- Where between two tokens the reader is. -/
inductive Gap where
  | outside
  | lineComment
  /-- Inside so many further block comments. -/
  | blockComment (outer : Nat)

/-- Drops blanks and comments in front; `none` when a block comment is not closed. -/
def skipGap : Gap → List Char → Option (List Char)
  | .outside, '/' :: '/' :: cs => skipGap .lineComment cs
  | .outside, '/' :: '*' :: cs => skipGap (.blockComment 0) cs
  | .outside, c :: cs => if isBlank c then skipGap .outside cs else some (c :: cs)
  | .outside, [] => some []
  | .lineComment, '\n' :: cs => skipGap .outside cs
  | .lineComment, _ :: cs => skipGap .lineComment cs
  | .lineComment, [] => some []
  | .blockComment n, '/' :: '*' :: cs => skipGap (.blockComment (n + 1)) cs
  | .blockComment 0, '*' :: '/' :: cs => skipGap .outside cs
  | .blockComment (n + 1), '*' :: '/' :: cs => skipGap (.blockComment n) cs
  | .blockComment n, _ :: cs => skipGap (.blockComment n) cs
  | .blockComment _, [] => none

theorem skipGap_blank {c : Char} {cs : List Char} (h : isBlank c) :
    skipGap .outside (c :: cs) = skipGap .outside cs := by
  have hc : c ≠ '/' := by rintro rfl; cases h
  rw [skipGap, if_pos h]
  · exact fun _ h => absurd h hc
  · exact fun _ h => absurd h hc

/-! ## Quoted texts -/

/-- How many bytes the character has whose encoding begins with a byte. -/
def encodedLength (first : Nat) : Nat :=
  if first < 0x80 then 1 else if first < 0xe0 then 2 else if first < 0xf0 then 3 else 4

/-- So many escaped bytes, and what follows. The backslash and the letter of the first one are
already read. -/
def escapedBytes : Nat → List Char → Option (List UInt8 × List Char)
  | 0, cs => some ([], cs)
  | 1, a :: b :: cs => (hexValue? [a, b]).map fun n => ([UInt8.ofNat n], cs)
  | n + 2, a :: b :: '\\' :: 'x' :: cs => do
    let first ← hexValue? [a, b]
    let (bytes, rest) ← escapedBytes (n + 1) cs
    some (UInt8.ofNat first :: bytes, rest)
  | _, _ => none

/-- A character written by the escaped bytes of its encoding, and what follows. -/
def escapedChar? (cs : List Char) : Option (Char × List Char) := do
  let first ← hexValue? (cs.take 2)
  let (bytes, rest) ← escapedBytes (encodedLength first) cs
  match (String.fromUTF8? (ByteArray.mk bytes.toArray)).map String.toList with
  | some [c] => some (c, rest)
  | _ => none

/-- The character of a code point in braces, and what follows the opening brace. -/
def codePoint? (cs : List Char) : Option (Char × List Char) :=
  let digits := (cs.take 6).takeWhile (· != '}')
  match digits, cs.drop digits.length with
  | [], _ => none
  | _, '}' :: rest => do
    let n ← hexValue? digits
    let c ← charOf? n
    some (c, rest)
  | _, _ => none

/-- What a quotation holds. -/
inductive Content where
  | characters
  | bytes
  deriving DecidableEq, Repr

/-- The character that an escape names, and what follows; the backslash is already read. Among bytes
a number stands for one byte, of which only the presence is kept. -/
def escape? (content : Content) : List Char → Option (Char × List Char)
  | '\'' :: cs => some ('\'', cs)
  | '"' :: cs => some ('"', cs)
  | '\\' :: cs => some ('\\', cs)
  | 'n' :: cs => some ('\n', cs)
  | 'r' :: cs => some ('\r', cs)
  | 't' :: cs => some ('\t', cs)
  | '0' :: cs => some ('\x00', cs)
  | 'x' :: cs => match content with
    | .characters => escapedChar? cs
    | .bytes => (escapedBytes 1 cs).map fun (_, rest) => ('\x00', rest)
  | 'u' :: '{' :: cs => match content with
    | .characters => codePoint? cs
    | .bytes => none
  | _ => none

/-- The content of a quotation up to the closing quote, and what follows. Each step reads a
character or an escape; there are at most the given number of steps. -/
def quoted (kind : Content) : Nat → List Char → Option (List Char × List Char)
  | 0, _ => none
  | _, [] => none
  | _, '"' :: cs => some ([], cs)
  | n + 1, '\\' :: cs => do
    let (c, rest) ← escape? kind cs
    let (content, rest) ← quoted kind n rest
    some (c :: content, rest)
  | n + 1, c :: cs => do
    let (content, rest) ← quoted kind n cs
    some (c :: content, rest)

/-- The content of a raw text up to its ending, and what follows. -/
def rawQuoted (ending : List Char) : List Char → Option (List Char × List Char)
  | [] => none
  | c :: cs =>
    if ending.isPrefixOf (c :: cs) then some ([], (c :: cs).drop ending.length)
    else (rawQuoted ending cs).map fun (content, rest) => (c :: content, rest)

/-- A raw text: hashes, a quote, the content, a quote and as many hashes. -/
def rawText (cs : List Char) : Option (List Char × List Char) :=
  let hashes := cs.takeWhile (· = '#')
  match cs.drop hashes.length with
  | '"' :: rest => rawQuoted ('"' :: hashes) rest
  | _ => none

/-- What follows a quoted character; the opening quote is already read. -/
def afterChar (content : Content) : List Char → Option (List Char)
  | '\\' :: cs => match escape? content cs with
    | some (_, '\'' :: rest) => some rest
    | _ => none
  | _ :: '\'' :: rest => some rest
  | _ => none

/-! ## Tokens -/

/-- Goes on a word that may hold any name, and a number. -/
def isNamePart (c : Char) : Bool := Text.isIdentifierPart c || c = '.' || c = '+' || c = '-'

/-- Begins a number. -/
def isNumberStart (c : Char) : Bool := c.isDigit || c = '+' || c = '-' || c = '.'

/-- Names that stand for values. -/
def valueNames : List String :=
  ["true", "false", "None", "Some", "inf", "inff32", "inff64", "NaN", "NaNf32", "NaNf64"]

/-- A name that was marked as nothing but a name. It keeps its mark if it would stand for a value
otherwise. -/
def plainName (name : String) : Token :=
  .word (if valueNames.contains name then "r#" ++ name else name)

/-- The mark of a character. -/
def markOf? : Char → Option Mark
  | '(' => some .openParen
  | ')' => some .closeParen
  | '[' => some .openBracket
  | ']' => some .closeBracket
  | '{' => some .openBrace
  | '}' => some .closeBrace
  | ':' => some .colon
  | ',' => some .comma
  | '#' => some .hash
  | '!' => some .bang
  | _ => none

/-- A run of characters as a token, and what follows. -/
def run (make : String → Token) (p : Char → Bool) (cs : List Char) : Token × List Char :=
  (make (String.ofList (cs.takeWhile p)), cs.dropWhile p)

/-- A word or a number in front. -/
def plain? (c : Char) (cs : List Char) : Option (Token × List Char) :=
  if Text.isIdentifierStart c then some (run .word Text.isIdentifierPart (c :: cs))
  else if isNumberStart c then some (run .number isNamePart (c :: cs))
  else (markOf? c).map fun m => (.mark m, cs)

/-- A quoted text with the given characters in front of its content. -/
def textToken (r : Option (List Char × List Char)) : Option (Token × List Char) :=
  r.map fun (content, rest) => (.text (String.ofList content), rest)

/-- A row of bytes. -/
def literalToken (r : Option (List Char × List Char)) : Option (Token × List Char) :=
  r.map fun (_, rest) => (.literal, rest)

/-- The token in front. -/
def token? : List Char → Option (Token × List Char)
  | [] => none
  | '"' :: cs => textToken (quoted .characters (cs.length + 1) cs)
  | '\'' :: cs => (afterChar .characters cs).map fun rest => (.literal, rest)
  | 'r' :: '"' :: cs => textToken (rawText ('"' :: cs))
  | 'r' :: '#' :: c :: cs =>
    if c = '"' || c = '#' then textToken (rawText ('#' :: c :: cs))
    else if isNamePart c then some (run plainName isNamePart (c :: cs))
    else none
  | 'b' :: '"' :: cs => literalToken (quoted .bytes (cs.length + 1) cs)
  | 'b' :: '\'' :: cs => (afterChar .bytes cs).map fun rest => (.literal, rest)
  | 'b' :: 'r' :: '"' :: cs => literalToken (rawText ('"' :: cs))
  | 'b' :: 'r' :: '#' :: cs => literalToken (rawText ('#' :: cs))
  | c :: cs => plain? c cs

/-- The four characters that may begin a quotation. -/
theorem token?_plain {c : Char} {cs : List Char} (hc : c ∉ ['"', '\'', 'r', 'b']) :
    token? (c :: cs) = plain? c cs := by
  simp only [List.mem_cons, List.not_mem_nil, or_false, not_or] at hc
  rw [token?] <;> grind

/-- At most the given number of tokens; `none` when there are more, or something is no token. -/
def tokens : Nat → List Char → Option (List Token)
  | 0, cs => match skipGap .outside cs with
    | some [] => some []
    | _ => none
  | n + 1, cs => match skipGap .outside cs with
    | none => none
    | some [] => some []
    | some (c :: rest) => do
      let (t, rest) ← token? (c :: rest)
      let ts ← tokens n rest
      some (t :: ts)

/-- What is skipped in front of a token does not matter. -/
theorem tokens_congr {n : Nat} {cs rest : List Char} (h : skipGap .outside cs = skipGap .outside rest) :
    tokens n cs = tokens n rest := by
  cases n <;> rw [tokens, tokens, h]

/-- The tokens of a document. A token has at least one character, so their number is at most that of
the characters. -/
def tokenize (text : String) : Option (List Token) := tokens text.length text.toList

end Deeds.Ron
