import Deeds.Text.Blank

/-!
# Tokens of a line

A line splits at blanks, and where operator characters meet others: a run of `< > = !` is an
operator, any other run a word. Blanks belong to no token.

* `Token` : a word or an operator with its text;
* `tokenize` : the tokens of a line, each as long as it can be.
-/

namespace Deeds.Line

/-- A piece of a line. -/
inductive Token where
  | word (text : String)
  | operator (text : String)
  deriving DecidableEq, Repr

/-- The text of a token. -/
def Token.text : Token → String
  | .word t => t
  | .operator t => t

/-- A character of operators. -/
def isOperatorChar (c : Char) : Bool := c = '<' || c = '>' || c = '=' || c = '!'

/-- A character of words. -/
def isWordChar (c : Char) : Bool := !Text.isBlank c && !isOperatorChar c

theorem length_dropWhile_le {α : Type} (p : α → Bool) (l : List α) :
    (l.dropWhile p).length ≤ l.length :=
  (List.dropWhile_sublist p).length_le

/-- The tokens of a run of characters. -/
def tokens : List Char → List Token
  | [] => []
  | c :: cs =>
    if Text.isBlank c then tokens cs
    else if isOperatorChar c then
      .operator (String.ofList (c :: cs.takeWhile isOperatorChar))
        :: tokens (cs.dropWhile isOperatorChar)
    else
      .word (String.ofList (c :: cs.takeWhile isWordChar))
        :: tokens (cs.dropWhile isWordChar)
termination_by cs => cs.length
decreasing_by
  · simp
  · simpa using Nat.lt_succ_of_le (length_dropWhile_le isOperatorChar cs)
  · simpa using Nat.lt_succ_of_le (length_dropWhile_le isWordChar cs)

theorem tokens_blank {c : Char} {cs : List Char} (hc : Text.isBlank c) :
    tokens (c :: cs) = tokens cs := by
  rw [tokens, if_pos hc]

/-- The tokens of a line. -/
def tokenize (line : String) : List Token := tokens line.toList

end Deeds.Line
