import Deeds.Text.Blank

/-!
# Splitting a text

* `pieces` : the pieces between the occurrences of a character;
* `breakAt?` : what stands before and behind its first occurrence.
-/

namespace Deeds.Text

/-- The pieces of a text between the occurrences of a character; there is one more piece than
occurrences. -/
def pieces (separator : Char) : List Char → List (List Char)
  | [] => [[]]
  | c :: cs =>
    if c = separator then [] :: pieces separator cs
    else match pieces separator cs with
      | p :: ps => (c :: p) :: ps
      | [] => [[c]]

/-- What stands before and behind the first occurrence of a character. -/
def breakAt? (separator : Char) (cs : List Char) : Option (List Char × List Char) :=
  match cs.dropWhile (· != separator) with
  | _ :: rest => some (cs.takeWhile (· != separator), rest)
  | [] => none

end Deeds.Text
