/-!
# Blank characters

* `isBlank` : the characters with the Unicode property White_Space;
* `trim` : a text without the blanks at its two ends;
* `sameName` : equality of texts up to the case of ASCII letters.
-/

namespace Deeds.Text

/-- The 25 characters of the Unicode property White_Space, as ranges. -/
def blankRanges : List (Nat × Nat) :=
  [(0x9, 0xd), (0x20, 0x20), (0x85, 0x85), (0xa0, 0xa0), (0x1680, 0x1680), (0x2000, 0x200a),
    (0x2028, 0x2029), (0x202f, 0x202f), (0x205f, 0x205f), (0x3000, 0x3000)]

/-- White space. -/
def isBlank (c : Char) : Bool :=
  blankRanges.any fun (first, last) => first ≤ c.toNat && c.toNat ≤ last

example : (blankRanges.map fun (first, last) => last + 1 - first).sum = 25 := rfl

theorem isBlank_of_isWhitespace {c : Char} (h : c.isWhitespace = true) : isBlank c = true := by
  simp only [Char.isWhitespace, Bool.or_eq_true, decide_eq_true_eq] at h
  rcases h with ((rfl | rfl) | rfl) | rfl <;> rfl

/-- The characters between the blanks at the two ends. -/
def trimChars (cs : List Char) : List Char :=
  ((cs.dropWhile isBlank).reverse.dropWhile isBlank).reverse

/-- The text between the blanks at its two ends. -/
def trim (s : String) : String := String.ofList (trimChars s.toList)

/-- Equality up to the case of ASCII letters. -/
def sameName (a b : String) : Bool := a.toList.map Char.toLower == b.toList.map Char.toLower

end Deeds.Text
