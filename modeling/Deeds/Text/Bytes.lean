/-!
# Bytes that are shown as text

* `bytesOf` : the bytes of a text;
* `shown` : the characters that bytes encode. A run of bytes that begins a character and does not
  end it, and a byte that begins none, are shown as the replacement character.
-/

namespace Deeds.Text

/-- The bytes of a text. -/
def bytesOf (s : String) : List UInt8 := s.toUTF8.data.toList

/-- How many bytes a character takes that begins with this one; zero if none does. -/
def byteWidth (b : UInt8) : Nat :=
  if b ≤ 0x7f then 1
  else if 0xc2 ≤ b && b ≤ 0xdf then 2
  else if 0xe0 ≤ b && b ≤ 0xef then 3
  else if 0xf0 ≤ b && b ≤ 0xf4 then 4
  else 0

/-- A byte that is not the first of its character. -/
def isTail (b : UInt8) : Bool := 0x80 ≤ b && b ≤ 0xbf

/-- The byte may follow this first one: no character has two encodings, and there are neither
surrogates nor characters beyond the last one. -/
def mayFollow (first b : UInt8) : Bool :=
  isTail b && (first != 0xe0 || 0xa0 ≤ b) && (first != 0xed || b ≤ 0x9f)
    && (first != 0xf0 || 0x90 ≤ b) && (first != 0xf4 || b ≤ 0x8f)

/-- The bytes in front that go on with the character of a first byte. -/
def tails (first : UInt8) (bs : List UInt8) : List UInt8 :=
  match bs.take (byteWidth first - 1) with
  | b :: rest => if mayFollow first b then b :: rest.takeWhile isTail else []
  | [] => []

/-- What stands for bytes that are no character. -/
def replacement : Char := '\ufffd'

/-- The character that some bytes encode. -/
def charOfBytes (bs : List UInt8) : Char :=
  (ByteArray.utf8DecodeChar? ⟨bs.toArray⟩ 0).getD replacement

/-- The characters that bytes show. -/
def shown : List UInt8 → List Char
  | [] => []
  | b :: bs =>
    let more := tails b bs
    let c := if more.length + 1 = byteWidth b then charOfBytes (b :: more) else replacement
    c :: shown (bs.drop more.length)
termination_by bs => bs.length
decreasing_by simp only [List.length_drop, List.length_cons]; omega

end Deeds.Text
