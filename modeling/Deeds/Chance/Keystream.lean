/-!
# A seeded stream of words

The stream is the ChaCha cipher of twelve rounds, run from a key that is expanded from a seed of 64
bits.

* `Keystream.ofSeed` : the key of a seed;
* `Keystream.word` : a word of 32 bits by its position in the stream.
-/

namespace Deeds.Chance

/-- The state of the cipher: sixteen words. -/
abbrev Block := Vector UInt32 16

/-- Moves the bits of a word to the left; those that leave come back on the right. -/
def rotateLeft (x : UInt32) (n : UInt32) : UInt32 := x <<< n ||| x >>> (32 - n)

/-- Mixes four words. -/
def quarterRound (s : Block) (a b c d : Fin 16) : Block :=
  let s := s.set a (s[a] + s[b])
  let s := s.set d (rotateLeft (s[d] ^^^ s[a]) 16)
  let s := s.set c (s[c] + s[d])
  let s := s.set b (rotateLeft (s[b] ^^^ s[c]) 12)
  let s := s.set a (s[a] + s[b])
  let s := s.set d (rotateLeft (s[d] ^^^ s[a]) 8)
  let s := s.set c (s[c] + s[d])
  s.set b (rotateLeft (s[b] ^^^ s[c]) 7)

/-- Mixes the columns, then the diagonals, of the words in four rows. -/
def doubleRound (s : Block) : Block :=
  let s := quarterRound s 0 4 8 12
  let s := quarterRound s 1 5 9 13
  let s := quarterRound s 2 6 10 14
  let s := quarterRound s 3 7 11 15
  let s := quarterRound s 0 5 10 15
  let s := quarterRound s 1 6 11 12
  let s := quarterRound s 2 7 8 13
  quarterRound s 3 4 9 14

/-- A key of eight words. -/
structure Keystream where
  key : Vector UInt32 8
  deriving DecidableEq, Repr

namespace Keystream

/-- One step of the generator that expands a seed. -/
def expand (s : UInt64) : UInt64 := s * 6364136223846793005 + 11634580027462260723

/-- The word that a state of the generator yields. -/
def permute (s : UInt64) : UInt32 :=
  let x := (((s >>> 18) ^^^ s) >>> 27).toUInt32
  let n := (s >>> 59).toUInt32
  x >>> n ||| x <<< ((32 - n) % 32)

/-- The words after a state of the generator. -/
def expandWords : Nat → UInt64 → List UInt32
  | 0, _ => []
  | n + 1, s => permute (expand s) :: expandWords n (expand s)

theorem length_expandWords (n : Nat) (s : UInt64) : (expandWords n s).length = n := by
  induction n generalizing s with
  | zero => rfl
  | succ n ih => simp [expandWords, ih]

/-- The key of a seed. -/
def ofSeed (seed : UInt64) : Keystream :=
  ⟨⟨(expandWords 8 seed).toArray, by simp [length_expandWords]⟩⟩

/-- The state of the cipher for a block number. -/
def start (k : Keystream) (block : UInt64) : Block :=
  #v[0x61707865, 0x3320646e, 0x79622d32, 0x6b206574,
    k.key[0], k.key[1], k.key[2], k.key[3], k.key[4], k.key[5], k.key[6], k.key[7],
    block.toUInt32, (block >>> 32).toUInt32, 0, 0]

/-- A block of the stream: the state after six double rounds, added to the state before. -/
def block (k : Keystream) (number : UInt64) : Block :=
  let s := k.start number
  Vector.zipWith (· + ·) s (Nat.repeat doubleRound 6 s)

/-- A word of the stream. -/
def word (k : Keystream) (position : Nat) : UInt32 :=
  (k.block (UInt64.ofNat (position / 16))).get ⟨position % 16, Nat.mod_lt _ (by decide)⟩

end Keystream

end Deeds.Chance
