/-!
# Key streams

An endless supply of random words from a key: the ChaCha stream cipher with twelve rounds, run on
the numbers 0, 1, 2, …

## The model

A block of sixteen words is made from a state of four constants, the eight words of the key, a
counter of 64 bits and two zero words. A quarter round mixes four words of the state; a double
round mixes the four columns and then the four diagonals; six double rounds are added to the state
they started from. A seed of 64 bits is stretched to a key by a linear congruential generator whose
outputs are folded and rotated.
-/

namespace RandExpr.Random

/-- Sixteen words. -/
abbrev Block := Vector UInt32 16

/-- Eight words that determine a stream. -/
abbrev Key := Vector UInt32 8

/-- A stream of blocks. -/
abbrev Keystream := Nat → Block

/-- A word with its bits moved to the left, those that fall off coming in on the right. -/
def rotateLeft (x n : UInt32) : UInt32 := (x <<< n) ||| (x >>> (32 - n))

/-- Mixes the four words of a state at the places `a`, `b`, `c` and `d`. -/
def quarterRound (s : Block) (a b c d : Fin 16) : Block :=
  let x := s[a] + s[b]
  let w := rotateLeft (s[d] ^^^ x) 16
  let y := s[c] + w
  let z := rotateLeft (s[b] ^^^ y) 12
  let x := x + z
  let w := rotateLeft (w ^^^ x) 8
  let y := y + w
  let z := rotateLeft (z ^^^ y) 7
  (((s.set a x).set b z).set c y).set d w

/-- Mixes the columns of a state, and then its diagonals. -/
def doubleRound (s : Block) : Block :=
  let s := quarterRound s 0 4 8 12
  let s := quarterRound s 1 5 9 13
  let s := quarterRound s 2 6 10 14
  let s := quarterRound s 3 7 11 15
  let s := quarterRound s 0 5 10 15
  let s := quarterRound s 1 6 11 12
  let s := quarterRound s 2 7 8 13
  quarterRound s 3 4 9 14

/-- The state from which block `counter` is made. -/
def startState (key : Key) (counter : Nat) : Block :=
  #v[0x61707865, 0x3320646e, 0x79622d32, 0x6b206574,
    key[0], key[1], key[2], key[3], key[4], key[5], key[6], key[7],
    UInt32.ofNat counter, UInt32.ofNat (counter / 0x1_0000_0000), 0, 0]

/-- The stream of a key. -/
def Keystream.ofKey (key : Key) : Keystream := fun counter =>
  let s := startState key counter
  Vector.zipWith (· + ·) (Nat.repeat doubleRound 6 s) s

/-- The state of the generator that stretches a seed, after one step. -/
def stretch (s : UInt64) : UInt64 := s * 6364136223846793005 + 11634580027462260723

/-- The word of a key that a state of that generator gives. -/
def stretchedWord (s : UInt64) : UInt32 :=
  let x := (((s >>> 18) ^^^ s) >>> 27).toUInt32
  let n := (s >>> 59).toUInt32
  (x >>> n) ||| (x <<< ((32 - n) % 32))

/-- The key of a seed. -/
def Key.ofSeed (seed : UInt64) : Key :=
  Vector.ofFn fun i => stretchedWord (Nat.repeat stretch (i + 1) seed)

/-- The stream of a seed. -/
def Keystream.ofSeed (seed : UInt64) : Keystream := .ofKey (Key.ofSeed seed)

end RandExpr.Random
