import ElevatorFleet.Traffic.Tables

/-!
Pseudorandom rolls from the ChaCha stream cipher with twelve rounds.

* `ChaCha.keyOfSeed` stretches a seed of 64 bits to a key, one word for each step of a linear
  congruential generator.
* `ChaCha.word` is the stream as a function of the position: sixteen words from each block, the
  blocks being counted from zero.
* `ChaCha.rolls` draws a roll from the stream. A word times a hundred gives the roll in its upper
  half; words whose lower half would favour some rolls are passed over.
-/

namespace ElevatorFleet

namespace ChaCha

/-- The sixteen words a block is made from, or made of. -/
abbrev Block := Vector UInt32 16

/-- Rotates a word to the left; a rotation by nothing keeps it. -/
def rotateLeft (x n : UInt32) : UInt32 := (x <<< n) ||| (x >>> (32 - n))

/-- Stirs four words of a block. -/
def quarterRound (s : Block) (i j k l : Fin 16) : Block :=
  let a := s[i] + s[j]
  let d := rotateLeft (s[l] ^^^ a) 16
  let c := s[k] + d
  let b := rotateLeft (s[j] ^^^ c) 12
  let a := a + b
  let d := rotateLeft (d ^^^ a) 8
  let c := c + d
  let b := rotateLeft (b ^^^ c) 7
  (((s.set i a).set j b).set k c).set l d

/-- Stirs the columns and then the diagonals of a block. -/
def doubleRound (s : Block) : Block :=
  let s := quarterRound s 0 4 8 12
  let s := quarterRound s 1 5 9 13
  let s := quarterRound s 2 6 10 14
  let s := quarterRound s 3 7 11 15
  let s := quarterRound s 0 5 10 15
  let s := quarterRound s 1 6 11 12
  let s := quarterRound s 2 7 8 13
  quarterRound s 3 4 9 14

/-- Twelve rounds. -/
def rounds (s : Block) : Block := Nat.repeat doubleRound 6 s

/-- The key words of a stream. -/
abbrev Key := Vector UInt32 8

/-- The words a block is made from: four constants, the key, the number of the block, and zeros. -/
def initial (key : Key) (n : UInt64) : Block :=
  #v[0x61707865, 0x3320646e, 0x79622d32, 0x6b206574,
    key[0], key[1], key[2], key[3], key[4], key[5], key[6], key[7],
    n.toUInt32, (n >>> 32).toUInt32, 0, 0]

/-- The block with a number. -/
def block (key : Key) (n : UInt64) : Block :=
  let s := initial key n
  (rounds s).zipWith (· + ·) s

/-- The word at a position of the stream. -/
def word (key : Key) (position : Nat) : UInt32 :=
  (block key (position / 16).toUInt64)[Fin.ofNat 16 position]

/-- One step of the generator that stretches a seed. -/
def advance (seed : UInt64) : UInt64 := seed * 6364136223846793005 + 11634580027462260723

/-- The key word a state of that generator gives: its upper bits folded together and rotated. -/
def keyWord (state : UInt64) : UInt32 :=
  let x := (((state >>> 18) ^^^ state) >>> 27).toUInt32
  rotateLeft x ((32 : UInt32) - (state >>> 59).toUInt32)

/-- The key that a seed is stretched to. -/
def keyOfSeed (seed : UInt64) : Key :=
  Vector.ofFn fun i : Fin 8 => keyWord (Nat.repeat advance (i.val + 1) seed)

/-- The largest lower half that favours no roll. -/
def zone : Nat := 3355443199

/-- The roll drawn from a position, and the position behind it. Every word is passed over with a
chance of about one in five, so that the `fuel` is never used up. -/
def rollFrom (key : Key) : (fuel : Nat) → Nat → Nat × Nat
  | 0, position => (0, position)
  | fuel + 1, position =>
      let product := (word key position).toNat * 100
      if product % 4294967296 ≤ zone then (product / 4294967296, position + 1)
      else rollFrom key fuel (position + 1)

/-- The rolls of a stream, by position. -/
def rolls (key : Key) : Rolls Nat := ⟨rollFrom key 1000⟩

end ChaCha

end ElevatorFleet
