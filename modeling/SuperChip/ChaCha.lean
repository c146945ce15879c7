/-!
# The ChaCha block function with twelve rounds

A block of sixteen words is made from a key of eight words and a block number:
six double rounds mix the starting block, and the starting block is added to
the result word by word.
-/

namespace SuperChip

namespace ChaCha

/-- The eight words of a key. -/
abbrev Key := Vector UInt32 8

/-- The sixteen words on which the rounds work, and which they give. -/
abbrev Block := Vector UInt32 16

/-- Rotation towards the high bits. -/
def rotateLeft (word amount : UInt32) : UInt32 :=
  (word <<< amount) ||| (word >>> (32 - amount))

/-- Rotation towards the low bits. -/
def rotateRight (word amount : UInt32) : UInt32 :=
  (word >>> amount) ||| (word <<< (32 - amount))

/-- The word at a place of a key or a block; there are no words past the end. -/
def wordAt {size : Nat} (words : Vector UInt32 size) (place : Nat) : UInt32 :=
  words.toArray.getD place 0

/-- Add one word to another and mix the sum into a third, rotated. -/
def mix (target source mixed : Nat) (amount : UInt32) (block : Block) : Block :=
  let sum := wordAt block target + wordAt block source
  let added := block.setIfInBounds target sum
  added.setIfInBounds mixed (rotateLeft (wordAt added mixed ^^^ sum) amount)

/-- The quarter round on four words of a block. -/
def quarterRound (a b c d : Nat) (block : Block) : Block :=
  mix c d b 7 (mix a b d 8 (mix c d b 12 (mix a b d 16 block)))

/-- Quarter rounds on the four columns, then on the four diagonals. -/
def doubleRound (block : Block) : Block :=
  let columns :=
    quarterRound 3 7 11 15 (quarterRound 2 6 10 14 (quarterRound 1 5 9 13
      (quarterRound 0 4 8 12 block)))
  quarterRound 3 4 9 14 (quarterRound 2 7 8 13 (quarterRound 1 6 11 12
    (quarterRound 0 5 10 15 columns)))

/-- The block before the rounds: constants, key, block number, and two zero words. -/
def start (key : Key) (number : UInt64) : Block :=
  #v[0x61707865, 0x3320646e, 0x79622d32, 0x6b206574,
    wordAt key 0, wordAt key 1, wordAt key 2, wordAt key 3,
    wordAt key 4, wordAt key 5, wordAt key 6, wordAt key 7,
    number.toUInt32, (number >>> 32).toUInt32, 0, 0]

/-- The block of a number: six double rounds, added to the words that they start from. -/
def block (key : Key) (number : UInt64) : Block :=
  let before := start key number
  before.zipWith (· + ·) (Nat.repeat doubleRound 6 before)

end ChaCha

end SuperChip
