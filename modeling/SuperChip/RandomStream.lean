import SuperChip.ChaCha

/-!
# The stream of random bytes

A key determines an endless stream of bytes, one from each word of the ChaCha
output.  A stream knows how many bytes were taken from it, and nothing but
taking a byte moves it.
-/

namespace SuperChip

/-- A key with the number of bytes taken so far. -/
structure RandomStream where
  key : ChaCha.Key
  taken : Nat := 0
  deriving DecidableEq

namespace RandomStream

/-- The byte at a position of the stream: the low byte of that output word. -/
def byteAt (key : ChaCha.Key) (position : Nat) : UInt8 :=
  (ChaCha.wordAt (ChaCha.block key (UInt64.ofNat (position / 16))) (position % 16)).toUInt8

/-- The byte that is taken next. -/
def next (stream : RandomStream) : UInt8 :=
  byteAt stream.key stream.taken

/-- The stream after a byte was taken. -/
def advance (stream : RandomStream) : RandomStream :=
  { stream with taken := stream.taken + 1 }

/-- One step of the generator that stretches a seed into a key. -/
def stretch (state : UInt64) : UInt64 :=
  state * 6364136223846793005 + 11634580027462260723

/-- The word of a key that a state of that generator gives. -/
def keyWord (state : UInt64) : UInt32 :=
  ChaCha.rotateRight (((state >>> 18) ^^^ state) >>> 27).toUInt32 (state >>> 59).toUInt32

/-- The key that a seed stands for. -/
def keyOfSeed (seed : UInt64) : ChaCha.Key :=
  Vector.ofFn fun position => keyWord (Nat.repeat stretch (position.val + 1) seed)

/-- The stream of a seed, from its beginning. -/
def ofSeed (seed : UInt64) : RandomStream where
  key := keyOfSeed seed

end RandomStream

end SuperChip
