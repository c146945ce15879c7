import SuperChip.Memory
import SuperChip.Text.Numeral

/-!
# Program images

A program image must fit between the load address and the end of memory.  It
comes either as a block of bytes or from a source that hands it out piece by
piece; an interrupted read of a source is tried again and loses nothing.  What a
source answers is a list of readings up to its end.
-/

namespace SuperChip

/-- Why a program image was not loaded. -/
inductive RomError where
  | tooLarge (size capacity : Nat)
  | unreadable (reason : String)
  deriving DecidableEq, Repr

namespace RomError

/-- What a host is told about an image that was not loaded. -/
def message : RomError → String
  | tooLarge size capacity =>
      "ROM of " ++ Numeral.decimal size ++ " bytes does not fit in the " ++
        Numeral.decimal capacity ++ " bytes available"
  | unreadable reason => "unable to read ROM: " ++ reason

end RomError

namespace Rom

/-- The bytes available to a program image. -/
def capacity : Nat :=
  Memory.size - Address.programStart.toNat

/-- Memory with a program image in it; an image that does not fit changes nothing. -/
def load (memory : Memory) (image : Array UInt8) : Except RomError Memory :=
  if image.size ≤ capacity then
    .ok (memory.place Address.programStart.toNat image)
  else
    .error (.tooLarge image.size capacity)

end Rom

/-- One answer of a source of bytes.  The end of the source is no answer of its own: it is where a
list of readings ends. -/
inductive Reading where
  /-- The reading was broken off and is tried again. -/
  | interrupted
  /-- A piece of the image. -/
  | chunk (bytes : Array UInt8)
  | failed (reason : String)
  deriving DecidableEq, Repr

namespace Reading

/-- All bytes that a source hands out until it ends, unless one of its readings fails.  A chunk is
a piece that the source delivers and never the end of its input: an empty one is passed over,
whereas a byte stream marks its end by a reading of no bytes. -/
def gather (gathered : Array UInt8) : List Reading → Except RomError (Array UInt8)
  | [] => .ok gathered
  | interrupted :: rest => gather gathered rest
  | chunk bytes :: rest => gather (gathered ++ bytes) rest
  | failed reason :: _ => .error (.unreadable reason)

end Reading

end SuperChip
