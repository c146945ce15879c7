import SuperChip.State.Basic

/-!
# Transfers of registers

Blocks of registers go to and from memory, starting at the index, and to and
from the second bank of registers.  A block always starts with register zero,
and none of these transfers moves the index.
-/

namespace SuperChip

namespace Registers

/-- One bank with the registers up to `last` taken from a source. -/
def overlay (bank : Registers) (last : Register) (source : Register → UInt8) : Registers :=
  Vector.ofFn fun k => if k.val ≤ last.val then source k else bank.get k

/-- The registers up to `last`, in order. -/
def upTo (bank : Registers) (last : Register) : List UInt8 :=
  bank.toList.take (last.val + 1)

/-- The registers up to the last come from the source, the others stay. -/
theorem get_overlay (bank : Registers) (last : Register) (source : Register → UInt8)
    (k : Register) :
    (overlay bank last source).get k = if k.val ≤ last.val then source k else bank.get k :=
  Table.get_ofFn _ k

end Registers

/-- The three decimal digits of a byte, most significant first. -/
def decimalDigits (value : UInt8) : List UInt8 :=
  [value / 100, value / 10 % 10, value % 10]

namespace State

/-- Write the decimal digits of a register at the index. -/
def storeDecimal (state : State) (x : Register) : State :=
  { state with
    memory := state.memory.writeList state.index (decimalDigits (state.registers.get x)) }

/-- Write a block of registers at the index. -/
def storeRegisters (state : State) (x : Register) : State :=
  { state with
    memory := state.memory.writeList state.index (Registers.upTo state.registers x) }

/-- Read a block of registers from the index. -/
def loadRegisters (state : State) (x : Register) : State :=
  { state with
    registers := Registers.overlay state.registers x fun k =>
      state.memory.read (state.index + UInt16.ofNat k.val) }

/-- Copy a block of registers into the second bank. -/
def storeRpl (state : State) (x : Register) : State :=
  { state with rpl := Registers.overlay state.rpl x fun k => state.registers.get k }

/-- Copy a block of registers back from the second bank. -/
def loadRpl (state : State) (x : Register) : State :=
  { state with registers := Registers.overlay state.registers x fun k => state.rpl.get k }

end State

end SuperChip
