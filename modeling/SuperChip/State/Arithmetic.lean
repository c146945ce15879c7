import SuperChip.Operation.Basic
import SuperChip.State.Basic

/-!
# Arithmetic

Sums, differences and shifts write their result first and the flag after it, so
when the flag register is the target the flag wins.  The flag of a sum is its
carry, that of a difference says that nothing was borrowed, and that of a shift
is the bit shifted out.

A register is added to the index in sixteen bits, and the flag says whether this
sum lies past the last address.  From an index inside memory the sum never needs
a seventeenth bit.  A host may put back a state with a larger index; where the sum
then leaves sixteen bits (`Address.overflows`), its seventeenth bit is lost, so
that the flag is zero though the exact sum lies far past memory.  This is what a
build does that lets sums wrap.  One that checks them does not come back from such
a step (`Machine.checkedStep`).
-/

namespace SuperChip

namespace Arithmetic

/-- What is computed from the two registers. -/
def result : Arithmetic → UInt8 → UInt8 → UInt8
  | move, _, b => b
  | or, a, b => a ||| b
  | and, a, b => a &&& b
  | xor, a, b => a ^^^ b
  | add, a, b => a + b
  | sub, a, b => a - b
  | subNegated, a, b => b - a

/-- The flag of an operation on two registers, if it has one. -/
def flag? : Arithmetic → UInt8 → UInt8 → Option Bool
  | add, a, b => some (decide (256 ≤ a.toNat + b.toNat))
  | sub, a, b => some (decide (b.toNat ≤ a.toNat))
  | subNegated, a, b => some (decide (a.toNat ≤ b.toNat))
  | _, _, _ => none

end Arithmetic

namespace State

/-- Set the flag register, if there is a flag. -/
def setFlag? (state : State) : Option Bool → State
  | some flag => state.setFlag flag
  | none => state

/-- Compute from two registers into the first, and set the flag after it. -/
def arithmetic (state : State) (kind : Arithmetic) (x y : Register) : State :=
  let a := state.registers.get x
  let b := state.registers.get y
  (state.setRegister x (kind.result a b)).setFlag? (kind.flag? a b)

/-- Halve a register; the flag is the bit lost. -/
def shiftRight (state : State) (x : Register) : State :=
  let a := state.registers.get x
  (state.setRegister x (a / 2)).setFlag (decide (a.toNat % 2 = 1))

/-- Double a register; the flag is the bit lost. -/
def shiftLeft (state : State) (x : Register) : State :=
  let a := state.registers.get x
  (state.setRegister x (a + a)).setFlag (decide (128 ≤ a.toNat))

/-- Add a register to the index.  The sum has sixteen bits; the flag says that it lies past
the last address, and the index takes its low twelve bits.  Where the exact sum leaves sixteen
bits the flag is that of what is left of it, and a build that checks sums does not get here. -/
def addIndex (state : State) (x : Register) : State :=
  let sum := state.index + (state.registers.get x).toUInt16
  { state.setFlag (decide (Address.last < sum)) with index := Address.masked sum }

/-- Point the index at a digit of a font. -/
def pointAtGlyph (state : State) (font : Font) (x : Register) : State :=
  let offset := (state.registers.get x).toNat * font.glyphSize
  { state with index := UInt16.ofNat ((font.base.toNat + offset) % 4096) }

end State

end SuperChip
