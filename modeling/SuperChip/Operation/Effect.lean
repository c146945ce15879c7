import SuperChip.Journal
import SuperChip.RandomStream
import SuperChip.Screen.Shift
import SuperChip.Screen.Sprite
import SuperChip.State.Arithmetic
import SuperChip.State.Control
import SuperChip.State.Transfer
import SuperChip.Status

/-!
# Effects of operations

An operation acts on a state whose program counter has already moved past it.
Its effect has four parts, each a function of its own: the next state
(`State.execute`), the next screen (`Operation.paint`), the status reported to
the host (`Operation.status`) and the event noted beside the instruction itself
(`Operation.event?`).

Beyond the state, an operation only perceives the sixteen keys, the random
stream, and whether the sprite it draws has turned a cell off.
-/

namespace SuperChip

universe u

/-- What an operation perceives beyond the state. -/
structure Senses where
  held : Fin 16 → Bool
  random : RandomStream
  collision : Bool

namespace Senses

/-- The lowest key held. -/
def lowestHeld? (senses : Senses) : Option (Fin 16) :=
  (List.finRange 16).find? senses.held

/-- Whether the key that a register means is held; past the last key none is. -/
def holds (senses : Senses) (key : UInt8) : Bool :=
  if known : key.toNat < 16 then senses.held ⟨key.toNat, known⟩ else false

/-- No key is lowest exactly when none is held. -/
theorem lowestHeld?_eq_none_iff (senses : Senses) :
    senses.lowestHeld? = none ↔ ∀ key, senses.held key = false := by
  simp [lowestHeld?, List.find?_eq_none]

end Senses

namespace Condition

/-- Whether the next instruction is skipped. -/
def met (condition : Condition) (state : State) (senses : Senses) : Bool :=
  match condition with
  | equalByte x kk => state.registers.get x == kk
  | notEqualByte x kk => state.registers.get x != kk
  | equalRegister x y => state.registers.get x == state.registers.get y
  | notEqualRegister x y => state.registers.get x != state.registers.get y
  | pressed x => senses.holds (state.registers.get x)
  | notPressed x => !senses.holds (state.registers.get x)

end Condition

namespace State

/-- Ask the host to look at the picture again. -/
def touch (state : State) : State :=
  { state with redraw := true }

/-- The sprite at the index, placed by two registers.  It has one byte a row, but height zero
in the high resolution means sixteen rows of two bytes. -/
def sprite (state : State) (x y : Register) (n : UInt8) : Sprite :=
  let large := state.resolution == .high && n == 0
  let rowBytes := if large then 2 else 1
  { left := (state.registers.get x).toNat
    top := (state.registers.get y).toNat
    width := 8 * rowBytes
    height := if large then 16 else n.toNat
    pixel := fun column row =>
      let byte := state.memory.read
        (state.index + UInt16.ofNat (row * rowBytes + column / 8))
      byte.toNat.testBit (7 - column % 8) }

/-- Put the lowest held key into a register, or go back to try again. -/
def waitKey (state : State) (x : Register) (senses : Senses) : State :=
  match senses.lowestHeld? with
  | some key => state.setRegister x (UInt8.ofNat key.val)
  | none => state.rewind

/-- The state after an operation. -/
def execute (state : State) (operation : Operation) (senses : Senses) : State :=
  match operation with
  | .exit code => state.exit code
  | .halt => state.exit 0
  | .clear => state.touch
  | .scroll toward => if toward.worksIn state.resolution then state.touch else state
  | .setResolution mode => { state with resolution := mode }
  | .system _ => state.advance
  | .jump address => state.jump address
  | .jumpOffset address => state.jump (address + (state.registers.get Register.zero).toUInt16)
  | .call address => state.call address
  | .ret => state.ret
  | .skip condition => state.skipIf (condition.met state senses)
  | .loadByte x kk => state.setRegister x kk
  | .addByte x kk => state.setRegister x (state.registers.get x + kk)
  | .arithmetic kind x y => state.arithmetic kind x y
  | .shiftRight x => state.shiftRight x
  | .shiftLeft x => state.shiftLeft x
  | .random x kk => state.setRegister x (senses.random.next &&& kk)
  | .draw _ _ _ => (state.setFlag senses.collision).touch
  | .waitKey x => state.waitKey x senses
  | .loadDelay x => state.setRegister x state.delay
  | .setDelay x => { state with delay := state.registers.get x }
  | .setSound x => { state with sound := state.registers.get x }
  | .loadIndex address => { state with index := address }
  | .addIndex x => state.addIndex x
  | .glyph font x => state.pointAtGlyph font x
  | .bcd x => state.storeDecimal x
  | .storeRegisters x => state.storeRegisters x
  | .loadRegisters x => state.loadRegisters x
  | .storeRpl x => state.storeRpl x
  | .loadRpl x => state.loadRpl x
  | .unknown _ => state

end State

namespace Operation

/-- The screen after an operation, and whether it has turned off a cell by drawing. -/
def paint {δ : Type u} [Screen δ] (operation : Operation) (state : State) (screen : δ) :
    Drawing δ :=
  match operation with
  | clear => { screen := Screen.clear screen }
  | scroll toward => { screen := toward.apply state.resolution screen }
  | draw x y n =>
      let start : Drawing δ := { screen := screen }
      start.toggleAll ((state.sprite x y n).cells state.resolution)
  | _ => { screen := screen }

/-- The status after an operation. -/
def status (operation : Operation) (senses : Senses) : Status :=
  match operation with
  | exit code => .halted code
  | halt => .halted 0
  | waitKey _ => if senses.lowestHeld?.isSome then .running else .waitingForKey
  | unknown word => .unmapped word
  | _ => .running

/-- Whether the operation adds a register to an address and the sum leaves sixteen bits.  All
other sums are meant to wrap. -/
def overflows (operation : Operation) (state : State) : Bool :=
  match operation with
  | jumpOffset address => Address.overflows address (state.registers.get Register.zero)
  | addIndex x => Address.overflows state.index (state.registers.get x)
  | _ => false

/-- The event that an operation notes beside its own execution. -/
def event? (operation : Operation) (state : State) : Option Event :=
  match operation with
  | exit code => some (.exited code)
  | halt => some (.exited 0)
  | setResolution mode =>
      if state.resolution = mode then none else some (.resolutionChanged mode)
  | scroll toward =>
      if toward.worksIn state.resolution then none else some (.scrollIgnored toward)
  | call address =>
      if (state.callStack.push state.pc).isOk then none
      else some (.callRefused address (state.pc - 2))
  | ret =>
      if state.callStack.pop?.isSome then none else some (.emptyReturn (state.pc - 2))
  | unknown word => some (.unmapped word (state.pc - 2))
  | _ => none

end Operation

end SuperChip
