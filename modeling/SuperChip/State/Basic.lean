import SuperChip.CallStack
import SuperChip.Memory
import SuperChip.Resolution
import SuperChip.Rom
import SuperChip.Table

/-!
# The state of the machine

Everything that a program can change and a host can save and put back, except
the picture, the keys and the random stream.
-/

namespace SuperChip

/-- Sixteen registers of a byte each. -/
abbrev Registers := Vector UInt8 16

/-- The state of the machine, apart from its peripherals. -/
structure State where
  memory : Memory
  registers : Registers
  index : Address
  pc : Address
  callStack : CallStack
  /-- Registers that only their own two instructions touch. -/
  rpl : Registers
  delay : UInt8
  sound : UInt8
  resolution : Resolution
  /-- Whether the picture was touched since the host last looked at it. -/
  redraw : Bool
  running : Bool
  exitCode : Option UInt8
  deriving DecidableEq

namespace State

/-- The state at power on: the fonts in memory, everything else cleared, and the program counter at
the start of programs. -/
def initial : State where
  memory := Memory.initial
  registers := Vector.replicate 16 0
  index := 0
  pc := Address.programStart
  callStack := CallStack.empty
  rpl := Vector.replicate 16 0
  delay := 0
  sound := 0
  resolution := .low
  redraw := false
  running := true
  exitCode := none

/-- Put a byte into a register. -/
def setRegister (state : State) (x : Register) (value : UInt8) : State :=
  { state with registers := Table.put state.registers x value }

/-- Set the flag register to one or zero. -/
def setFlag (state : State) (flag : Bool) : State :=
  state.setRegister Register.flag (if flag then 1 else 0)

/-- One step of a timer, which stops at zero. -/
def countdown (timer : UInt8) : UInt8 :=
  if timer = 0 then 0 else timer - 1

/-- One period of the timers. -/
def tick (state : State) : State :=
  { state with
    delay := countdown state.delay
    sound := countdown state.sound }

/-- Load a program image; one that does not fit changes nothing. -/
def load (state : State) (image : Array UInt8) : Except RomError State :=
  match Rom.load state.memory image with
  | .ok memory => .ok { state with memory := memory }
  | .error error => .error error

/-- Putting a byte into a register changes no other register. -/
theorem get_setRegister (state : State) (x : Register) (value : UInt8) (k : Register) :
    (state.setRegister x value).registers.get k =
      if x = k then value else state.registers.get k :=
  Table.get_put state.registers x value k

/-- A step of a timer takes one away, as long as there is one. -/
theorem toNat_countdown (timer : UInt8) : (countdown timer).toNat = timer.toNat - 1 := by
  unfold countdown
  split
  · next zero =>
    rw [zero]
    rfl
  · next nonzero =>
    have positive : (1 : UInt8) ≤ timer := by
      apply UInt8.le_iff_toNat_le.mpr
      have : timer.toNat ≠ 0 := fun zero => nonzero (UInt8.toNat_inj.mp zero)
      change 1 ≤ timer.toNat
      omega
    rw [UInt8.toNat_sub_of_le timer 1 positive]
    rfl

end State

end SuperChip
