import SuperChip.Machine.Basic

/-!
# Steps and frames

A step runs one instruction, unless the program has exited or the host has
paused the machine; then nothing changes and nothing is noted.

Sums of addresses wrap in sixteen bits.  A machine built with its sums checked
instead fails in the middle of a step whose sum leaves them, and never ends that
step; `Machine.checkedStep` is a step of such a machine.

A frame runs the instructions of one timer period and then ticks the timers.
The number of instructions is settled when the frame starts.  A frame ends
early on a wait for a key, still with its tick, and on a halt or a pause,
without one.
-/

namespace SuperChip

universe u v

namespace Machine

variable {δ : Type u} {κ : Type v} [Screen δ] [KeySource κ]

/-- Whether one of the sixteen keys is held. -/
def held (machine : Machine δ κ) (key : Fin 16) : Bool :=
  KeySource.pressed machine.keys (UInt8.ofNat key.val)

/-- The operation that the program counter points at. -/
def operation (machine : Machine δ κ) : Operation :=
  Operation.decode machine.state.word

/-- Run the instruction that the program counter points at. -/
def execute (machine : Machine δ κ) : Outcome δ κ Status :=
  let state := machine.state
  let operation := machine.operation
  let past := state.advance
  let drawing := operation.paint past machine.screen
  let senses : Senses :=
    { held := machine.held
      random := machine.random
      collision := drawing.collision }
  { machine :=
      { machine with
        state := past.execute operation senses
        screen := drawing.screen
        random := if operation.isRandom then machine.random.advance else machine.random }
    reply := operation.status senses
    journal :=
      #[.executing state.pc state.word state.registers state.index] ++
        (operation.event? past).toArray }

/-- Run one instruction if the machine is running and its program has not exited. -/
def step (machine : Machine δ κ) : Outcome δ κ Status :=
  match machine.state.exitCode with
  | some code => machine.answer (.halted code)
  | none =>
      if machine.state.running then machine.execute else machine.answer .stopped

/-- Whether the instruction that a step would run makes a sum that leaves sixteen bits. -/
def overflows (machine : Machine δ κ) : Bool :=
  machine.state.exitCode.isNone && machine.state.running &&
    machine.operation.overflows machine.state.advance

/-- A step of a machine whose sums are checked.  It has no outcome where a sum leaves sixteen
bits, and the outcome of any other machine where none does. -/
def checkedStep (machine : Machine δ κ) : Option (Outcome δ κ Status) :=
  if machine.overflows then none else some machine.step

/-- After an exit a step only repeats the code. -/
theorem step_of_exited {machine : Machine δ κ} {code : UInt8}
    (exited : machine.state.exitCode = some code) :
    machine.step = machine.answer (.halted code) := by
  simp only [step, exited]

/-- A paused machine does nothing in a step. -/
theorem step_of_paused {machine : Machine δ κ} (unfinished : machine.state.exitCode = none)
    (paused : machine.state.running = false) : machine.step = machine.answer .stopped := by
  simp only [step, unfinished, paused, Bool.false_eq_true, ↓reduceIte]

/-- A running machine executes in a step. -/
theorem step_of_running {machine : Machine δ κ} (unfinished : machine.state.exitCode = none)
    (running : machine.state.running = true) : machine.step = machine.execute := by
  simp only [step, unfinished, running, ↓reduceIte]

/-- Continue an outcome with at most some number of steps, up to the first that ends a frame. -/
def burst (before : Outcome δ κ Status) : Nat → Outcome δ κ Status
  | 0 => before
  | limit + 1 =>
      let after := before.machine.step
      let joined : Outcome δ κ Status :=
        { machine := after.machine
          reply := after.reply
          journal := before.journal ++ after.journal }
      if after.reply.endsFrame then joined else burst joined limit

/-- Run the instructions of one timer period, then tick. -/
def runFrame (machine : Machine δ κ) : Outcome δ κ Status :=
  let ran := burst (machine.answer .running) machine.cyclesPerFrame
  if ran.reply.isIdle then ran else { ran with machine := ran.machine.tick }

end Machine

end SuperChip
