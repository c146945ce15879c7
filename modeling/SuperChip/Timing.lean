import SuperChip.Resolution

/-!
# Timing

The machine never sleeps.  A host asks how many instructions belong between two
ticks of the timers and paces itself.
-/

namespace SuperChip

/-- Instruction rates for the two modes and the rate of the timers, all per second. -/
structure Timing where
  lowRate : UInt16 := 480
  highRate : UInt16 := 700
  timerRate : UInt16 := 60
  deriving DecidableEq, Repr

namespace Timing

/-- The rates of a machine whose host chooses none. -/
def standard : Timing := {}

/-- Instructions per second in a mode. -/
def rate (timing : Timing) : Resolution → UInt16
  | .low => timing.lowRate
  | .high => timing.highRate

/-- Instructions between two ticks of the timers, never fewer than one. -/
def cyclesPerTick (timing : Timing) (mode : Resolution) : Nat :=
  max 1 ((timing.rate mode).toNat / max 1 timing.timerRate.toNat)

/-- A tick always comes with an instruction, whatever the rates. -/
theorem one_le_cyclesPerTick (timing : Timing) (mode : Resolution) :
    1 ≤ timing.cyclesPerTick mode :=
  Nat.le_max_left 1 _

end Timing

end SuperChip
