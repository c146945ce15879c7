/-!
# Resolutions

The machine draws on a logical surface of 64 by 32 cells, or of 128 by 64 cells
after a program asked for the finer mode.  The surface of the low resolution is
the top left part of that of the high one.
-/

namespace SuperChip

/-- The two modes of the screen. -/
inductive Resolution where
  | low
  | high
  deriving DecidableEq, Repr

namespace Resolution

/-- Columns of the logical surface. -/
def width : Resolution → Nat
  | low => 64
  | high => 128

/-- Rows of the logical surface. -/
def height : Resolution → Nat
  | low => 32
  | high => 64

/-- The word for the mode in messages. -/
def name : Resolution → String
  | low => "low"
  | high => "high"

/-- No mode is wider than the high one. -/
theorem width_le (mode : Resolution) : mode.width ≤ high.width := by
  cases mode <;> decide

/-- No mode is higher than the high one. -/
theorem height_le (mode : Resolution) : mode.height ≤ high.height := by
  cases mode <;> decide

end Resolution

end SuperChip
