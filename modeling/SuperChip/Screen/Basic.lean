import SuperChip.Resolution

/-!
# Screens

A screen is anything that can be cleared, asked about a cell, and told to turn
a cell on or off.  Cells are addressed from the top left.
-/

namespace SuperChip

universe u

/-- A place on a screen: its column and its row. -/
structure Cell where
  x : Nat
  y : Nat
  deriving DecidableEq, Repr

/-- Whether a cell is on the logical surface of a mode. -/
def Resolution.contains (mode : Resolution) (cell : Cell) : Bool :=
  decide (cell.x < mode.width) && decide (cell.y < mode.height)

/-- What the machine asks of the surface that it draws on. -/
class Screen (δ : Type u) where
  clear : δ → δ
  lit : δ → Cell → Bool
  set : δ → Cell → Bool → δ

end SuperChip
