import SuperChip.Operation.Basic
import SuperChip.Screen.Basic

/-!
# Shifting the picture

A scroll replaces every cell of the logical surface by the cell some rows above
or some columns beside it, and by a blank where there is none.  The order is
such that no cell is overwritten before it has been copied, so the picture can
be shifted in place.

Sideways scrolls work in the high resolution only.
-/

namespace SuperChip

universe u

/-- The replacement of one cell, by another cell or by a blank. -/
structure CellMove where
  target : Cell
  source : Option Cell
  deriving DecidableEq, Repr

namespace CellMove

variable {δ : Type u} [Screen δ]

/-- Carry out a move: the target takes the light of the source, and goes dark without one. -/
def apply (screen : δ) (move : CellMove) : δ :=
  let on :=
    match move.source with
    | some cell => Screen.lit screen cell
    | none => false
  Screen.set screen move.target on

end CellMove

namespace Scroll

/-- The columns that a sideways scroll moves the picture by. -/
def columns : Nat := 4

/-- Whether a scroll has an effect in a mode. -/
def worksIn : Scroll → Resolution → Bool
  | down _, _ => true
  | right, mode => mode == .high
  | left, mode => mode == .high

/-- The replacements of a shift down, lowest row first. -/
def movesDown (rows : Nat) (mode : Resolution) : List CellMove :=
  (List.range mode.height).reverse.flatMap fun y =>
    (List.range mode.width).map fun x =>
      { target := ⟨x, y⟩
        source := if rows ≤ y then some ⟨x, y - rows⟩ else none }

/-- The replacements of a shift to the right, rightmost column of each row first. -/
def movesRight (mode : Resolution) : List CellMove :=
  (List.range mode.height).flatMap fun y =>
    (List.range mode.width).reverse.map fun x =>
      { target := ⟨x, y⟩
        source := if columns ≤ x then some ⟨x - columns, y⟩ else none }

/-- The replacements of a shift to the left, leftmost column of each row first. -/
def movesLeft (mode : Resolution) : List CellMove :=
  (List.range mode.height).flatMap fun y =>
    (List.range mode.width).map fun x =>
      { target := ⟨x, y⟩
        source := if x + columns < mode.width then some ⟨x + columns, y⟩ else none }

/-- The replacements of a scroll, in the order in which they happen. -/
def moves (scroll : Scroll) (mode : Resolution) : List CellMove :=
  if scroll.worksIn mode then
    match scroll with
    | down rows => movesDown rows.toNat mode
    | right => movesRight mode
    | left => movesLeft mode
  else
    []

/-- A screen with its picture shifted. -/
def apply {δ : Type u} [Screen δ] (scroll : Scroll) (mode : Resolution) (screen : δ) : δ :=
  (scroll.moves mode).foldl CellMove.apply screen

end Scroll

end SuperChip
