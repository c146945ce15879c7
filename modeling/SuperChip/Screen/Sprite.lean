import SuperChip.Screen.Basic

/-!
# Sprites

A sprite is a small picture with a place on the surface.  Drawing it turns over
every cell under one of its set pixels; pixels past the right or bottom edge of
the logical surface are cut off and do not wrap.  `mem_cells` says which cells
these are.
-/

namespace SuperChip

universe u

/-- A picture with the cell of its top left pixel. -/
structure Sprite where
  left : Nat
  top : Nat
  width : Nat
  height : Nat
  /-- Whether the pixel in a column and a row is set. -/
  pixel : Nat → Nat → Bool

namespace Sprite

/-- The cells of one row under set pixels, from left to right. -/
def rowCells (sprite : Sprite) (mode : Resolution) (row : Nat) : List Cell :=
  (List.range sprite.width).filterMap fun column =>
    let cell : Cell := ⟨sprite.left + column, sprite.top + row⟩
    if sprite.pixel column row && mode.contains cell then some cell else none

/-- The cells of the logical surface under set pixels, row by row. -/
def cells (sprite : Sprite) (mode : Resolution) : List Cell :=
  (List.range sprite.height).flatMap (sprite.rowCells mode)

/-- A sprite turns over the cells of the surface under its set pixels. -/
theorem mem_cells {sprite : Sprite} {mode : Resolution} {cell : Cell} :
    cell ∈ sprite.cells mode ↔
      ∃ row < sprite.height, ∃ column < sprite.width,
        sprite.pixel column row = true ∧ mode.contains cell = true ∧
          cell = ⟨sprite.left + column, sprite.top + row⟩ := by
  simp only [cells, rowCells, List.mem_flatMap, List.mem_range, List.mem_filterMap]
  constructor
  · rintro ⟨row, rowBelow, column, columnBelow, found⟩
    split at found
    · next covered =>
      obtain rfl := Option.some.inj found
      obtain ⟨isSet, inside⟩ := Bool.and_eq_true_iff.mp covered
      exact ⟨row, rowBelow, column, columnBelow, isSet, inside, rfl⟩
    · exact absurd found (by simp)
  · rintro ⟨row, rowBelow, column, columnBelow, isSet, inside, rfl⟩
    refine ⟨row, rowBelow, column, columnBelow, ?_⟩
    rw [if_pos (Bool.and_eq_true_iff.mpr ⟨isSet, inside⟩)]

end Sprite

/-- A screen after drawing, and whether a cell that was on has been turned off. -/
structure Drawing (δ : Type u) where
  screen : δ
  collision : Bool := false

namespace Drawing

variable {δ : Type u} [Screen δ]

/-- Turn a cell over and remember whether it went dark. -/
def toggle (drawing : Drawing δ) (cell : Cell) : Drawing δ :=
  let wasLit := Screen.lit drawing.screen cell
  { screen := Screen.set drawing.screen cell (!wasLit)
    collision := drawing.collision || wasLit }

/-- Turn cells over, one after the other. -/
def toggleAll (drawing : Drawing δ) (cells : List Cell) : Drawing δ :=
  cells.foldl toggle drawing

@[simp] theorem toggleAll_nil (drawing : Drawing δ) : drawing.toggleAll [] = drawing := rfl

@[simp] theorem toggleAll_cons (drawing : Drawing δ) (cell : Cell) (rest : List Cell) :
    drawing.toggleAll (cell :: rest) = (drawing.toggle cell).toggleAll rest := rfl

end Drawing

end SuperChip
