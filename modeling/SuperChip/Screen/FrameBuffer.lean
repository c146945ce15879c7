import SuperChip.Screen.Basic
import SuperChip.Table

/-!
# The frame buffer

A screen in memory of the size of the high resolution.  Cells outside it read
as off and cannot be set.  `lit_set` and `lit_blank` determine every answer of
a frame buffer from its history, `get_rows` says that its rows show the same,
and `eq_of_lit` that the answers on the surface determine the frame buffer.
-/

namespace SuperChip

/-- The cells of 64 rows of 128, row after row. -/
structure FrameBuffer where
  cells : Vector Bool 8192
  deriving DecidableEq

namespace FrameBuffer

/-- The place of a cell on the surface in the sequence of all cells. -/
def position (cell : Cell) (inside : cell.x < 128 ∧ cell.y < 64) : Fin 8192 :=
  ⟨128 * cell.y + cell.x, by omega⟩

/-- Different cells of the surface have different positions. -/
theorem position_eq_iff {first second : Cell} (firstInside : first.x < 128 ∧ first.y < 64)
    (secondInside : second.x < 128 ∧ second.y < 64) :
    position first firstInside = position second secondInside ↔ first = second := by
  constructor
  · intro same
    have places := congrArg Fin.val same
    simp only [position] at places
    have sameX : first.x = second.x := by omega
    have sameY : first.y = second.y := by omega
    cases first
    cases second
    simp_all only
  · intro same
    subst same
    rfl

/-- A frame buffer on which no cell is lit. -/
def blank : FrameBuffer where
  cells := Vector.replicate 8192 false

/-- Whether a cell is lit; outside the surface none is. -/
def lit (buffer : FrameBuffer) (cell : Cell) : Bool :=
  if inside : cell.x < 128 ∧ cell.y < 64 then
    buffer.cells.get (position cell inside)
  else
    false

/-- Turn a cell on or off; a cell outside the surface stays as it is. -/
def set (buffer : FrameBuffer) (cell : Cell) (on : Bool) : FrameBuffer :=
  if inside : cell.x < 128 ∧ cell.y < 64 then
    { cells := Table.put buffer.cells (position cell inside) on }
  else
    buffer

/-- The frame buffer is a screen. -/
instance : Screen FrameBuffer where
  clear _ := blank
  lit := lit
  set := set

/-- The rows of the surface, top first, each of them the next 128 cells. -/
def rows (buffer : FrameBuffer) : Vector (Vector Bool 128) 64 :=
  Vector.ofFn fun y =>
    (buffer.cells.extract (128 * y.val) (128 * y.val + 128)).cast (by omega)

/-- The number of lit cells. -/
def litCount (buffer : FrameBuffer) : Nat :=
  buffer.cells.count true

/-- No cell outside the surface is lit. -/
theorem lit_eq_false_of_outside (buffer : FrameBuffer) {cell : Cell}
    (outside : ¬ (cell.x < 128 ∧ cell.y < 64)) : buffer.lit cell = false :=
  dif_neg outside

/-- A row shows what the cells of the surface read. -/
theorem get_rows (buffer : FrameBuffer) (y : Fin 64) (x : Fin 128) :
    (buffer.rows.get y).get x = buffer.lit ⟨x.val, y.val⟩ := by
  have row : buffer.rows.get y =
      (buffer.cells.extract (128 * y.val) (128 * y.val + 128)).cast (by omega) :=
    Table.get_ofFn _ y
  have read : buffer.lit ⟨x.val, y.val⟩ =
      buffer.cells.get (position ⟨x.val, y.val⟩ ⟨x.isLt, y.isLt⟩) :=
    dif_pos ⟨x.isLt, y.isLt⟩
  have within : x.val < min (128 * y.val + 128) 8192 - 128 * y.val := by omega
  rw [row, read]
  exact Vector.getElem_extract within

/-- On a blank frame buffer no cell is lit. -/
@[simp] theorem lit_blank (cell : Cell) : blank.lit cell = false := by
  unfold lit
  split
  · exact Table.get_replicate false _
  · rfl

/-- Setting a cell of the surface changes the answer for this cell only. -/
theorem lit_set (buffer : FrameBuffer) (changed : Cell) (on : Bool) (cell : Cell) :
    (buffer.set changed on).lit cell =
      if changed = cell ∧ cell.x < 128 ∧ cell.y < 64 then on else buffer.lit cell := by
  by_cases inside : changed.x < 128 ∧ changed.y < 64
  · simp only [set, inside, and_self, ↓reduceDIte]
    by_cases within : cell.x < 128 ∧ cell.y < 64
    · simp only [lit, within, and_self, ↓reduceDIte, and_true, Table.get_put, position_eq_iff]
    · rw [if_neg fun both => within both.2, lit_eq_false_of_outside _ within,
        lit_eq_false_of_outside _ within]
  · rw [set, dif_neg inside]
    by_cases same : changed = cell
    · subst same
      rw [if_neg fun both => inside both.2]
    · rw [if_neg fun both => same both.1]

/-- The answers on the surface determine a frame buffer. -/
theorem eq_of_lit {first second : FrameBuffer}
    (same : ∀ cell : Cell, cell.x < 128 → cell.y < 64 → first.lit cell = second.lit cell) :
    first = second := by
  cases first with
  | mk firstCells =>
    cases second with
    | mk secondCells =>
      congr
      apply Table.ext
      intro place
      have inside : place.val % 128 < 128 ∧ place.val / 128 < 64 := by omega
      have agree := same ⟨place.val % 128, place.val / 128⟩ inside.1 inside.2
      simpa only [lit, inside, and_self, ↓reduceDIte, position, Nat.div_add_mod] using agree

end FrameBuffer

end SuperChip
