import Mathlib.Data.Fintype.Fin
import SuperChip.Proofs.Histories
import SuperChip.Proofs.Strokes
import SuperChip.Screen.FrameBuffer

/-!
# Frame buffers as sets of points

A frame buffer is the set of its points: the cells that are on. A set of cells is a screen of its
own, on which turning a cell of the surface on inserts it and turning it off erases it, and the
points of a frame buffer follow its calls as such a set does. So what a frame buffer reads, shows
row by row and counts is one set, and of a cell only the last call since a clear matters.

The main statement is `FrameBuffer.refines_points`, for every sequence of calls on a blank frame
buffer and for cells anywhere. It follows from the law of one call, `FrameBuffer.points_apply`, and
from `Points.mem_applyAll_iff` about sets alone.
-/

namespace SuperChip

universe u

/-- As many places of a table have an entry as the table counts. -/
theorem Table.card_filter_get {α : Type u} [DecidableEq α] {size : Nat} (table : Vector α size)
    (entry : α) :
    (Finset.univ.filter fun place : Fin size => table.get place = entry).card =
      table.count entry := by
  have counted := Fin.card_filter_univ_eq_vector_get_eq_count entry
    (⟨table.toList, Vector.length_toList⟩ : List.Vector α size)
  exact counted.trans Vector.count_toList

namespace ScreenCall

/-- Whether a call clears. -/
def clears : ScreenCall → Bool
  | clear => true
  | set _ _ => false

/-- What a call sets a cell to, if it sets this one. -/
def puts? (cell : Cell) : ScreenCall → Option Bool
  | clear => none
  | set changed on => if changed = cell then some on else none

end ScreenCall

namespace Points

/-- A set of cells as a screen: of the cells of the surface it has those that are on. -/
instance : Screen (Finset Cell) where
  clear _ := ∅
  lit points cell := decide (cell ∈ points)
  set points cell on :=
    if cell.x < 128 ∧ cell.y < 64 then
      match on with
      | true => insert cell points
      | false => points.erase cell
    else
      points

/-- Setting a cell of the surface changes the answer for this cell only. -/
theorem lit_set (points : Finset Cell) (changed : Cell) (on : Bool) (cell : Cell) :
    Screen.lit (Screen.set points changed on) cell =
      if changed = cell ∧ cell.x < 128 ∧ cell.y < 64 then on else Screen.lit points cell := by
  by_cases inside : changed.x < 128 ∧ changed.y < 64
  · have set : Screen.set points changed on =
        match on with
        | true => insert changed points
        | false => points.erase changed := if_pos inside
    rw [set]
    by_cases same : changed = cell
    · subst same
      rw [if_pos ⟨rfl, inside⟩]
      cases on with
      | true => exact decide_eq_true (Finset.mem_insert_self changed points)
      | false => exact decide_eq_false (Finset.notMem_erase changed points)
    · have other : cell ≠ changed := fun equal => same equal.symm
      rw [if_neg fun both => same both.1]
      apply decide_eq_decide.mpr
      cases on with
      | true => exact Finset.mem_insert.trans (or_iff_right other)
      | false => exact Finset.mem_erase.trans (and_iff_right other)
  · have unset : Screen.set points changed on = points := if_neg inside
    rw [unset, if_neg]
    rintro ⟨rfl, within⟩
    exact inside within

/-- What a call makes of a cell of the surface. -/
theorem lit_apply {cell : Cell} (inside : cell.x < 128 ∧ cell.y < 64) (points : Finset Cell)
    (call : ScreenCall) :
    Screen.lit (call.apply points) cell =
      if call.clears then false else (call.puts? cell).getD (Screen.lit points cell) := by
  cases call with
  | clear => rfl
  | set changed on =>
    refine (lit_set points changed on cell).trans ?_
    change _ = (if changed = cell then some on else none).getD (Screen.lit points cell)
    by_cases same : changed = cell
    · rw [if_pos ⟨same, inside⟩, if_pos same, Option.getD_some]
    · rw [if_neg fun both => same both.1, if_neg same, Option.getD_none]

/-- **A cell of the surface is in the set if, since the last clear, it was set on last.** -/
theorem mem_applyAll_iff {cell : Cell} (inside : cell.x < 128 ∧ cell.y < 64)
    (calls : List ScreenCall) :
    cell ∈ ScreenCall.applyAll calls (∅ : Finset Cell) ↔
      (History.putSince ScreenCall.clears (ScreenCall.puts? cell) calls).getLast? = some true := by
  let shown (calls : List ScreenCall) : Bool :=
    Screen.lit (ScreenCall.applyAll calls (∅ : Finset Cell)) cell
  have first : shown [] = false := decide_eq_false (Finset.notMem_empty cell)
  have next (calls : List ScreenCall) (call : ScreenCall) : shown (calls ++ [call]) =
      if call.clears then false else (call.puts? cell).getD (shown calls) := by
    dsimp only [shown]
    rw [ScreenCall.applyAll_concat, lit_apply inside]
  have history := History.on_iff_getLast?_putSince first next calls
  exact decide_eq_true_iff.symm.trans history

end Points

namespace FrameBuffer

/-- The cell at a place of the sequence of all cells. -/
def cellAt (place : Fin 8192) : Cell where
  x := place.val % 128
  y := place.val / 128

/-- Every place of the buffer is that of a cell inside. -/
theorem cellAt_inside (place : Fin 8192) : (cellAt place).x < 128 ∧ (cellAt place).y < 64 := by
  dsimp only [cellAt]
  omega

theorem position_cellAt (place : Fin 8192) :
    position (cellAt place) (cellAt_inside place) = place :=
  Fin.ext (Nat.div_add_mod place.val 128)

theorem cellAt_position {cell : Cell} (inside : cell.x < 128 ∧ cell.y < 64) :
    cellAt (position cell inside) = cell :=
  (position_eq_iff (cellAt_inside _) inside).mp (position_cellAt _)

theorem cellAt_injective : Function.Injective cellAt := by
  intro first second same
  rw [← position_cellAt first, ← position_cellAt second]
  exact (position_eq_iff (cellAt_inside first) (cellAt_inside second)).mpr same

variable (buffer : FrameBuffer)

/-- The cells that are on. -/
def points : Finset Cell :=
  (Finset.univ.filter fun place => buffer.cells.get place = true).map ⟨cellAt, cellAt_injective⟩

/-- A cell is lit if the buffer has its place set. -/
theorem lit_cellAt (place : Fin 8192) : buffer.lit (cellAt place) = buffer.cells.get place := by
  rw [lit, dif_pos (cellAt_inside place), position_cellAt]

/-- Only cells inside are ever lit. -/
theorem inside_of_lit {cell : Cell} (on : buffer.lit cell = true) : cell.x < 128 ∧ cell.y < 64 := by
  apply Classical.byContradiction
  intro outside
  rw [lit_eq_false_of_outside buffer outside] at on
  exact Bool.noConfusion on

/-- The points of a buffer are its lit cells. -/
theorem mem_points (cell : Cell) : cell ∈ buffer.points ↔ buffer.lit cell = true := by
  constructor
  · intro member
    obtain ⟨place, on, rfl⟩ := Finset.mem_map.mp member
    exact (buffer.lit_cellAt place).trans (Finset.mem_filter.mp on).2
  · intro on
    have inside := buffer.inside_of_lit on
    rw [← cellAt_position inside, lit_cellAt] at on
    apply Finset.mem_map.mpr
    exact ⟨position cell inside, Finset.mem_filter.mpr ⟨Finset.mem_univ _, on⟩,
      cellAt_position inside⟩

/-- A buffer counts its points. -/
theorem card_points : buffer.points.card = buffer.litCount := by
  rw [points, Finset.card_map]
  exact Table.card_filter_get buffer.cells true

/-- The points determine a frame buffer. -/
theorem eq_of_points {first second : FrameBuffer} (same : first.points = second.points) :
    first = second := by
  apply eq_of_lit
  intro cell _ _
  apply Bool.eq_iff_iff.mpr
  rw [← mem_points, ← mem_points, same]

/-- A blank buffer has no points. -/
theorem points_blank : blank.points = ∅ := by
  apply Finset.eq_empty_of_forall_notMem
  intro cell member
  rw [mem_points, lit_blank] at member
  exact Bool.noConfusion member

/-- A frame buffer is blank if it counts no cell. -/
theorem eq_blank_iff : buffer = blank ↔ buffer.litCount = 0 := by
  rw [← card_points, Finset.card_eq_zero]
  constructor
  · rintro rfl
    exact points_blank
  · intro empty
    exact eq_of_points (empty.trans points_blank.symm)

/-- **A frame buffer follows a call as the set of its points does.** -/
theorem points_apply (call : ScreenCall) :
    (call.apply buffer).points = call.apply buffer.points := by
  cases call with
  | clear => exact points_blank
  | set changed on =>
    ext cell
    have before : buffer.lit cell = Screen.lit buffer.points cell := by
      apply Bool.eq_iff_iff.mpr
      exact (buffer.mem_points cell).symm.trans decide_eq_true_iff.symm
    have after : (buffer.set changed on).lit cell =
        Screen.lit (Screen.set buffer.points changed on) cell := by
      rw [lit_set, Points.lit_set, before]
    refine (mem_points _ cell).trans ?_
    exact (Bool.eq_iff_iff.mp after).trans decide_eq_true_iff

/-- The points after some calls are those of the screen of points after the same calls. -/
theorem points_applyAll (calls : List ScreenCall) :
    (ScreenCall.applyAll calls buffer).points = ScreenCall.applyAll calls buffer.points := by
  induction calls generalizing buffer with
  | nil => rfl
  | cons call rest continued =>
    rw [ScreenCall.applyAll_cons, ScreenCall.applyAll_cons, continued, points_apply]

/-- **A frame buffer is a set of points.** After any calls on a blank frame buffer the cells that
read on are those of the set that received the same calls: the cells of the surface that, since the
last clear, were set on last. The rows, which are sixty-four of a hundred and twenty-eight cells,
show the same, the count of lit cells is the size of the set, and the frame buffer is blank again
exactly if that is zero. A cell beyond the surface stands for no other: setting it does nothing, it
reads off, and setting any cell leaves all others as they are. -/
theorem refines_points (calls : List ScreenCall) :
    let buffer := ScreenCall.applyAll calls blank
    let points := ScreenCall.applyAll calls (∅ : Finset Cell)
    (∀ cell, buffer.lit cell = true ↔ cell ∈ points) ∧
    (∀ cell, cell ∈ points ↔ cell.x < 128 ∧ cell.y < 64 ∧
      (History.putSince ScreenCall.clears (ScreenCall.puts? cell) calls).getLast? = some true) ∧
    (∀ (y : Fin 64) (x : Fin 128),
      (buffer.rows.get y).get x = buffer.lit ⟨x.val, y.val⟩) ∧
    buffer.litCount = points.card ∧
    (buffer = blank ↔ buffer.litCount = 0) ∧
    ∀ (changed : Cell) (on : Bool),
      (¬ (changed.x < 128 ∧ changed.y < 64) →
        buffer.set changed on = buffer ∧ buffer.lit changed = false) ∧
      ∀ cell, cell ≠ changed → (buffer.set changed on).lit cell = buffer.lit cell := by
  intro buffer points
  have same : buffer.points = points := by
    refine (blank.points_applyAll calls).trans ?_
    rw [points_blank]
  have reads (cell : Cell) : buffer.lit cell = true ↔ cell ∈ points := by
    rw [← same, mem_points]
  refine ⟨reads, ?_, buffer.get_rows, ?_, buffer.eq_blank_iff, ?_⟩
  · intro cell
    constructor
    · intro member
      have inside := buffer.inside_of_lit ((reads cell).mpr member)
      exact ⟨inside.1, inside.2, (Points.mem_applyAll_iff inside calls).mp member⟩
    · rintro ⟨column, row, last⟩
      exact (Points.mem_applyAll_iff ⟨column, row⟩ calls).mpr last
  · rw [← same, card_points]
  · intro changed on
    constructor
    · intro outside
      exact ⟨dif_neg outside, buffer.lit_eq_false_of_outside outside⟩
    · intro cell other
      rw [lit_set, if_neg fun both => other both.1.symm]

/-- The cell right of the end of the fifth row is not the first of the sixth, and a picture that was
cleared does not come back. -/
theorem refines_points_past_edge :
    let calls : List ScreenCall :=
      [.set ⟨3, 1⟩ true, .clear, .set ⟨127, 63⟩ true, .set ⟨5, 2⟩ true, .set ⟨128, 4⟩ true,
        .set ⟨5, 2⟩ false, .set ⟨5, 2⟩ true]
    let buffer := ScreenCall.applyAll calls blank
    ¬ ((128 : Nat) < 128 ∧ (4 : Nat) < 64) ∧
      buffer.set ⟨128, 4⟩ true = buffer ∧
      (⟨0, 5⟩ : Cell) ≠ ⟨128, 4⟩ ∧
      (buffer.set ⟨128, 4⟩ true).lit ⟨0, 5⟩ = buffer.lit ⟨0, 5⟩ ∧
      buffer.lit ⟨0, 5⟩ ≠ true ∧ buffer.lit ⟨3, 1⟩ ≠ true ∧ buffer.lit ⟨5, 2⟩ = true ∧
      (buffer.rows.get 2).get 5 = true ∧ buffer.litCount = 2 ∧ buffer ≠ blank := by
  intro calls buffer
  obtain ⟨reads, members, rows, count, blank, changes⟩ := refines_points calls
  obtain ⟨ignored, others⟩ := changes ⟨128, 4⟩ true
  have outside : ¬ ((128 : Nat) < 128 ∧ (4 : Nat) < 64) := fun both => Nat.lt_irrefl 128 both.1
  have other : (⟨0, 5⟩ : Cell) ≠ ⟨128, 4⟩ := by decide
  have unlit (cell : Cell) (absent : cell ∉ ScreenCall.applyAll calls (∅ : Finset Cell)) :
      buffer.lit cell ≠ true := fun on => absent ((reads cell).mp on)
  have shown : buffer.lit ⟨5, 2⟩ = true :=
    (reads _).mpr ((members _).mpr ⟨by decide, by decide, rfl⟩)
  have two : buffer.litCount = 2 := count.trans rfl
  refine ⟨outside, (ignored outside).1, other, others _ other, ?_, ?_, shown,
    (rows 2 5).trans shown, two, ?_⟩
  · exact unlit _ (by decide)
  · exact unlit _ (by decide)
  · intro same
    rw [blank.mp same] at two
    exact absurd two (by decide)

end FrameBuffer

end SuperChip
