import SuperChip.Proofs.ScreenIndependence

/-!
# Scrolling a frame buffer

A scroll moves the picture in place, cell by cell, in an order in which no cell is overwritten
before it has been copied; so it does what copying all cells at once would do
(`CellMove.lit_foldl_of_mem`, `Scroll.moves_eq`). Many scrolls in one mode move the picture down
by the sum of their rows and sideways by the balance of their columns, less every cell that was off
the surface on the way.

The main statement is `Machine.scrolls_shift`, an induction over the scrolls from what one of them
does (`Scroll.lit_apply_iff`).
-/

namespace SuperChip

universe v

namespace CellMove

variable {moves : List CellMove} (buffer : FrameBuffer)

/-- A move changes its target only, to what its source shows. -/
theorem lit_apply {move : CellMove} (inside : move.target.OnArea) (cell : Cell) :
    (CellMove.apply buffer move).lit cell =
      if move.target = cell then move.source.elim false buffer.lit else buffer.lit cell := by
  have value : CellMove.apply buffer move =
      buffer.set move.target (move.source.elim false buffer.lit) := by
    unfold CellMove.apply
    cases move.source <;> rfl
  rw [value, FrameBuffer.lit_set]
  by_cases same : move.target = cell
  · subst same
    rw [if_pos ⟨rfl, inside⟩, if_pos rfl]
  · rw [if_neg fun both => same both.1, if_neg same]

/-- Moves leave every cell that is not a target of theirs. -/
theorem lit_foldl_of_not_mem {cell : Cell} (elsewhere : cell ∉ moves.map target) :
    (moves.foldl CellMove.apply buffer).lit cell = buffer.lit cell := by
  rw [Stroke.foldl_moves]
  refine FrameBuffer.lit_applyAll_of_untouched (Stroke.clear_not_mem_calls _ _) ?_ buffer
  rw [Stroke.cells_calls, List.map_map]
  exact elsewhere

/-- **Moves in a safe order are carried out as if at once**: none of them reads a cell that an
earlier one has overwritten, and no cell is the target of two. -/
theorem lit_foldl_of_mem (distinct : (moves.map target).Nodup)
    (fresh : moves.Pairwise fun earlier later => later.source ≠ some earlier.target)
    (inside : ∀ move ∈ moves, move.target.OnArea) {move : CellMove} (member : move ∈ moves) :
    (moves.foldl CellMove.apply buffer).lit move.target = move.source.elim false buffer.lit := by
  induction moves generalizing buffer with
  | nil => exact absurd member List.not_mem_nil
  | cons first rest continued =>
    obtain ⟨targetedOnce, distinctRest⟩ := List.nodup_cons.mp distinct
    obtain ⟨unread, freshRest⟩ := List.pairwise_cons.mp fresh
    obtain ⟨here, insideRest⟩ := List.forall_mem_cons.mp inside
    rw [List.foldl_cons]
    rcases List.mem_cons.mp member with rfl | later
    · rw [lit_foldl_of_not_mem _ targetedOnce, lit_apply buffer here, if_pos rfl]
    · rw [continued _ distinctRest freshRest insideRest later]
      cases source : move.source with
      | none => rfl
      | some cell =>
        have different : first.target ≠ cell :=
          fun same => unread move later (source.trans (congrArg some same.symm))
        exact (lit_apply buffer here cell).trans (if_neg different)

end CellMove

namespace Scroll

/-- The rows that a scroll moves the picture down by. -/
def rows : Scroll → Nat
  | down rows => rows.toNat
  | right | left => 0

/-- The rows that scrolls move the picture down by. -/
def depth : List Scroll → Nat
  | [] => 0
  | scroll :: rest => scroll.rows + depth rest

/-- The columns that scrolls move the picture to the right by, on balance. -/
def drift (mode : Resolution) (scrolls : List Scroll) : Int :=
  match mode with
  | .low => 0
  | .high => 4 * ((scrolls.count right : Int) - (scrolls.count left : Int))

@[simp] theorem drift_nil (mode : Resolution) : drift mode [] = 0 := by
  cases mode <;> rfl

/-- The drift of scrolls is that of the first and of the rest together. -/
theorem drift_cons (mode : Resolution) (scroll : Scroll) (rest : List Scroll) :
    drift mode (scroll :: rest) = drift mode [scroll] + drift mode rest := by
  cases mode with
  | low => rfl
  | high =>
    simp only [drift, List.count_cons, List.count_nil]
    omega

section One

variable {scroll : Scroll} {mode : Resolution} {cell : Cell}

/-- A scroll that the resolution ignores moves nothing. -/
theorem still_of_not_works (ignored : scroll.worksIn mode = false) :
    scroll.rows = 0 ∧ drift mode [scroll] = 0 := by
  cases mode with
  | low =>
    cases scroll with
    | down rows => exact absurd ignored (by simp [worksIn])
    | right | left => exact ⟨rfl, rfl⟩
  | high => cases scroll <;> exact absurd ignored (by simp [worksIn])

/-- Where a scroll brings cells from, by its rows and its columns. -/
theorem source?_eq (works : scroll.worksIn mode = true) (inside : mode.contains cell = true)
    {column : Int} (brought : column + drift mode [scroll] = cell.x) :
    scroll.source? mode cell =
      if scroll.rows ≤ cell.y ∧ 0 ≤ column ∧ column < mode.width then
        some ⟨column.toNat, cell.y - scroll.rows⟩
      else none := by
  obtain ⟨within, -⟩ := Resolution.contains_iff.mp inside
  cases scroll with
  | down rows =>
    have still : drift mode [down rows] = 0 := by cases mode <;> rfl
    have there : column.toNat = cell.x := by omega
    rw [there]
    by_cases deep : rows.toNat ≤ cell.y
    · rw [if_pos ⟨deep, by omega, by omega⟩]
      exact if_pos deep
    · rw [if_neg fun all => deep all.1]
      exact if_neg deep
  | right =>
    have rightward : drift mode [right] = 4 := by
      cases mode with
      | low => exact absurd works (by decide)
      | high => rfl
    by_cases far : 4 ≤ cell.x
    · have there : column.toNat = cell.x - 4 := by omega
      rw [if_pos ⟨Nat.zero_le _, by omega, by omega⟩, there]
      exact if_pos far
    · rw [if_neg fun all => far (by omega)]
      exact if_neg far
  | left =>
    have leftward : drift mode [left] = -4 := by
      cases mode with
      | low => exact absurd works (by decide)
      | high => rfl
    by_cases near : cell.x + 4 < mode.width
    · have there : column.toNat = cell.x + 4 := by omega
      rw [if_pos ⟨Nat.zero_le _, by omega, by omega⟩, there]
      exact if_pos near
    · rw [if_neg fun all => near (by omega)]
      exact if_neg near

variable (buffer : FrameBuffer)

/-- A scroll brings to every cell of the surface what was on another one, or nothing. -/
theorem lit_apply_of_works (works : scroll.worksIn mode = true)
    (inside : mode.contains cell = true) :
    (scroll.apply mode buffer).lit cell = (scroll.source? mode cell).elim false buffer.lit := by
  obtain ⟨cells, moved, surface, distinct, ordered⟩ := moves_eq works
  have targets : (scroll.moves mode).map CellMove.target = cells := by
    rw [moved, List.map_map]
    exact List.map_id cells
  have fresh : (scroll.moves mode).Pairwise fun earlier later =>
      later.source ≠ some earlier.target := by
    rw [moved]
    exact List.pairwise_map.mpr (ordered.imp fun unordered brought =>
      unordered (precedes_of_source brought))
  have onArea : ∀ move ∈ scroll.moves mode, move.target.OnArea := fun move member =>
    Cell.onArea_of_contains ((mem_targets_moves works).mp (List.mem_map_of_mem member))
  have member : (⟨cell, scroll.source? mode cell⟩ : CellMove) ∈ scroll.moves mode := by
    rw [moved]
    exact List.mem_map_of_mem ((surface cell).mpr inside)
  exact CellMove.lit_foldl_of_mem buffer (targets ▸ distinct) fresh onArea member

/-- A scroll that the resolution ignores leaves the screen. -/
theorem lit_apply_of_not_works (ignored : scroll.worksIn mode = false) :
    (scroll.apply mode buffer).lit cell = buffer.lit cell := by
  rw [apply, moves_of_not_works ignored]
  rfl

/-- Beyond the surface a scroll changes nothing. -/
theorem lit_apply_of_outside (outside : mode.contains cell = false) :
    (scroll.apply mode buffer).lit cell = buffer.lit cell := by
  cases works : scroll.worksIn mode with
  | false => exact lit_apply_of_not_works buffer works
  | true =>
    refine CellMove.lit_foldl_of_not_mem buffer fun target => ?_
    rw [mem_targets_moves works, outside] at target
    exact Bool.false_ne_true target

/-- **What one scroll does to the surface.** It moves the picture by its rows and its columns and
leaves blank what is brought in from beyond the edges. -/
theorem lit_apply_iff (inside : mode.contains cell = true) {column : Int}
    (brought : column + drift mode [scroll] = cell.x) :
    (scroll.apply mode buffer).lit cell = true ↔
      scroll.rows ≤ cell.y ∧ (0 ≤ column ∧ column < mode.width) ∧
        buffer.lit ⟨column.toNat, cell.y - scroll.rows⟩ = true := by
  cases works : scroll.worksIn mode with
  | false =>
    obtain ⟨noRows, noColumns⟩ := still_of_not_works works
    obtain ⟨within, -⟩ := Resolution.contains_iff.mp inside
    have there : column.toNat = cell.x := by omega
    rw [lit_apply_of_not_works buffer works, noRows, there]
    exact ⟨fun lit => ⟨Nat.zero_le _, by omega, lit⟩, fun all => all.2.2⟩
  | true =>
    rw [lit_apply_of_works buffer works inside, source?_eq works inside brought]
    by_cases found : scroll.rows ≤ cell.y ∧ 0 ≤ column ∧ column < mode.width
    · rw [if_pos found]
      exact ⟨fun lit => ⟨found.1, found.2, lit⟩, fun all => all.2.2⟩
    · rw [if_neg found]
      exact ⟨fun lit => absurd lit Bool.false_ne_true, fun all => absurd ⟨all.1, all.2.1⟩ found⟩

end One

/-- A column of the picture is on the surface at the start and after each of some scrolls. -/
def Keeps (mode : Resolution) (scrolls : List Scroll) (column : Int) : Prop :=
  ∀ count ≤ scrolls.length,
    let place := column + drift mode (scrolls.take count)
    0 ≤ place ∧ place < mode.width

instance (mode : Resolution) (scrolls : List Scroll) (column : Int) :
    Decidable (Keeps mode scrolls column) :=
  inferInstanceAs (Decidable (∀ count ≤ scrolls.length, _ ∧ _))

section Many

variable {mode : Resolution} {scroll : Scroll} {scrolls rest : List Scroll} {column : Int}

theorem Keeps.start (keeps : Keeps mode scrolls column) : 0 ≤ column ∧ column < mode.width := by
  have first := keeps 0 (Nat.zero_le _)
  simpa only [List.take_zero, drift_nil, Int.add_zero] using first

theorem keeps_nil : Keeps mode [] column ↔ 0 ≤ column ∧ column < mode.width := by
  refine ⟨Keeps.start, fun inside count _ => ?_⟩
  simpa only [List.take_nil, drift_nil, Int.add_zero] using inside

/-- A column is kept by scrolls if it is on the surface, and the rest keep the column that the first
moves it to. -/
theorem keeps_cons : Keeps mode (scroll :: rest) column ↔
    (0 ≤ column ∧ column < mode.width) ∧ Keeps mode rest (column + drift mode [scroll]) := by
  have later (count : Nat) : column + drift mode ((scroll :: rest).take (count + 1)) =
      column + drift mode [scroll] + drift mode (rest.take count) := by
    rw [List.take_succ_cons, drift_cons, Int.add_assoc]
  constructor
  · intro keeps
    refine ⟨keeps.start, fun count within => ?_⟩
    rw [← later]
    exact keeps (count + 1) (Nat.succ_le_succ within)
  · rintro ⟨inside, keeps⟩ count within
    cases count with
    | zero => simpa only [List.take_zero, drift_nil, Int.add_zero] using inside
    | succ count =>
      rw [later]
      exact keeps count (Nat.le_of_succ_le_succ within)

/-- Scrolls on a frame buffer, one after the other. -/
def applyAll (scrolls : List Scroll) (mode : Resolution) (buffer : FrameBuffer) : FrameBuffer :=
  scrolls.foldl (fun before scroll => scroll.apply mode before) buffer

theorem applyAll_cons (buffer : FrameBuffer) : applyAll (scroll :: rest) mode buffer =
    applyAll rest mode (scroll.apply mode buffer) := rfl

/-- Scrolls leave all cells off the surface. -/
theorem lit_applyAll_of_outside {cell : Cell} (outside : mode.contains cell = false)
    (buffer : FrameBuffer) : (applyAll scrolls mode buffer).lit cell = buffer.lit cell := by
  induction scrolls generalizing buffer with
  | nil => rfl
  | cons scroll rest continued =>
    rw [applyAll_cons, continued, lit_apply_of_outside buffer outside]

/-- **What scrolls do to the surface**: a cell shows what was above and beside it by all of their
rows and columns, if that was never off the surface in between. -/
theorem lit_applyAll_iff {cell : Cell} (inside : mode.contains cell = true)
    (brought : column + drift mode scrolls = cell.x) (buffer : FrameBuffer) :
    (applyAll scrolls mode buffer).lit cell = true ↔
      depth scrolls ≤ cell.y ∧ Keeps mode scrolls column ∧
        buffer.lit ⟨column.toNat, cell.y - depth scrolls⟩ = true := by
  obtain ⟨within, above⟩ := Resolution.contains_iff.mp inside
  induction scrolls generalizing buffer column with
  | nil =>
    rw [drift_nil, Int.add_zero] at brought
    have there : column.toNat = cell.x := by omega
    rw [keeps_nil, there]
    exact ⟨fun lit => ⟨Nat.zero_le _, by omega, lit⟩, fun all => all.2.2⟩
  | cons scroll rest continued =>
    rw [drift_cons, ← Int.add_assoc] at brought
    rw [applyAll_cons, continued brought, keeps_cons, depth]
    have first (keeps : Keeps mode rest (column + drift mode [scroll])) :
        (scroll.apply mode buffer).lit
            ⟨(column + drift mode [scroll]).toNat, cell.y - depth rest⟩ = true ↔
          scroll.rows ≤ cell.y - depth rest ∧ (0 ≤ column ∧ column < mode.width) ∧
            buffer.lit ⟨column.toNat, cell.y - depth rest - scroll.rows⟩ = true := by
      have start := keeps.start
      have left : (column + drift mode [scroll]).toNat < mode.width := by omega
      have onSurface := Nat.lt_of_le_of_lt (Nat.sub_le cell.y (depth rest)) above
      exact lit_apply_iff buffer (Resolution.contains_iff.mpr ⟨left, onSurface⟩)
        (Int.toNat_of_nonneg start.1).symm
    constructor
    · rintro ⟨deep, keeps, lit⟩
      obtain ⟨deepToo, entering, lit⟩ := (first keeps).mp lit
      refine ⟨by omega, ⟨entering, keeps⟩, ?_⟩
      rwa [Nat.add_comm, ← Nat.sub_sub]
    · rintro ⟨deep, ⟨entering, keeps⟩, lit⟩
      refine ⟨by omega, keeps, (first keeps).mpr ⟨by omega, entering, ?_⟩⟩
      rwa [Nat.sub_sub, Nat.add_comm]

end Many

end Scroll

namespace Machine

variable {κ : Type v} [KeySource κ]

/-- A machine that carries out scrolls keeps its resolution and scrolls its screen. -/
theorem carryOutAll_scrolls (machine : Machine FrameBuffer κ) (scrolls : List Scroll) :
    let after := machine.carryOutAll (scrolls.map .scroll)
    after.state.resolution = machine.state.resolution ∧
      after.screen = Scroll.applyAll scrolls machine.state.resolution machine.screen := by
  induction scrolls generalizing machine with
  | nil => exact ⟨rfl, rfl⟩
  | cons scroll rest continued =>
    have kept : Component.resolution.Agrees (machine.carryOut (.scroll scroll)).state
        machine.state := machine.agrees_carryOut fun _ owned => Component.noConfusion owned.1
    have mode : (machine.carryOut (.scroll scroll)).state.resolution =
        machine.state.resolution := kept
    obtain ⟨sameMode, screen⟩ := continued (machine.carryOut (.scroll scroll))
    rw [mode] at sameMode screen
    exact ⟨sameMode, screen⟩

/-- **Scrolls shift the picture as a whole.** After scrolls in one mode, a cell of the surface is lit
exactly if the picture had a lit cell above it by the sum of the rows and beside it by the balance
of the columns, and this cell was on the surface before, between and after all scrolls. Beyond the
surface nothing changes. -/
theorem scrolls_shift (machine : Machine FrameBuffer κ) (scrolls : List Scroll) :
    let mode := machine.state.resolution
    let after := machine.carryOutAll (scrolls.map .scroll)
    after.state.resolution = mode ∧
    ∀ cell : Cell,
      (mode.contains cell = true →
        let column : Int := cell.x - Scroll.drift mode scrolls
        (after.screen.lit cell = true ↔
          Scroll.depth scrolls ≤ cell.y ∧ Scroll.Keeps mode scrolls column ∧
            machine.screen.lit ⟨column.toNat, cell.y - Scroll.depth scrolls⟩ = true)) ∧
      (mode.contains cell = false → after.screen.lit cell = machine.screen.lit cell) := by
  intro mode after
  obtain ⟨sameMode, screen⟩ := machine.carryOutAll_scrolls scrolls
  have shown : after.screen = Scroll.applyAll scrolls mode machine.screen := screen
  refine ⟨sameMode, fun cell => ⟨fun inside => ?_, fun outside => ?_⟩⟩
  · rw [shown]
    exact Scroll.lit_applyAll_iff inside (Int.sub_add_cancel _ _) machine.screen
  · rw [shown]
    exact Scroll.lit_applyAll_of_outside outside machine.screen

/-- A machine in high resolution with two cells lit in the top row, one of them near the edge. -/
def twinkling : Machine FrameBuffer Keypad where
  state := { State.initial with resolution := .high }
  screen := (FrameBuffer.blank.set ⟨2, 0⟩ true).set ⟨5, 0⟩ true
  keys := KeyPad.released
  random := { key := Vector.replicate 8 0 }
  timing := Timing.standard

/-- A scroll to the left and one back take the cell near the edge away, and the other one comes down
in its own column. -/
theorem scrolls_shift_twinkling :
    let after := twinkling.carryOutAll ([.left, .right, .down 3].map .scroll)
    twinkling.screen.lit ⟨2, 0⟩ = true ∧ twinkling.screen.lit ⟨5, 0⟩ = true ∧
      after.screen.lit ⟨2, 3⟩ = false ∧ after.screen.lit ⟨5, 3⟩ = true ∧
      after.screen.lit ⟨5, 0⟩ = false := by
  intro after
  obtain ⟨-, cells⟩ := scrolls_shift twinkling [.left, .right, .down 3]
  have near : twinkling.screen.lit ⟨2, 0⟩ = true :=
    (FrameBuffer.lit_set _ ⟨5, 0⟩ true ⟨2, 0⟩).trans (FrameBuffer.lit_set _ ⟨2, 0⟩ true ⟨2, 0⟩)
  have far : twinkling.screen.lit ⟨5, 0⟩ = true := FrameBuffer.lit_set _ ⟨5, 0⟩ true ⟨5, 0⟩
  refine ⟨near, far, ?_, ((cells ⟨5, 3⟩).1 rfl).mpr ⟨by decide, by decide, far⟩, ?_⟩
  · refine Bool.eq_false_iff.mpr fun lit => ?_
    obtain ⟨-, keeps, -⟩ := ((cells ⟨2, 3⟩).1 rfl).mp lit
    exact absurd keeps (by decide)
  · refine Bool.eq_false_iff.mpr fun lit => ?_
    obtain ⟨deep, -⟩ := ((cells ⟨5, 0⟩).1 rfl).mp lit
    exact absurd deep (by decide)

end Machine

end SuperChip
