import SuperChip.Operation.Effect
import SuperChip.Screen.Recorded

/-!
# Strokes

Whatever an operation does to the screen beyond clearing it comes down to strokes: it reads one
cell or none and sets one cell. Strokes are the same for every screen; the values they set
depend on what the screen answers.

The main statements are `Operation.screen_paint_eq`, that painting is carrying out the calls of the
strokes, `Stroke.calls_congr`, that screens which answer alike receive the same calls, and the
geometry of the strokes: `Operation.inside_of_mem_strokes`, `Operation.nodup_targets_strokes` and
`Scroll.mem_targets_moves`.
-/

namespace SuperChip

universe u v

namespace ScreenCall

/-- The cell that a call sets. -/
def cell? : ScreenCall → Option Cell
  | clear => none
  | set cell _ => some cell

/-- Whether a call turns a cell off. -/
def turnsOff : ScreenCall → Bool
  | clear => false
  | set _ on => !on

variable {δ : Type u} [Screen δ]

/-- What a call makes of a screen. -/
def apply (screen : δ) : ScreenCall → δ
  | clear => Screen.clear screen
  | set cell on => Screen.set screen cell on

/-- A screen after some calls. -/
def applyAll (calls : List ScreenCall) (screen : δ) : δ :=
  calls.foldl apply screen

theorem applyAll_cons (call : ScreenCall) (rest : List ScreenCall) (screen : δ) :
    applyAll (call :: rest) screen = applyAll rest (call.apply screen) := rfl

theorem applyAll_concat (calls : List ScreenCall) (call : ScreenCall) (screen : δ) :
    applyAll (calls ++ [call]) screen = call.apply (applyAll calls screen) :=
  List.foldl_append

/-- A recorded screen carries out the calls and remembers them. -/
theorem applyAll_recorded (calls : List ScreenCall) (recorded : Recorded δ) :
    (applyAll calls recorded).screen = applyAll calls recorded.screen ∧
      (applyAll calls recorded).calls.toList = recorded.calls.toList ++ calls := by
  induction calls generalizing recorded with
  | nil => exact ⟨rfl, (List.append_nil _).symm⟩
  | cons call rest continued =>
    have one : (call.apply recorded).screen = call.apply recorded.screen ∧
        (call.apply recorded).calls = recorded.calls.push call := by
      cases call <;> exact ⟨rfl, rfl⟩
    obtain ⟨screen, calls⟩ := continued (call.apply recorded)
    rw [applyAll_cons, applyAll_cons, screen, calls, one.1, one.2, Array.toList_push,
      List.append_assoc]
    exact ⟨rfl, rfl⟩

end ScreenCall

/-- A change of one cell to what another cell shows, or to off, possibly turned over. -/
structure Stroke where
  target : Cell
  source : Option Cell
  turned : Bool

namespace Stroke

/-- The replacement of a cell as a stroke. -/
def ofMove (move : CellMove) : Stroke where
  target := move.target
  source := move.source
  turned := false

/-- Turning a cell over as a stroke. -/
def ofToggle (cell : Cell) : Stroke where
  target := cell
  source := some cell
  turned := true

section Calls

variable {δ : Type u} [Screen δ]

/-- The call that a stroke makes on a screen. -/
def call (screen : δ) (stroke : Stroke) : ScreenCall :=
  .set stroke.target (stroke.source.elim false (Screen.lit screen) != stroke.turned)

/-- The calls that strokes make one after the other. -/
def calls (screen : δ) : List Stroke → List ScreenCall
  | [] => []
  | stroke :: rest => stroke.call screen :: calls ((stroke.call screen).apply screen) rest

/-- Strokes set their targets in order. -/
theorem cells_calls (screen : δ) (strokes : List Stroke) :
    (calls screen strokes).filterMap ScreenCall.cell? = strokes.map target := by
  induction strokes generalizing screen with
  | nil => rfl
  | cons stroke rest continued => exact congrArg (stroke.target :: ·) (continued _)

/-- They do not clear. -/
theorem clear_not_mem_calls (screen : δ) (strokes : List Stroke) :
    .clear ∉ calls screen strokes := by
  induction strokes generalizing screen with
  | nil => exact List.not_mem_nil
  | cons stroke rest continued =>
    intro called
    rcases List.mem_cons.mp called with first | later
    · exact ScreenCall.noConfusion first
    · exact continued _ later

/-- Moving cells one after the other makes the calls of their strokes. -/
theorem foldl_moves (screen : δ) (moves : List CellMove) :
    moves.foldl CellMove.apply screen =
      ScreenCall.applyAll (calls screen (moves.map ofMove)) screen := by
  induction moves generalizing screen with
  | nil => rfl
  | cons move rest continued =>
    have one : CellMove.apply screen move = ((ofMove move).call screen).apply screen := by
      unfold CellMove.apply ofMove call ScreenCall.apply
      cases move.source <;> simp
    rw [List.foldl_cons, continued, one]
    rfl

/-- So does turning cells over, which collides if a call turns a cell off. -/
theorem toggleAll_eq (drawing : Drawing δ) (cells : List Cell) :
    (drawing.toggleAll cells).screen =
        ScreenCall.applyAll (calls drawing.screen (cells.map ofToggle)) drawing.screen ∧
      (drawing.toggleAll cells).collision =
        (drawing.collision ||
          (calls drawing.screen (cells.map ofToggle)).any ScreenCall.turnsOff) := by
  induction cells generalizing drawing with
  | nil => exact ⟨rfl, (Bool.or_false _).symm⟩
  | cons cell rest continued =>
    have one : (drawing.toggle cell).screen =
        ((ofToggle cell).call drawing.screen).apply drawing.screen := by
      simp [Drawing.toggle, call, ofToggle, ScreenCall.apply]
    have hit : (drawing.toggle cell).collision =
        (drawing.collision || ((ofToggle cell).call drawing.screen).turnsOff) := by
      simp [Drawing.toggle, call, ofToggle, ScreenCall.turnsOff]
    obtain ⟨screen, collision⟩ := continued (drawing.toggle cell)
    rw [Drawing.toggleAll_cons, screen, collision, one, hit, Bool.or_assoc]
    exact ⟨rfl, rfl⟩

/-- The calls of strokes on a recorded screen are those on the screen behind it. -/
theorem calls_recorded (recorded : Recorded δ) (strokes : List Stroke) :
    calls recorded strokes = calls recorded.screen strokes := by
  induction strokes generalizing recorded with
  | nil => rfl
  | cons stroke rest continued =>
    exact congrArg (stroke.call recorded.screen :: ·) (continued _)

/-- **Screens that answer alike receive the same calls.** They need to agree only on the surface
of a mode that the strokes read, and only as long as the calls last. -/
theorem calls_congr {ε : Type v} [Screen ε] {mode : Resolution} (first : δ) (second : ε)
    (strokes : List Stroke)
    (reads : ∀ stroke ∈ strokes, ∀ cell, stroke.source = some cell → mode.contains cell = true)
    (agree : ∀ done, done <+: calls first strokes → ∀ cell, mode.contains cell = true →
      Screen.lit (ScreenCall.applyAll done first) cell =
        Screen.lit (ScreenCall.applyAll done second) cell) :
    calls second strokes = calls first strokes := by
  induction strokes generalizing first second with
  | nil => rfl
  | cons stroke rest continued =>
    have here : stroke.call second = stroke.call first := by
      unfold call
      cases source : stroke.source with
      | none => rfl
      | some cell =>
        have inside := reads stroke List.mem_cons_self cell source
        have same : Screen.lit first cell = Screen.lit second cell :=
          agree [] (List.nil_prefix) cell inside
        simp only [Option.elim_some, same]
    have later := continued ((stroke.call first).apply first) ((stroke.call first).apply second)
      (fun other member => reads other (List.mem_cons_of_mem stroke member))
      fun done part => agree (stroke.call first :: done) (List.cons_prefix_cons.mpr ⟨rfl, part⟩)
    rw [calls, calls, here, later]

end Calls

end Stroke

/-- The cells in some rows and columns, row by row. -/
def Cell.grid (rows columns : List Nat) : List Cell :=
  rows.flatMap fun y => columns.map fun x => ⟨x, y⟩

/-- A grid holds the cells of its rows and columns. -/
theorem Cell.mem_grid {rows columns : List Nat} {cell : Cell} :
    cell ∈ grid rows columns ↔ cell.y ∈ rows ∧ cell.x ∈ columns := by
  simp only [grid, List.mem_flatMap, List.mem_map]
  constructor
  · rintro ⟨y, row, x, column, rfl⟩
    exact ⟨row, column⟩
  · rintro ⟨row, column⟩
    exact ⟨cell.y, row, cell.x, column, rfl⟩

/-- A grid is ordered if each of its rows is and its rows are ordered among each other. -/
theorem Cell.pairwise_grid {rows columns : List Nat} {before : Cell → Cell → Prop}
    (inRow : ∀ y, columns.Pairwise fun x x' => before ⟨x, y⟩ ⟨x', y⟩)
    (byRow : rows.Pairwise fun y y' => ∀ x x', before ⟨x, y⟩ ⟨x', y'⟩) :
    (grid rows columns).Pairwise before := by
  refine List.pairwise_flatMap.mpr ⟨fun y _ => List.pairwise_map.mpr (inRow y), ?_⟩
  refine byRow.imp fun ordered first inFirst second inSecond => ?_
  obtain ⟨x, -, rfl⟩ := List.mem_map.mp inFirst
  obtain ⟨x', -, rfl⟩ := List.mem_map.mp inSecond
  exact ordered x x'

/-- A grid of different rows and columns holds no cell twice. -/
theorem Cell.nodup_grid {rows columns : List Nat} (distinctRows : rows.Nodup)
    (distinctColumns : columns.Nodup) : (grid rows columns).Nodup := by
  refine pairwise_grid (fun y => distinctColumns.imp ?_) (distinctRows.imp ?_)
  · exact fun different same => different (congrArg Cell.x same)
  · exact fun different x x' same => different (congrArg Cell.y same)

/-- The surface of a mode is a rectangle at the origin. -/
theorem Resolution.contains_iff {mode : Resolution} {cell : Cell} :
    mode.contains cell = true ↔ cell.x < mode.width ∧ cell.y < mode.height := by
  simp [contains]

namespace Scroll

variable {scroll : Scroll} {mode : Resolution} {cell source : Cell}

/-- The cell that a scroll brings to another one. -/
def source? (scroll : Scroll) (mode : Resolution) (cell : Cell) : Option Cell :=
  match scroll with
  | down rows => if rows.toNat ≤ cell.y then some ⟨cell.x, cell.y - rows.toNat⟩ else none
  | right => if columns ≤ cell.x then some ⟨cell.x - columns, cell.y⟩ else none
  | left => if cell.x + columns < mode.width then some ⟨cell.x + columns, cell.y⟩ else none

/-- Where what a scroll brings to a cell can come from: from above, or from one side of its row. -/
def Precedes (scroll : Scroll) (source cell : Cell) : Prop :=
  match scroll with
  | down _ => source.x = cell.x ∧ source.y ≤ cell.y
  | right => source.x < cell.x ∧ source.y = cell.y
  | left => cell.x < source.x ∧ source.y = cell.y

/-- What a scroll brings to a cell it takes from a cell that it has still to overwrite. -/
theorem precedes_of_source (brought : scroll.source? mode cell = some source) :
    scroll.Precedes source cell := by
  cases scroll with
  | down rows =>
    obtain ⟨-, same⟩ := Option.ite_none_right_eq_some.mp brought
    obtain rfl := Option.some.inj same
    exact ⟨rfl, Nat.sub_le _ _⟩
  | right =>
    obtain ⟨far, same⟩ := Option.ite_none_right_eq_some.mp brought
    obtain rfl := Option.some.inj same
    exact ⟨Nat.sub_lt_of_pos_le (by decide) far, rfl⟩
  | left =>
    obtain ⟨-, same⟩ := Option.ite_none_right_eq_some.mp brought
    obtain rfl := Option.some.inj same
    exact ⟨Nat.lt_add_of_pos_right (by decide), rfl⟩

/-- Nothing is brought to the surface from beyond it. -/
theorem contains_source (inside : mode.contains cell = true)
    (brought : scroll.source? mode cell = some source) : mode.contains source = true := by
  obtain ⟨column, row⟩ := Resolution.contains_iff.mp inside
  have precedes := precedes_of_source brought
  rw [Resolution.contains_iff]
  cases scroll with
  | down rows => exact ⟨precedes.1 ▸ column, Nat.lt_of_le_of_lt precedes.2 row⟩
  | right => exact ⟨Nat.lt_trans precedes.1 column, precedes.2 ▸ row⟩
  | left =>
    obtain ⟨within, same⟩ := Option.ite_none_right_eq_some.mp brought
    obtain rfl := Option.some.inj same
    exact ⟨within, row⟩

/-- A scroll that works goes once through the surface, from where it moves the picture to. -/
theorem moves_eq (works : scroll.worksIn mode = true) :
    ∃ cells : List Cell,
      scroll.moves mode = cells.map (fun cell => ⟨cell, scroll.source? mode cell⟩) ∧
      (∀ cell, cell ∈ cells ↔ mode.contains cell = true) ∧ cells.Nodup ∧
      cells.Pairwise fun earlier later => ¬ scroll.Precedes earlier later := by
  have upward (size : Nat) : (List.range size).Pairwise (· < ·) := List.pairwise_lt_range
  have downward (size : Nat) : (List.range size).reverse.Pairwise (· > ·) :=
    List.pairwise_reverse.mpr (upward size)
  have surface (cell : Cell) : cell.y < mode.height ∧ cell.x < mode.width ↔
      mode.contains cell = true :=
    and_comm.trans Resolution.contains_iff.symm
  cases scroll with
  | down rows =>
    refine ⟨Cell.grid (List.range mode.height).reverse (List.range mode.width), ?_, fun cell => ?_,
      Cell.nodup_grid ((downward _).imp Nat.ne_of_gt) ((upward _).imp Nat.ne_of_lt),
      Cell.pairwise_grid (fun y => (upward _).imp ?_) ((downward _).imp ?_)⟩
    · simp only [moves, works, ↓reduceIte, movesDown, Cell.grid, List.map_flatMap, List.map_map]
      rfl
    · rw [Cell.mem_grid, List.mem_reverse, List.mem_range, List.mem_range, surface]
    · exact fun ordered precedes => Nat.ne_of_lt ordered precedes.1
    · exact fun ordered x x' precedes => Nat.not_le_of_gt ordered precedes.2
  | right =>
    refine ⟨Cell.grid (List.range mode.height) (List.range mode.width).reverse, ?_, fun cell => ?_,
      Cell.nodup_grid ((upward _).imp Nat.ne_of_lt) ((downward _).imp Nat.ne_of_gt),
      Cell.pairwise_grid (fun y => (downward _).imp ?_) ((upward _).imp ?_)⟩
    · simp only [moves, works, ↓reduceIte, movesRight, Cell.grid, List.map_flatMap, List.map_map]
      rfl
    · rw [Cell.mem_grid, List.mem_reverse, List.mem_range, List.mem_range, surface]
    · exact fun ordered precedes => Nat.lt_asymm ordered precedes.1
    · exact fun ordered x x' precedes => Nat.ne_of_lt ordered precedes.2
  | left =>
    refine ⟨Cell.grid (List.range mode.height) (List.range mode.width), ?_, fun cell => ?_,
      Cell.nodup_grid ((upward _).imp Nat.ne_of_lt) ((upward _).imp Nat.ne_of_lt),
      Cell.pairwise_grid (fun y => (upward _).imp ?_) ((upward _).imp ?_)⟩
    · simp only [moves, works, ↓reduceIte, movesLeft, Cell.grid, List.map_flatMap, List.map_map]
      rfl
    · rw [Cell.mem_grid, List.mem_range, List.mem_range, surface]
    · exact fun ordered precedes => Nat.lt_asymm ordered precedes.1
    · exact fun ordered x x' precedes => Nat.ne_of_lt ordered precedes.2

/-- A scroll that does nothing in a mode makes no moves there. -/
theorem moves_of_not_works (ignored : scroll.worksIn mode = false) : scroll.moves mode = [] := by
  simp only [moves, ignored, Bool.false_eq_true, ↓reduceIte]

/-- The targets of a scroll that works are the cells of the surface, each of them once. -/
theorem targets_moves (works : scroll.worksIn mode = true) :
    (∀ cell, cell ∈ (scroll.moves mode).map CellMove.target ↔ mode.contains cell = true) ∧
      ((scroll.moves mode).map CellMove.target).Nodup := by
  obtain ⟨cells, moved, surface, distinct, -⟩ := moves_eq works
  have targets : (scroll.moves mode).map CellMove.target = cells := by
    rw [moved, List.map_map]
    exact List.map_id cells
  rw [targets]
  exact ⟨surface, distinct⟩

/-- A scroll that works replaces the cells of the surface, and no others. -/
theorem mem_targets_moves (works : scroll.worksIn mode = true) :
    cell ∈ (scroll.moves mode).map CellMove.target ↔ mode.contains cell = true :=
  (targets_moves works).1 cell

/-- It replaces each of them once. -/
theorem nodup_targets_moves (scroll : Scroll) (mode : Resolution) :
    ((scroll.moves mode).map CellMove.target).Nodup := by
  cases works : scroll.worksIn mode with
  | true => exact (targets_moves works).2
  | false =>
    rw [moves_of_not_works works]
    exact List.nodup_nil

/-- A scroll reads cells of the surface only. -/
theorem source_inside {move : CellMove} (moved : move ∈ scroll.moves mode)
    (reads : move.source = some cell) : mode.contains cell = true := by
  cases works : scroll.worksIn mode with
  | false =>
    rw [moves_of_not_works works] at moved
    exact absurd moved List.not_mem_nil
  | true =>
    obtain ⟨cells, made, surface, -⟩ := moves_eq works
    rw [made] at moved
    obtain ⟨target, member, rfl⟩ := List.mem_map.mp moved
    exact contains_source ((surface target).mp member) reads

end Scroll

namespace Sprite

/-- A sprite is clipped at the edges of the surface. -/
theorem inside_of_mem_cells {sprite : Sprite} {mode : Resolution} {cell : Cell}
    (covered : cell ∈ sprite.cells mode) : mode.contains cell = true := by
  obtain ⟨-, -, -, -, -, inside, -⟩ := mem_cells.mp covered
  exact inside

/-- A pixel that is drawn lies at its place in the sprite from the corner of the sprite. -/
theorem cell_of_pixel {sprite : Sprite} {mode : Resolution} {column row : Nat} {cell : Cell}
    (found : (if sprite.pixel column row && mode.contains ⟨sprite.left + column, sprite.top + row⟩
      then some ⟨sprite.left + column, sprite.top + row⟩ else none) = some cell) :
    cell = ⟨sprite.left + column, sprite.top + row⟩ :=
  (Option.some.inj (Option.ite_none_right_eq_some.mp found).2).symm

/-- A sprite turns each cell over at most once: its pixels lie on different cells. -/
theorem nodup_cells (sprite : Sprite) (mode : Resolution) : (sprite.cells mode).Nodup := by
  refine List.pairwise_flatMap.mpr ⟨?_, ?_⟩
  · intro row _
    refine List.pairwise_filterMap.mpr (List.nodup_range.imp ?_)
    intro first second different cell found other foundOther same
    rw [cell_of_pixel found, cell_of_pixel foundOther] at same
    exact different (Nat.add_left_cancel (congrArg Cell.x same))
  · refine List.nodup_range.imp ?_
    intro first second different cell inFirst other inSecond same
    obtain ⟨column, -, found⟩ := List.mem_filterMap.mp inFirst
    obtain ⟨column', -, foundOther⟩ := List.mem_filterMap.mp inSecond
    rw [cell_of_pixel found, cell_of_pixel foundOther] at same
    exact different (Nat.add_left_cancel (congrArg Cell.y same))

end Sprite

namespace Operation

/-- The strokes of an operation that sets cells. -/
def strokes (operation : Operation) (state : State) : List Stroke :=
  match operation with
  | scroll toward => (toward.moves state.resolution).map Stroke.ofMove
  | draw x y n => ((state.sprite x y n).cells state.resolution).map Stroke.ofToggle
  | _ => []

/-- The calls that an operation makes on a screen, in order. -/
def calls {δ : Type u} [Screen δ] (operation : Operation) (state : State) (screen : δ) :
    List ScreenCall :=
  match operation with
  | clear => [.clear]
  | operation => Stroke.calls screen (operation.strokes state)

section Calls

variable {δ : Type u} [Screen δ] (operation : Operation) (state : State)

/-- **Painting is carrying out calls.** -/
theorem screen_paint_eq (screen : δ) :
    (operation.paint state screen).screen =
      ScreenCall.applyAll (operation.calls state screen) screen := by
  cases operation with
  | scroll toward => exact Stroke.foldl_moves screen _
  | draw x y n => exact (Stroke.toggleAll_eq { screen := screen } _).1
  | _ => rfl

/-- The collision of a drawing can be read off the calls. -/
theorem collision_paint_congr {ε : Type v} [Screen ε] (first : δ) (second : ε)
    (same : operation.calls state second = operation.calls state first) :
    (operation.paint state second).collision = (operation.paint state first).collision := by
  cases operation with
  | draw x y n =>
    have ofFirst := (Stroke.toggleAll_eq { screen := first }
      ((state.sprite x y n).cells state.resolution)).2
    have ofSecond := (Stroke.toggleAll_eq { screen := second }
      ((state.sprite x y n).cells state.resolution)).2
    refine ofSecond.trans (Eq.trans ?_ ofFirst.symm)
    exact congrArg (false || ·) (congrArg (List.any · ScreenCall.turnsOff) same)
  | _ => rfl

/-- The cells that an operation sets are the targets of its strokes. -/
theorem cells_calls (screen : δ) :
    (operation.calls state screen).filterMap ScreenCall.cell? =
      (operation.strokes state).map Stroke.target := by
  cases operation with
  | clear => rfl
  | _ => exact Stroke.cells_calls screen _

/-- Only one operation clears the screen. -/
theorem eq_clear_of_mem_calls {operation : Operation} {state : State} {screen : δ}
    (cleared : .clear ∈ operation.calls state screen) : operation = clear := by
  cases operation with
  | clear => rfl
  | _ => exact absurd cleared (Stroke.clear_not_mem_calls screen _)

/-- The calls of an operation on a recorded screen are those on the screen behind it. -/
theorem calls_recorded (recorded : Recorded δ) :
    operation.calls state recorded = operation.calls state recorded.screen := by
  cases operation with
  | clear => rfl
  | _ => exact Stroke.calls_recorded recorded _

/-- Strokes read cells of the surface only. -/
theorem reads_inside {stroke : Stroke} (made : stroke ∈ operation.strokes state) {cell : Cell}
    (reads : stroke.source = some cell) : state.resolution.contains cell = true := by
  cases operation with
  | scroll toward =>
    obtain ⟨move, moved, rfl⟩ := List.mem_map.mp made
    exact Scroll.source_inside moved reads
  | draw x y n =>
    obtain ⟨covered, member, rfl⟩ := List.mem_map.mp made
    obtain rfl := Option.some.inj reads
    exact Sprite.inside_of_mem_cells member
  | _ => exact absurd made List.not_mem_nil

/-- They set cells of the surface only. -/
theorem inside_of_mem_strokes {stroke : Stroke} (made : stroke ∈ operation.strokes state) :
    state.resolution.contains stroke.target = true := by
  cases operation with
  | scroll toward =>
    obtain ⟨move, moved, rfl⟩ := List.mem_map.mp made
    cases works : toward.worksIn state.resolution with
    | true => exact (Scroll.mem_targets_moves works).mp (List.mem_map_of_mem moved)
    | false =>
      rw [Scroll.moves_of_not_works works] at moved
      exact absurd moved List.not_mem_nil
  | draw x y n =>
    obtain ⟨covered, member, rfl⟩ := List.mem_map.mp made
    exact Sprite.inside_of_mem_cells member
  | _ => exact absurd made List.not_mem_nil

/-- No two strokes of an operation set the same cell. -/
theorem nodup_targets_strokes : ((operation.strokes state).map Stroke.target).Nodup := by
  cases operation with
  | scroll toward =>
    have targets := toward.nodup_targets_moves state.resolution
    rw [strokes, List.map_map]
    exact targets
  | draw x y n =>
    have cells := (state.sprite x y n).nodup_cells state.resolution
    have targets : Stroke.target ∘ Stroke.ofToggle = id := rfl
    rw [strokes, List.map_map, targets, List.map_id]
    exact cells
  | _ => exact List.nodup_nil

/-- Screens that answer alike on the surface receive the same calls of an operation. -/
theorem calls_congr {ε : Type v} [Screen ε] (first : δ) (second : ε)
    (agree : ∀ done, done <+: operation.calls state first → ∀ cell,
      state.resolution.contains cell = true →
        Screen.lit (ScreenCall.applyAll done first) cell =
          Screen.lit (ScreenCall.applyAll done second) cell) :
    operation.calls state second = operation.calls state first := by
  cases operation with
  | clear => rfl
  | _ =>
    exact Stroke.calls_congr first second _
      (fun stroke made cell reads => reads_inside _ state made reads) agree

end Calls

end Operation

end SuperChip
