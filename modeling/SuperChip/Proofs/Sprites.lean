import SuperChip.Proofs.Redraw

/-!
# Drawing on a frame buffer

`DXYN` turns over the cells of a frame buffer that its sprite covers, each of them once, and sets
the flag if one of them was lit before. Which cells these are is said by `Figure.Covers`, in
arithmetic on the index, the two registers and the bytes of memory: the sprite is cut off at the
right and bottom edge of the surface, and its bytes wrap past the end of memory.

The main statement is `Machine.drawing_turns_over`. It rests on `Drawing.lit_toggleAll` and
`Drawing.collision_toggleAll`, which say what turning over different cells one by one amounts to.
-/

namespace SuperChip

universe v

namespace Drawing

variable {cells : List Cell}

/-- Turning one cell of the area over changes the answer for this cell only. -/
theorem lit_toggle (drawing : Drawing FrameBuffer) {turned : Cell} (inside : turned.OnArea)
    (cell : Cell) :
    (drawing.toggle turned).screen.lit cell = (drawing.screen.lit cell ^^ decide (turned = cell)) := by
  change (drawing.screen.set turned (!drawing.screen.lit turned)).lit cell = _
  rw [FrameBuffer.lit_set]
  by_cases same : turned = cell
  · subst same
    rw [if_pos ⟨rfl, inside⟩, decide_eq_true rfl, Bool.xor_true]
  · rw [if_neg fun both => same both.1, decide_eq_false same, Bool.xor_false]

/-- **Turning over different cells turns over each of them.** -/
theorem lit_toggleAll (drawing : Drawing FrameBuffer) (distinct : cells.Nodup)
    (inside : ∀ cell ∈ cells, cell.OnArea) (cell : Cell) :
    (drawing.toggleAll cells).screen.lit cell =
      (drawing.screen.lit cell ^^ decide (cell ∈ cells)) := by
  induction cells generalizing drawing with
  | nil => simp
  | cons turned rest continued =>
    obtain ⟨elsewhere, distinctRest⟩ := List.nodup_cons.mp distinct
    obtain ⟨here, insideRest⟩ := List.forall_mem_cons.mp inside
    rw [toggleAll_cons, continued _ distinctRest insideRest, lit_toggle _ here, Bool.xor_assoc]
    congr 1
    by_cases same : turned = cell
    · subst same
      simp [elsewhere]
    · simp [same, Ne.symm same]

/-- The collision is with the cells that were lit before any was turned over. -/
theorem collision_toggleAll (drawing : Drawing FrameBuffer) (distinct : cells.Nodup)
    (inside : ∀ cell ∈ cells, cell.OnArea) :
    (drawing.toggleAll cells).collision = true ↔
      drawing.collision = true ∨ ∃ cell ∈ cells, drawing.screen.lit cell = true := by
  induction cells generalizing drawing with
  | nil => simp
  | cons turned rest continued =>
    obtain ⟨elsewhere, distinctRest⟩ := List.nodup_cons.mp distinct
    obtain ⟨here, insideRest⟩ := List.forall_mem_cons.mp inside
    have first : (drawing.toggle turned).collision = true ↔
        drawing.collision = true ∨ drawing.screen.lit turned = true :=
      Bool.or_eq_true_iff
    have untouched : (∃ cell ∈ rest, (drawing.toggle turned).screen.lit cell = true) ↔
        ∃ cell ∈ rest, drawing.screen.lit cell = true := by
      refine exists_congr fun cell => and_congr_right fun member => ?_
      have different : turned ≠ cell := fun same => elsewhere (same ▸ member)
      rw [lit_toggle _ here, decide_eq_false different, Bool.xor_false]
    rw [toggleAll_cons, continued _ distinctRest insideRest, first, untouched, or_assoc]
    simp only [List.mem_cons, exists_eq_or_imp]

end Drawing

/-- What a sprite is drawn from: where its bytes begin, the cell of its top left pixel, and its
height as it stands in the word. -/
structure Figure where
  index : Address
  left : UInt8
  top : UInt8
  height : UInt8
  deriving DecidableEq

namespace Figure

/-- In high resolution a height of zero stands for a square of sixteen by sixteen pixels. -/
def IsLarge (figure : Figure) (mode : Resolution) : Prop :=
  mode = .high ∧ figure.height = 0

instance (figure : Figure) (mode : Resolution) : Decidable (figure.IsLarge mode) :=
  inferInstanceAs (Decidable (_ ∧ _))

/-- The number of rows of a figure, which is 16 for a large one. -/
def rows (figure : Figure) (mode : Resolution) : Nat :=
  if figure.IsLarge mode then 16 else figure.height.toNat

/-- The bytes in each row. -/
def rowBytes (figure : Figure) (mode : Resolution) : Nat :=
  if figure.IsLarge mode then 2 else 1

/-- Whether a figure has a set pixel on a cell of the surface. -/
def Covers (figure : Figure) (memory : Memory) (mode : Resolution) (cell : Cell) : Prop :=
  let column := cell.x - figure.left.toNat
  let row := cell.y - figure.top.toNat
  let byte := memory.byteAt (figure.index.toNat + row * figure.rowBytes mode + column / 8)
  (cell.x < mode.width ∧ cell.y < mode.height) ∧
    (figure.left.toNat ≤ cell.x ∧ cell.x < figure.left.toNat + 8 * figure.rowBytes mode) ∧
    (figure.top.toNat ≤ cell.y ∧ cell.y < figure.top.toNat + figure.rows mode) ∧
    byte.toNat.testBit (7 - column % 8) = true

instance (figure : Figure) (memory : Memory) (mode : Resolution) (cell : Cell) :
    Decidable (figure.Covers memory mode cell) :=
  inferInstanceAs (Decidable (_ ∧ _))

end Figure

namespace State

/-- What `DXYN` draws. -/
def figure (state : State) (x y : Register) (n : UInt8) : Figure where
  index := state.index
  left := state.registers.get x
  top := state.registers.get y
  height := n

/-- Whether `DXYN` has a set pixel on a cell of the surface. -/
abbrev Covers (state : State) (x y : Register) (n : UInt8) (cell : Cell) : Prop :=
  (state.figure x y n).Covers state.memory state.resolution cell

variable (state : State) (x y : Register) (n : UInt8)

/-- A sprite is drawn large exactly where its figure is large. -/
theorem isLarge_eq : ((state.resolution == .high && n == 0) = true) =
    (state.figure x y n).IsLarge state.resolution := by
  rw [Bool.and_eq_true, beq_iff_eq, beq_iff_eq]
  rfl

theorem rowBytes_sprite :
    (if state.resolution == .high && n == 0 then 2 else 1) =
      (state.figure x y n).rowBytes state.resolution :=
  ite_congr (state.isLarge_eq x y n) (fun _ => rfl) fun _ => rfl

theorem width_sprite :
    (state.sprite x y n).width = 8 * (state.figure x y n).rowBytes state.resolution :=
  congrArg (8 * ·) (state.rowBytes_sprite x y n)

theorem height_sprite :
    (state.sprite x y n).height = (state.figure x y n).rows state.resolution :=
  ite_congr (state.isLarge_eq x y n) (fun _ => rfl) fun _ => rfl

/-- A pixel of a sprite is a bit of the memory at the index, the leftmost pixel being the highest
bit of its byte. -/
theorem pixel_sprite (column row : Nat) :
    (state.sprite x y n).pixel column row =
      (state.memory.byteAt (state.index.toNat +
        row * (state.figure x y n).rowBytes state.resolution + column / 8)).toNat.testBit
          (7 - column % 8) := by
  rw [Nat.add_assoc, ← Memory.read_add_ofNat, ← rowBytes_sprite]
  rfl

/-- The cells that drawing turns over are those that the figure covers. -/
theorem mem_cells_sprite {cell : Cell} :
    cell ∈ (state.sprite x y n).cells state.resolution ↔ state.Covers x y n cell := by
  rw [Sprite.mem_cells]
  simp only [width_sprite, height_sprite, pixel_sprite, Resolution.contains_iff]
  constructor
  · rintro ⟨row, rowBelow, column, columnBelow, isSet, inside, rfl⟩
    refine ⟨inside, ⟨Nat.le_add_right _ _, Nat.add_lt_add_left columnBelow _⟩,
      ⟨Nat.le_add_right _ _, Nat.add_lt_add_left rowBelow _⟩, ?_⟩
    have columns : (state.sprite x y n).left + column - (state.figure x y n).left.toNat = column :=
      Nat.add_sub_cancel_left _ _
    have rows : (state.sprite x y n).top + row - (state.figure x y n).top.toNat = row :=
      Nat.add_sub_cancel_left _ _
    simp only [columns, rows]
    exact isSet
  · rintro ⟨inside, ⟨right, columnBelow⟩, ⟨under, rowBelow⟩, isSet⟩
    refine ⟨_, Nat.sub_lt_left_of_lt_add under rowBelow, _,
      Nat.sub_lt_left_of_lt_add right columnBelow, isSet, inside, ?_⟩
    exact (Cell.mk.injEq ..).mpr
      ⟨(Nat.add_sub_cancel' right).symm, (Nat.add_sub_cancel' under).symm⟩

end State

namespace Machine

variable {κ : Type v} [KeySource κ]

/-- `DXYN` leads from one machine to another: every cell that it covers is turned over and no other,
the flag says whether one of them was lit, a redraw is asked for, and all else stays. -/
structure Draws (before after : Machine FrameBuffer κ) (x y : Register) (n : UInt8) : Prop where
  cells (cell : Cell) : after.screen.lit cell =
    (before.screen.lit cell ^^ decide (before.state.Covers x y n cell))
  collided : (∃ cell, before.state.Covers x y n cell ∧ before.screen.lit cell = true) →
    after.state.registers.get Register.flag = 1
  missed : ¬ (∃ cell, before.state.Covers x y n cell ∧ before.screen.lit cell = true) →
    after.state.registers.get Register.flag = 0
  redraw : after.state.redraw = true
  others (component : Component) : component ≠ .redraw → component ≠ .register Register.flag →
    component.Agrees after.state before.state
  keys : after.keys = before.keys
  random : after.random = before.random
  timing : after.timing = before.timing

/-- Carrying out a draw turns over what its figure covers and puts the collision into the flag. -/
theorem draws_carryOut (machine : Machine FrameBuffer κ) (x y : Register) (n : UInt8) :
    machine.Draws (machine.carryOut (.draw x y n)) x y n := by
  let drawing : Drawing FrameBuffer := { screen := machine.screen }
  let cells := (machine.state.sprite x y n).cells machine.state.resolution
  have distinct : cells.Nodup := Sprite.nodup_cells _ _
  have inside : ∀ cell ∈ cells, cell.OnArea := fun cell covered =>
    Cell.onArea_of_contains (Sprite.inside_of_mem_cells covered)
  have flag : (machine.carryOut (.draw x y n)).state.registers.get Register.flag =
      if (drawing.toggleAll cells).collision then 1 else 0 :=
    (State.get_setRegister _ _ _ _).trans (if_pos rfl)
  have hit : (drawing.toggleAll cells).collision = true ↔
      ∃ cell, machine.state.Covers x y n cell ∧ machine.screen.lit cell = true := by
    rw [Drawing.collision_toggleAll drawing distinct inside]
    simp [drawing, cells, State.mem_cells_sprite]
  exact
    { cells := fun cell => by
        refine (Drawing.lit_toggleAll drawing distinct inside cell).trans ?_
        simp only [drawing, cells, State.mem_cells_sprite]
      collided := fun collides => flag.trans (if_pos (hit.mpr collides))
      missed := fun misses => flag.trans (if_neg fun collides => misses (hit.mp collides))
      redraw := rfl
      others := fun component elsewhere unflagged =>
        machine.agrees_carryOut fun _ owned => owned.elim elsewhere unflagged
      keys := rfl
      random := rfl
      timing := rfl }

/-- **Drawing turns over what it covers.** In every state, on every frame buffer, carrying out
`DXYN` turns over the cells that the sprite covers and no others, sets the flag to one if a covered
cell was lit before and to zero if none was, asks for a redraw, and changes nothing else. A step
that runs a word `DXYN` does this after moving past it. -/
theorem drawing_turns_over (machine : Machine FrameBuffer κ) :
    (∀ (x y : Register) (n : UInt8), machine.Draws (machine.carryOut (.draw x y n)) x y n) ∧
    (machine.Active → Form.nnn 0xD machine.state.wordNumber →
      let word := machine.state.word
      machine.past.Draws machine.step.machine (Word.x word) (Word.y word) (Word.n word)) := by
  refine ⟨machine.draws_carryOut, fun active form => ?_⟩
  intro word
  have decoded : machine.operation = .draw (Word.x word) (Word.y word) (Word.n word) := by
    rw [← State.toNat_word] at form
    exact Operation.decode_of_encodes ⟨form, rfl, rfl, Word.toNat_n _⟩
  rw [step_of_active active, machine_execute, decoded]
  exact machine.past.draws_carryOut _ _ _

/-- A machine about to draw a sprite of two rows in the lower right corner of its screen. One
register of the place is the flag, and the second row of the sprite lies past the end of memory. -/
def clipping : Machine FrameBuffer Keypad where
  state :=
    { State.initial with
      memory :=
        (Memory.blank.writeList Address.programStart [0xDF, 0x02]).writeList 0xFFF [0xFF, 0xC0]
      registers :=
        Table.put (Table.put (Vector.replicate 16 0) Register.flag 62) Register.zero 30
      index := 0xFFF }
  screen := FrameBuffer.blank.set ⟨63, 31⟩ true
  keys := KeyPad.released
  random := { key := Vector.replicate 8 0 }
  timing := Timing.standard

/-- The corner cell is hit and goes out, the one beside it comes on, and the sprite is cut off at
the right edge, without coming back at the left. -/
theorem drawing_turns_over_clipping :
    clipping.Active ∧ Form.nnn 0xD clipping.state.wordNumber ∧
      clipping.screen.lit ⟨63, 31⟩ = true ∧ clipping.step.machine.screen.lit ⟨63, 31⟩ = false ∧
      clipping.step.machine.screen.lit ⟨62, 31⟩ = true ∧
      clipping.step.machine.screen.lit ⟨0, 30⟩ = false ∧
      clipping.step.machine.state.registers.get Register.flag = 1 := by
  obtain ⟨-, stepping⟩ := drawing_turns_over clipping
  have form : Form.nnn 0xD clipping.state.wordNumber := by decide +kernel
  have draws := stepping ⟨rfl, rfl⟩ form
  have lit (cell : Cell) : clipping.screen.lit cell =
      if (⟨63, 31⟩ : Cell) = cell ∧ cell.x < 128 ∧ cell.y < 64 then true else false := by
    refine (FrameBuffer.lit_set FrameBuffer.blank _ true cell).trans ?_
    rw [FrameBuffer.lit_blank]
  have corner : clipping.screen.lit ⟨63, 31⟩ = true := lit _
  refine ⟨⟨rfl, rfl⟩, form, corner, ?_, ?_, ?_, draws.collided ⟨⟨63, 31⟩, ?_, corner⟩⟩
  · rw [draws.cells]
    change (clipping.screen.lit ⟨63, 31⟩ ^^ _) = false
    rw [lit]
    decide +kernel
  · rw [draws.cells]
    change (clipping.screen.lit ⟨62, 31⟩ ^^ _) = true
    rw [lit]
    decide +kernel
  · rw [draws.cells]
    change (clipping.screen.lit ⟨0, 30⟩ ^^ _) = false
    rw [lit]
    decide +kernel
  · decide +kernel

end Machine

end SuperChip
