import SuperChip.Proofs.Sprites

/-!
# Sprites over sprites

Drawing turns cells over, so with memory and the mode fixed a cell of a frame buffer depends on how
many of the sprites drawn cover it, and on nothing else of them: their order does not matter, and a
sprite that is drawn again takes itself away.

The main statement is `Machine.drawings_cancel`. It follows from the number of sprites on each cell
(`Machine.lit_drawAll`) and, for the flags of a sprite drawn twice, from `Machine.draws_carryOut`.
-/

namespace SuperChip

universe v

/-- A sprite about to be drawn: the state it is drawn in, with the registers and the height that
its word names. -/
structure Placement where
  state : State
  x : Register
  y : Register
  height : UInt8

namespace Placement

/-- The figure that is drawn by a placement. -/
def figure (placement : Placement) : Figure :=
  placement.state.figure placement.x placement.y placement.height

end Placement

/-- The number of figures that have a set pixel on a cell. -/
def Figure.countCovering (figures : List Figure) (memory : Memory) (mode : Resolution)
    (cell : Cell) : Nat :=
  figures.countP fun figure => figure.Covers memory mode cell

namespace Machine

section Twice

variable {κ : Type v} {before after : Machine FrameBuffer κ} {x y : Register} {n : UInt8}

/-- The flag is set by a draw exactly if it covers a cell that was lit. -/
theorem Draws.flag_iff (draws : before.Draws after x y n) :
    after.state.registers.get Register.flag = 1 ↔
      ∃ cell, before.state.Covers x y n cell ∧ before.screen.lit cell = true := by
  refine ⟨fun flagged => Classical.byContradiction fun misses => ?_, draws.collided⟩
  rw [draws.missed misses] at flagged
  exact absurd flagged (by decide)

/-- A sprite whose place is not given by the flag is drawn from the same once more. -/
theorem Draws.figure (draws : before.Draws after x y n) (notX : x ≠ Register.flag)
    (notY : y ≠ Register.flag) : after.state.figure x y n = before.state.figure x y n := by
  have index := draws.others .index Component.noConfusion Component.noConfusion
  have left := draws.others (.register x) Component.noConfusion
    fun same => notX (Component.register.inj same)
  have top := draws.others (.register y) Component.noConfusion
    fun same => notY (Component.register.inj same)
  exact (Figure.mk.injEq ..).mpr ⟨index, left, top, rfl⟩

/-- A draw does not change what the same draw would cover next, unless it is placed by the flag
register. -/
theorem Draws.covers_iff (draws : before.Draws after x y n) (notX : x ≠ Register.flag)
    (notY : y ≠ Register.flag) (cell : Cell) :
    after.state.Covers x y n cell ↔ before.state.Covers x y n cell := by
  have memory := draws.others .memory Component.noConfusion Component.noConfusion
  have mode := draws.others .resolution Component.noConfusion Component.noConfusion
  unfold State.Covers
  rw [draws.figure notX notY, memory, mode]

end Twice

variable {κ : Type v} [KeySource κ]

/-- A sprite is drawn in its own state, on the screen as it is. -/
def drawPlaced (machine : Machine FrameBuffer κ) (placement : Placement) :
    Machine FrameBuffer κ :=
  (machine.restore placement.state).carryOut (.draw placement.x placement.y placement.height)

/-- A machine after it has drawn all placements in turn. -/
def drawAll (machine : Machine FrameBuffer κ) (placements : List Placement) :
    Machine FrameBuffer κ :=
  placements.foldl drawPlaced machine

section Order

variable {memory : Memory} {mode : Resolution} {first second : List Placement}

/-- **A cell is turned over once by each sprite that covers it.** -/
theorem lit_drawAll (machine : Machine FrameBuffer κ) {placements : List Placement}
    (fixed : ∀ placement ∈ placements,
      placement.state.memory = memory ∧ placement.state.resolution = mode) (cell : Cell) :
    (machine.drawAll placements).screen.lit cell = (machine.screen.lit cell ^^
      decide (Figure.countCovering (placements.map Placement.figure) memory mode cell % 2 = 1)) := by
  induction placements generalizing machine with
  | nil => exact (Bool.xor_false _).symm
  | cons placement rest continued =>
    obtain ⟨⟨sameMemory, sameMode⟩, fixedRest⟩ := List.forall_mem_cons.mp fixed
    have one : (machine.drawPlaced placement).screen.lit cell =
        (machine.screen.lit cell ^^ decide (placement.figure.Covers memory mode cell)) := by
      rw [← sameMemory, ← sameMode]
      exact (draws_carryOut (machine.restore placement.state) _ _ _).cells cell
    change ((machine.drawPlaced placement).drawAll rest).screen.lit cell = _
    rw [continued _ fixedRest, one, Bool.xor_assoc, List.map_cons, Figure.countCovering,
      Figure.countCovering, List.countP_cons]
    congr 1
    by_cases covers : placement.figure.Covers memory mode cell
    · simp only [covers, decide_true, Bool.true_xor, ↓reduceIte]
      rw [← decide_not]
      exact decide_eq_decide.mpr (by omega)
    · simp only [covers, decide_false, Bool.false_xor, Bool.false_eq_true, ↓reduceIte,
        Nat.add_zero]

/-- Only what the sprites are drawn from matters, and not in which order. -/
theorem screen_drawAll_of_perm (machine : Machine FrameBuffer κ)
    (fixed : ∀ placement ∈ first ++ second,
      placement.state.memory = memory ∧ placement.state.resolution = mode)
    (permuted : (first.map Placement.figure).Perm (second.map Placement.figure)) :
    (machine.drawAll first).screen = (machine.drawAll second).screen := by
  refine FrameBuffer.eq_of_lit fun cell _ _ => ?_
  obtain ⟨fixedFirst, fixedSecond⟩ := List.forall_mem_append.mp fixed
  rw [machine.lit_drawAll fixedFirst, machine.lit_drawAll fixedSecond, Figure.countCovering,
    Figure.countCovering, permuted.countP_eq]

/-- Drawn again in any order, sprites take themselves away. -/
theorem screen_drawAll_append_of_perm (machine : Machine FrameBuffer κ)
    (fixed : ∀ placement ∈ first ++ second,
      placement.state.memory = memory ∧ placement.state.resolution = mode)
    (permuted : (first.map Placement.figure).Perm (second.map Placement.figure)) :
    (machine.drawAll (first ++ second)).screen = machine.screen := by
  refine FrameBuffer.eq_of_lit fun cell _ _ => ?_
  rw [machine.lit_drawAll fixed, List.map_append, Figure.countCovering, List.countP_append,
    permuted.countP_eq, ← Nat.two_mul, Nat.mul_mod_right]
  exact Bool.xor_false _

end Order

/-- **Drawing is its own inverse, and its order is irrelevant.** With memory and the mode fixed,
sprites drawn one after the other leave the same screen in every order, and drawn again in any order
they leave the screen as it was. What a sprite is drawn from counts, and not the rest of the states
that they are drawn in. In every state `DXYN` with neither place given by the flag, carried out
twice, leaves the screen as it was; the flag is one after the first time if a covered cell was lit,
and after the second if one was not, so a sprite with any pixel on the surface sets it at least
once. -/
theorem drawings_cancel (machine : Machine FrameBuffer κ) :
    (∀ (memory : Memory) (mode : Resolution) (first second : List Placement),
      (∀ placement ∈ first ++ second,
        placement.state.memory = memory ∧ placement.state.resolution = mode) →
      (first.map Placement.figure).Perm (second.map Placement.figure) →
      (machine.drawAll first).screen = (machine.drawAll second).screen ∧
      (machine.drawAll (first ++ second)).screen = machine.screen) ∧
    ∀ (x y : Register) (n : UInt8), x ≠ Register.flag → y ≠ Register.flag →
      let once := machine.carryOut (.draw x y n)
      let twice := once.carryOut (.draw x y n)
      let Covered := machine.state.Covers x y n
      twice.screen = machine.screen ∧
      (once.state.registers.get Register.flag = 1 ↔
        ∃ cell, Covered cell ∧ machine.screen.lit cell = true) ∧
      (twice.state.registers.get Register.flag = 1 ↔
        ∃ cell, Covered cell ∧ machine.screen.lit cell = false) ∧
      ((∃ cell, Covered cell) → once.state.registers.get Register.flag = 1 ∨
        twice.state.registers.get Register.flag = 1) := by
  refine ⟨fun memory mode first second fixed permuted => ?_, fun x y n notX notY => ?_⟩
  · exact ⟨machine.screen_drawAll_of_perm fixed permuted,
      machine.screen_drawAll_append_of_perm fixed permuted⟩
  · intro once twice Covered
    have firstly : machine.Draws once x y n := machine.draws_carryOut x y n
    have secondly : once.Draws twice x y n := once.draws_carryOut x y n
    have covered (cell : Cell) : once.state.Covers x y n cell ↔ Covered cell :=
      firstly.covers_iff notX notY cell
    have again : twice.state.registers.get Register.flag = 1 ↔
        ∃ cell, Covered cell ∧ machine.screen.lit cell = false := by
      rw [secondly.flag_iff]
      refine exists_congr fun cell => ?_
      rw [covered cell]
      refine and_congr_right fun covers => ?_
      rw [firstly.cells, decide_eq_true covers, Bool.xor_true, Bool.not_eq_true']
    refine ⟨FrameBuffer.eq_of_lit fun cell _ _ => ?_, firstly.flag_iff, again, ?_⟩
    · rw [secondly.cells, firstly.cells, decide_eq_decide.mpr (covered cell), Bool.xor_assoc,
        Bool.xor_self, Bool.xor_false]
    · rintro ⟨cell, covers⟩
      cases lit : machine.screen.lit cell with
      | true => exact .inl (firstly.flag_iff.mpr ⟨cell, covers, lit⟩)
      | false => exact .inr (again.mpr ⟨cell, covers, lit⟩)

/-- A square of two by two pixels somewhere on the diagonal. -/
def square (corner : UInt8) : Placement where
  state :=
    { State.initial with
      memory := Memory.blank.writeList 0x300 [0xC0, 0xC0]
      registers := Table.put (Vector.replicate 16 0) Register.zero corner
      index := 0x300 }
  x := Register.zero
  y := Register.zero
  height := 2

/-- A blank screen, and a machine that is about to draw a square on it. -/
def unmarked : Machine FrameBuffer Keypad where
  state := (square 0).state
  screen := FrameBuffer.blank
  keys := KeyPad.released
  random := { key := Vector.replicate 8 0 }
  timing := Timing.standard

/-- Two squares that share one cell leave it off in either order. A square drawn twice hits nothing
the first time and itself the second. -/
theorem drawings_cancel_squares :
    let first := [square 0, square 1]
    let second := [square 1, square 0]
    let once := unmarked.carryOut (.draw Register.zero Register.zero 2)
    let twice := once.carryOut (.draw Register.zero Register.zero 2)
    (unmarked.drawAll first).screen = (unmarked.drawAll second).screen ∧
      (unmarked.drawAll first).screen.lit ⟨0, 0⟩ = true ∧
      (unmarked.drawAll first).screen.lit ⟨1, 1⟩ = false ∧
      (unmarked.drawAll (first ++ second)).screen = FrameBuffer.blank ∧
      twice.screen = FrameBuffer.blank ∧
      once.state.registers.get Register.flag ≠ 1 ∧
      twice.state.registers.get Register.flag = 1 := by
  intro first second once twice
  obtain ⟨orders, repetitions⟩ := drawings_cancel unmarked
  have fixed : ∀ placement ∈ first ++ second,
      placement.state.memory = unmarked.state.memory ∧ placement.state.resolution = .low := by
    simp only [first, second, List.cons_append, List.nil_append, List.forall_mem_cons]
    exact ⟨⟨rfl, rfl⟩, ⟨rfl, rfl⟩, ⟨rfl, rfl⟩, ⟨rfl, rfl⟩, List.forall_mem_nil _⟩
  have permuted : (first.map Placement.figure).Perm (second.map Placement.figure) :=
    List.Perm.swap _ _ _
  obtain ⟨same, cancelled⟩ := orders _ _ first second fixed permuted
  obtain ⟨restored, hits, hitsAgain, -⟩ :=
    repetitions Register.zero Register.zero 2 (by decide) (by decide)
  have drawn (cell : Cell) := unmarked.lit_drawAll (List.forall_mem_append.mp fixed).1 cell
  refine ⟨same, ?_, ?_, cancelled, restored, ?_, hitsAgain.mpr ⟨⟨0, 0⟩, ?_, ?_⟩⟩
  · rw [drawn]
    decide +kernel
  · rw [drawn]
    decide +kernel
  · intro flagged
    obtain ⟨cell, -, lit⟩ := hits.mp flagged
    exact Bool.false_ne_true ((FrameBuffer.lit_blank cell).symm.trans lit)
  · decide +kernel
  · exact FrameBuffer.lit_blank _

end Machine

end SuperChip
