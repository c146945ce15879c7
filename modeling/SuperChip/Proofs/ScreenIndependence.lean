import SuperChip.Proofs.Lockstep
import SuperChip.Proofs.ScreenCalls

/-!
# Independence of the screen

A machine does not see how its screen keeps its cells. Any screen that answers like a grid on the
area of a frame buffer may take the place of a frame buffer that shows the same there: whatever a
host does, both machines reply the same, note the same events and go on showing the same.

The main statement is `Machine.screen_independent`. It rests on the calls of a step: they stay on
the area, and equal answers there lead to equal calls.
-/

namespace SuperChip

universe u v w

/-- Whether a cell is on the area that a screen must have, 128 columns by 64 rows. -/
def Cell.OnArea (cell : Cell) : Prop :=
  cell.x < 128 ∧ cell.y < 64

/-- The surface of either resolution lies within the area of the large one. -/
theorem Cell.onArea_of_contains {mode : Resolution} {cell : Cell}
    (inside : mode.contains cell = true) : cell.OnArea := by
  obtain ⟨column, row⟩ := Resolution.contains_iff.mp inside
  exact ⟨Nat.lt_of_lt_of_le column mode.width_le, Nat.lt_of_lt_of_le row mode.height_le⟩

/-- Whether a call concerns no cell beyond the area. -/
def ScreenCall.OnArea : ScreenCall → Prop
  | clear => True
  | set cell _ => cell.OnArea

theorem ScreenCall.applyAll_append {δ : Type u} [Screen δ] (first second : List ScreenCall)
    (screen : δ) : applyAll (first ++ second) screen = applyAll second (applyAll first screen) :=
  List.foldl_append

namespace Screen

variable {δ : Type u} {ε : Type v} [Screen δ] [Screen ε]

/-- A screen keeps a grid on the area: whatever calls it has received there, a clear turns every
cell of the area off, and setting one of them changes the answer for this cell only. Of the cells
beyond the area nothing is said. -/
structure KeepsGrid (screen : δ) : Prop where
  clear {calls : List ScreenCall} : (∀ call ∈ calls, call.OnArea) → ∀ cell : Cell, cell.OnArea →
    Screen.lit (Screen.clear (ScreenCall.applyAll calls screen)) cell = false
  set {calls : List ScreenCall} : (∀ call ∈ calls, call.OnArea) →
    ∀ (changed : Cell) (on : Bool) (cell : Cell), changed.OnArea → cell.OnArea →
      Screen.lit (Screen.set (ScreenCall.applyAll calls screen) changed on) cell =
        if changed = cell then on else Screen.lit (ScreenCall.applyAll calls screen) cell

/-- Two screens show the same on the area. -/
def ShowSame (first : δ) (second : ε) : Prop :=
  ∀ cell : Cell, cell.OnArea → Screen.lit first cell = Screen.lit second cell

variable {first : δ} {second : ε}

/-- A screen that behaves as a grid still does so after any calls within the area. -/
theorem KeepsGrid.applyAll (grid : KeepsGrid first) {calls : List ScreenCall}
    (inside : ∀ call ∈ calls, call.OnArea) :
    KeepsGrid (ScreenCall.applyAll calls first) where
  clear later := by
    rw [← ScreenCall.applyAll_append]
    exact grid.clear (List.forall_mem_append.mpr ⟨inside, later⟩)
  set later := by
    rw [← ScreenCall.applyAll_append]
    exact grid.set (List.forall_mem_append.mpr ⟨inside, later⟩)

/-- A call on the area keeps two grids alike. -/
theorem ShowSame.apply (same : ShowSame first second) (grid : KeepsGrid first)
    (other : KeepsGrid second) {call : ScreenCall} (inside : call.OnArea) :
    ShowSame (call.apply first) (call.apply second) := by
  intro cell within
  cases call with
  | clear =>
    have off := grid.clear (List.forall_mem_nil _) cell within
    have offThere := other.clear (List.forall_mem_nil _) cell within
    exact off.trans offThere.symm
  | set changed on =>
    have here := grid.set (List.forall_mem_nil _) changed on cell inside within
    have there := other.set (List.forall_mem_nil _) changed on cell inside within
    change Screen.lit (Screen.set first changed on) cell =
      Screen.lit (Screen.set second changed on) cell
    refine here.trans (Eq.trans ?_ there.symm)
    exact congrArg (if changed = cell then on else ·) (same cell within)

/-- So do any calls on the area. -/
theorem ShowSame.applyAll (same : ShowSame first second) (grid : KeepsGrid first)
    (other : KeepsGrid second) {calls : List ScreenCall} (inside : ∀ call ∈ calls, call.OnArea) :
    ShowSame (ScreenCall.applyAll calls first) (ScreenCall.applyAll calls second) := by
  induction calls generalizing first second with
  | nil => exact same
  | cons call rest continued =>
    have single : ∀ only ∈ [call], only.OnArea :=
      List.forall_mem_singleton.mpr (inside call List.mem_cons_self)
    exact continued (same.apply grid other (inside call List.mem_cons_self))
      (grid.applyAll single) (other.applyAll single)
      fun later member => inside later (List.mem_cons_of_mem call member)

end Screen

/-- A frame buffer is such a grid. -/
theorem FrameBuffer.keepsGrid (buffer : FrameBuffer) : Screen.KeepsGrid buffer where
  clear _ cell _ := lit_blank cell
  set {calls} _ changed on cell _ within := by
    have answer := (ScreenCall.applyAll calls buffer).lit_set changed on cell
    rw [Cell.OnArea] at within
    simp only [within, and_self, and_true] at answer
    exact answer

namespace Machine

variable {δ : Type u} {ε : Type v} {κ : Type w} [Screen δ] [Screen ε]

/-- Two machines differ at most in their screens, and these show the same on the area. -/
structure Mirrors (first : Machine δ κ) (second : Machine ε κ) : Prop where
  state : first.state = second.state
  keys : first.keys = second.keys
  random : first.random = second.random
  timing : first.timing = second.timing
  screen : Screen.ShowSame first.screen second.screen

/-- Machines that mirror each other on screens that keep grids. -/
structure Twins (first : Machine δ κ) (second : Machine ε κ) : Prop where
  mirrors : first.Mirrors second
  grid : Screen.KeepsGrid first.screen
  other : Screen.KeepsGrid second.screen

/-- A mirroring machine is the first one with another screen. -/
theorem Mirrors.eq_withScreen {first : Machine δ κ} {second : Machine ε κ}
    (mirrors : first.Mirrors second) : second = first.withScreen second.screen := by
  obtain ⟨state, keys, random, timing, -⟩ := mirrors
  rw [withScreen, state, keys, random, timing]

section Step

variable [KeySource κ]

/-- No step calls its screen for a cell outside the area. -/
theorem onArea_of_mem_screenCalls {machine : Machine δ κ} {call : ScreenCall}
    (made : call ∈ machine.screenCalls) : call.OnArea := by
  cases call with
  | clear => trivial
  | set cell on =>
    have set : cell ∈ machine.cellsSet := List.mem_filterMap.mpr ⟨.set cell on, made, rfl⟩
    exact Cell.onArea_of_contains (machine.callsRightly.inside cell set)

/-- What a step notes, and what it does beside the state and the screen, has nothing to do with
the screen. -/
theorem journal_step_withScreen (machine : Machine δ κ) (screen : ε) :
    (machine.withScreen screen).step.journal = machine.step.journal ∧
      (machine.withScreen screen).step.machine.keys = machine.step.machine.keys ∧
      (machine.withScreen screen).step.machine.random = machine.step.machine.random ∧
      (machine.withScreen screen).step.machine.timing = machine.step.machine.timing := by
  cases exited : machine.state.exitCode with
  | some code =>
    have mirrored : (machine.withScreen screen).state.exitCode = some code := exited
    rw [step_of_exited exited, step_of_exited mirrored]
    exact ⟨rfl, rfl, rfl, rfl⟩
  | none =>
    have unfinished : (machine.withScreen screen).state.exitCode = none := exited
    cases running : machine.state.running with
    | false =>
      rw [step_of_paused exited running, step_of_paused unfinished running]
      exact ⟨rfl, rfl, rfl, rfl⟩
    | true =>
      rw [step_of_running exited running, step_of_running unfinished running]
      exact ⟨rfl, rfl, rfl, rfl⟩

/-- Twins answer a step alike and are still twins after it. -/
theorem Twins.step {first : Machine δ κ} {second : Machine ε κ} (twins : first.Twins second) :
    Matches Twins first.step second.step := by
  have inside : ∀ call ∈ first.screenCalls, call.OnArea :=
    fun call made => onArea_of_mem_screenCalls made
  have agree : first.AgreesThroughout second.screen := by
    intro done part cell within
    exact twins.mirrors.screen.applyAll twins.grid twins.other
      (fun call made => inside call (part.subset made)) cell (Cell.onArea_of_contains within)
  have calls := screenCalls_withScreen agree
  have ran := step_withScreen calls
  have rest := first.journal_step_withScreen second.screen
  rw [← twins.mirrors.eq_withScreen] at calls ran rest
  have here := first.screen_step
  have there := second.screen_step
  rw [calls] at there
  have same : Screen.ShowSame first.step.machine.screen second.step.machine.screen := by
    rw [here, there]
    exact twins.mirrors.screen.applyAll twins.grid twins.other inside
  refine ⟨⟨⟨ran.1.symm, rest.2.1.symm, rest.2.2.1.symm, rest.2.2.2.symm, same⟩, ?_, ?_⟩,
    ran.2.symm, rest.1.symm⟩
  · rw [here]
    exact twins.grid.applyAll inside
  · rw [there]
    exact twins.other.applyAll inside

end Step

/-- Twins stay twins when the same is done to the state and the keys of both. -/
theorem Twins.update {first : Machine δ κ} {second : Machine ε κ} (twins : first.Twins second)
    (state : State → State) (keys : κ → κ) :
    Twins { first with state := state first.state, keys := keys first.keys }
      { second with state := state second.state, keys := keys second.keys } where
  mirrors :=
    { state := congrArg state twins.mirrors.state
      keys := congrArg keys twins.mirrors.keys
      random := twins.mirrors.random
      timing := twins.mirrors.timing
      screen := twins.mirrors.screen }
  grid := twins.grid
  other := twins.other

/-- Twins are still twins after their screens have been called for the same. -/
theorem Twins.call {first : Machine δ κ} {second : Machine ε κ} (twins : first.Twins second)
    (call : ScreenCall) (inside : call.OnArea) :
    Twins { first with screen := call.apply first.screen }
      { second with screen := call.apply second.screen } := by
  have single : ∀ only ∈ [call], only.OnArea := List.forall_mem_singleton.mpr inside
  obtain ⟨⟨state, keys, random, timing, screen⟩, grid, other⟩ := twins
  exact ⟨⟨state, keys, random, timing, screen.apply grid other inside⟩,
    grid.applyAll single, other.applyAll single⟩

/-- Twins answer alike to an image that is loaded. -/
theorem Twins.load {first : Machine δ κ} {second : Machine ε κ} (twins : first.Twins second)
    (image : Array UInt8) : Matches Twins (first.load image) (second.load image) := by
  have same := twins.mirrors.state
  unfold Machine.load
  rw [← same]
  cases first.state.load image with
  | ok state => exact ⟨twins.update (fun _ => state) id, rfl, rfl⟩
  | error error => exact .answer twins _

/-- Twins are in lockstep. -/
theorem lockstep_twins [KeySource κ] : Lockstep (Twins (δ := δ) (ε := ε) (κ := κ)) where
  step twins := twins.step
  tick twins := twins.update State.tick id
  cycles twins := by
    rw [cyclesPerFrame, cyclesPerFrame, twins.mirrors.timing, twins.mirrors.state]

/-- Twins are still twins after a reset. -/
theorem Twins.reset [KeySource κ] {first : Machine δ κ} {second : Machine ε κ}
    (twins : first.Twins second) : Matches Twins first.reset second.reset := by
  have begun := twins.update (fun _ => State.initial) KeySource.releaseAll
  exact ⟨begun.call .clear trivial, rfl, rfl⟩

variable [KeyPanel κ]

/-- Twins answer every command alike. -/
theorem Twins.perform {first : Machine δ κ} {second : Machine ε κ} (twins : first.Twins second)
    (command : Command) : Matches Twins (first.perform command) (second.perform command) := by
  refine lockstep_twins.perform twins twins.load fun acts => ?_
  cases command with
  | reset =>
    have cleared := twins.reset
    exact ⟨cleared.machine, rfl, cleared.journal⟩
  | press key => exact .answer (twins.update id (KeyPanel.press · key)) _
  | release key => exact .answer (twins.update id (KeyPanel.release · key)) _
  | releaseAll => exact .answer (twins.update id KeySource.releaseAll) _
  | setRunning running =>
    exact .answer (twins.update (fun state => { state with running := running }) id) _
  | toggleRunning =>
    have same := congrArg (fun state => Reply.running !state.running) twins.mirrors.state
    exact ⟨twins.update (fun state => { state with running := !state.running }) id, same, rfl⟩
  | frameShown => exact .answer (twins.update (fun state => { state with redraw := false }) id) _
  | restore state => exact .answer (twins.update (fun _ => state) id) _
  | _ => exact acts.elim

/-- **The screen is interchangeable.** A machine on any screen that keeps a grid and a machine on
a frame buffer, equal in all else and showing the same on the area, give the same replies and
note the same events in every session, and go on mirroring each other. -/
theorem screen_independent {machine : Machine δ κ} {buffered : Machine FrameBuffer κ}
    (grid : Screen.KeepsGrid machine.screen) (mirrors : machine.Mirrors buffered)
    (commands : List Command) :
    let here := machine.performAll commands
    let there := buffered.performAll commands
    here.reply = there.reply ∧ here.journal = there.journal ∧
      here.machine.Mirrors there.machine := by
  have begun : machine.Twins buffered := ⟨mirrors, grid, buffered.screen.keepsGrid⟩
  have done := matches_performAll commands (fun command _ _ _ twins => twins.perform command) begun
  exact ⟨done.reply, done.journal, done.machine.mirrors⟩

end Machine

/-- A screen without edges, by what it shows. -/
structure Canvas where
  shows : Cell → Bool

instance : Screen Canvas where
  clear _ := ⟨fun _ => false⟩
  lit := Canvas.shows
  set canvas changed on := ⟨fun cell => if changed = cell then on else canvas.shows cell⟩

theorem Canvas.keepsGrid (canvas : Canvas) : Screen.KeepsGrid canvas where
  clear _ _ _ := rfl
  set _ _ _ _ _ _ := rfl

namespace Machine

/-- The machine about to draw, in front of a canvas that is lit everywhere to the right of the
area. -/
def sketching : Machine Canvas Keypad :=
  drawing.withScreen ⟨fun cell => decide (128 ≤ cell.x)⟩

/-- Drawn twice, the sprite collides with itself on the canvas, and so it does on the frame
buffer. -/
theorem screen_independent_sketching :
    Screen.KeepsGrid sketching.screen ∧ sketching.Mirrors drawing ∧
      let session : List Command := [.step, .restore drawing.state, .step]
      (drawing.performAll session).machine.state.registers.get Register.flag = 1 ∧
        (drawing.performAll session).reply = (sketching.performAll session).reply ∧
        (drawing.performAll session).machine.screen.lit ⟨0, 0⟩ = false := by
  have grid := sketching.screen.keepsGrid
  have mirrors : sketching.Mirrors drawing := by
    refine ⟨rfl, rfl, rfl, rfl, ?_⟩
    intro cell within
    exact (decide_eq_false (Nat.not_le.mpr within.1)).trans (FrameBuffer.lit_blank cell).symm
  obtain ⟨reply, -, after⟩ :=
    screen_independent grid mirrors [.step, .restore drawing.state, .step]
  refine ⟨grid, mirrors, ?_, reply.symm, ?_⟩
  · rw [← after.state]
    decide +kernel
  · have corner := after.screen ⟨0, 0⟩ ⟨by decide, by decide⟩
    refine corner.symm.trans ?_
    decide +kernel

end Machine

end SuperChip
