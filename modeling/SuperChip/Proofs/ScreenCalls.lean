import SuperChip.Proofs.Footprint
import SuperChip.Proofs.Moments

/-!
# Calls on the screen

What a step asks of its screen, whatever screen it is and whatever it answers. The calls are
those that a recorded screen remembers. They stay on the surface of the mode, set no cell twice
and clear only for `00E0`; and as the step reads the surface only, two screens that agree there
cannot be told apart.

The main statement is `Machine.screen_calls`. Its last part is about sessions: in low resolution
a frame buffer keeps everything beyond the surface.
-/

namespace SuperChip

universe u v w t

namespace FrameBuffer

/-- A frame buffer answers for a cell by what was done to this cell. -/
theorem lit_applyAll_congr (calls : List ScreenCall) {first second : FrameBuffer} {cell : Cell}
    (same : first.lit cell = second.lit cell) :
    (ScreenCall.applyAll calls first).lit cell = (ScreenCall.applyAll calls second).lit cell := by
  induction calls generalizing first second with
  | nil => exact same
  | cons call rest continued =>
    rw [ScreenCall.applyAll_cons, ScreenCall.applyAll_cons]
    refine continued ?_
    cases call with
    | clear => rfl
    | set changed on =>
      change (first.set changed on).lit cell = (second.set changed on).lit cell
      rw [lit_set, lit_set, same]

/-- Calls that neither clear nor set a cell leave it as it is. -/
theorem lit_applyAll_of_untouched {calls : List ScreenCall} {cell : Cell}
    (uncleared : .clear ∉ calls) (unset : cell ∉ calls.filterMap ScreenCall.cell?)
    (buffer : FrameBuffer) : (ScreenCall.applyAll calls buffer).lit cell = buffer.lit cell := by
  induction calls generalizing buffer with
  | nil => rfl
  | cons call rest continued =>
    cases call with
    | clear => exact absurd List.mem_cons_self uncleared
    | set changed on =>
      have elsewhere : changed ≠ cell := fun same => unset (by simp [ScreenCall.cell?, same])
      have later := continued (fun cleared => uncleared (List.mem_cons_of_mem _ cleared))
        (fun set => unset (List.mem_cons_of_mem changed set)) (buffer.set changed on)
      rw [lit_set, if_neg fun both => elsewhere both.1] at later
      exact later

end FrameBuffer

namespace Operation

/-- Every word that scrolls decodes to a scroll in some direction. -/
theorem decode_of_scroll {mode : Resolution} {word : Word}
    (form : Form.Scrolls mode word.toNat) : ∃ toward, decode word = scroll toward := by
  rcases form with down | ⟨right | left, -⟩
  · exact ⟨.down (Word.n word), decode_of_encodes ⟨down, Word.toNat_n word⟩⟩
  · exact ⟨.right, decode_of_encodes right⟩
  · exact ⟨.left, decode_of_encodes left⟩

end Operation

namespace Machine

section Step

variable {δ : Type u} {κ : Type v}

/-- The same machine in front of another screen. -/
def withScreen {ε : Type w} (machine : Machine δ κ) (screen : ε) : Machine ε κ where
  state := machine.state
  screen := screen
  keys := machine.keys
  random := machine.random
  timing := machine.timing

variable [Screen δ] [KeySource κ] (machine : Machine δ κ)

/-- The calls that a step makes on its screen, as a recorded screen remembers them. -/
def screenCalls : List ScreenCall :=
  let recorded : Recorded δ := { screen := machine.screen }
  (machine.withScreen recorded).step.machine.screen.calls.toList

/-- The cells that a step sets, in order. -/
def cellsSet : List Cell :=
  machine.screenCalls.filterMap ScreenCall.cell?

variable {machine}

/-- The calls of a running machine are those of the operation it executes. -/
theorem screenCalls_of_active (active : machine.Active) :
    machine.screenCalls = machine.operation.calls machine.state.advance machine.screen := by
  let recorded : Recorded δ := { screen := machine.screen }
  have recording : (machine.withScreen recorded).Active := active
  have painted := machine.operation.screen_paint_eq machine.state.advance recorded
  rw [Operation.calls_recorded] at painted
  rw [screenCalls, step_of_active recording, screen_execute]
  change (machine.operation.paint machine.state.advance recorded).screen.calls.toList = _
  rw [painted, (ScreenCall.applyAll_recorded _ recorded).2]
  rfl

theorem screenCalls_of_not_active (idle : ¬ machine.Active) : machine.screenCalls = [] := by
  let recorded : Recorded δ := { screen := machine.screen }
  have recording : ¬ (machine.withScreen recorded).Active := idle
  obtain ⟨status, still⟩ := step_of_not_active recording
  rw [screenCalls, still]
  rfl

/-- What a step makes of any screen is to carry out the recorded calls. -/
theorem screen_step (machine : Machine δ κ) :
    machine.step.machine.screen = ScreenCall.applyAll machine.screenCalls machine.screen := by
  by_cases active : machine.Active
  · rw [step_of_active active, screen_execute, screenCalls_of_active active]
    exact Operation.screen_paint_eq _ _ _
  · obtain ⟨status, still⟩ := step_of_not_active active
    rw [still, screenCalls_of_not_active active]
    rfl

/-- The cells that a running machine sets are those of the strokes of its operation. -/
theorem cellsSet_of_active (active : machine.Active) :
    machine.cellsSet = (machine.operation.strokes machine.state.advance).map Stroke.target := by
  rw [cellsSet, screenCalls_of_active active, Operation.cells_calls]

theorem cellsSet_of_not_active (idle : ¬ machine.Active) : machine.cellsSet = [] := by
  rw [cellsSet, screenCalls_of_not_active idle]
  rfl

/-- What a step may ask of its screen. Cells that it sets are on the surface and all different;
a scroll that works sets all of them; `00E0` clears and does nothing else; and only the
instructions that paint ask for anything. -/
structure CallsRightly (machine : Machine δ κ) : Prop where
  inside : ∀ cell ∈ machine.cellsSet, machine.state.resolution.contains cell = true
  once : machine.cellsSet.Nodup
  scroll : machine.Active → Form.Scrolls machine.state.resolution machine.state.wordNumber →
    ∀ cell, machine.state.resolution.contains cell = true → machine.cellsSet.count cell = 1
  clear : machine.Active → machine.state.wordNumber = 0x00E0 → machine.screenCalls = [.clear]
  cleared : .clear ∈ machine.screenCalls → machine.Active ∧ machine.state.wordNumber = 0x00E0
  unpainted : ¬ (machine.Active ∧
      Form.Paints machine.state.resolution machine.state.wordNumber) → machine.screenCalls = []

/-- A scroll sets each cell of the surface once. -/
theorem count_cellsSet_of_scrolls (active : machine.Active)
    (form : Form.Scrolls machine.state.resolution machine.state.wordNumber) {cell : Cell}
    (inside : machine.state.resolution.contains cell = true) :
    machine.cellsSet.count cell = 1 := by
  have encoded := machine.encodes_operation
  have decoded : ∃ toward, machine.operation = .scroll toward := by
    rw [← State.toNat_word] at form
    exact Operation.decode_of_scroll form
  obtain ⟨toward, scrolls⟩ := decoded
  rw [scrolls] at encoded
  have works := (Operation.worksIn_iff encoded).mpr form
  have targets : machine.cellsSet =
      (toward.moves machine.state.resolution).map CellMove.target := by
    rw [cellsSet_of_active active, scrolls, Operation.strokes, List.map_map]
    rfl
  rw [targets, (toward.nodup_targets_moves _).count,
    if_pos ((Scroll.mem_targets_moves works).mpr inside)]

/-- A running machine asks only for what it may. -/
theorem callsRightly_of_active (active : machine.Active) : machine.CallsRightly where
  inside cell set := by
    rw [cellsSet_of_active active] at set
    obtain ⟨stroke, made, rfl⟩ := List.mem_map.mp set
    exact machine.operation.inside_of_mem_strokes machine.state.advance made
  once := by
    rw [cellsSet_of_active active]
    exact machine.operation.nodup_targets_strokes machine.state.advance
  scroll _ form cell inside := count_cellsSet_of_scrolls active form inside
  clear _ form := by
    rw [← State.toNat_word] at form
    have decoded : machine.operation = .clear := Operation.decode_of_encodes form
    rw [screenCalls_of_active active, decoded]
    rfl
  cleared called := by
    rw [screenCalls_of_active active] at called
    have encoded := machine.encodes_operation
    rw [Operation.eq_clear_of_mem_calls called] at encoded
    exact ⟨active, encoded⟩
  unpainted still := by
    rw [screenCalls_of_active active]
    exact Operation.calls_of_not_paints machine.encodes_operation _ _
      fun paints => still ⟨active, paints⟩

/-- A machine that does not run asks for nothing. -/
theorem callsRightly_of_not_active (idle : ¬ machine.Active) : machine.CallsRightly where
  inside cell set := by
    rw [cellsSet_of_not_active idle] at set
    exact absurd set List.not_mem_nil
  once := by
    rw [cellsSet_of_not_active idle]
    exact List.nodup_nil
  scroll active := absurd active idle
  clear active := absurd active idle
  cleared called := by
    rw [screenCalls_of_not_active idle] at called
    exact absurd called List.not_mem_nil
  unpainted _ := screenCalls_of_not_active idle

/-- No step of any machine asks its screen for more than it may. -/
theorem callsRightly (machine : Machine δ κ) : machine.CallsRightly := by
  by_cases active : machine.Active
  · exact callsRightly_of_active active
  · exact callsRightly_of_not_active active

/-- The answers of another screen agree on the surface with those of the machine's own, and go
on agreeing through all calls of a step. -/
def AgreesThroughout {ε : Type w} [Screen ε] (machine : Machine δ κ) (other : ε) : Prop :=
  ∀ done, done <+: machine.screenCalls → ∀ cell, machine.state.resolution.contains cell = true →
    Screen.lit (ScreenCall.applyAll done machine.screen) cell =
      Screen.lit (ScreenCall.applyAll done other) cell

section Other

variable {ε : Type w} [Screen ε] {other : ε}

/-- Another screen that shows the same on the surface is called for the same. -/
theorem screenCalls_withScreen (agree : machine.AgreesThroughout other) :
    (machine.withScreen other).screenCalls = machine.screenCalls := by
  by_cases active : machine.Active
  · have mirrored : (machine.withScreen other).Active := active
    rw [AgreesThroughout, screenCalls_of_active active] at agree
    rw [screenCalls_of_active mirrored, screenCalls_of_active active]
    exact machine.operation.calls_congr machine.state.advance machine.screen other agree
  · have mirrored : ¬ (machine.withScreen other).Active := active
    rw [screenCalls_of_not_active mirrored, screenCalls_of_not_active active]

/-- A step does not tell apart screens that receive the same calls. -/
theorem step_withScreen (same : (machine.withScreen other).screenCalls = machine.screenCalls) :
    (machine.withScreen other).step.machine.state = machine.step.machine.state ∧
      (machine.withScreen other).step.reply = machine.step.reply := by
  cases exited : machine.state.exitCode with
  | some code =>
    have mirrored : (machine.withScreen other).state.exitCode = some code := exited
    rw [step_of_exited exited, step_of_exited mirrored]
    exact ⟨rfl, rfl⟩
  | none =>
    have unfinished : (machine.withScreen other).state.exitCode = none := exited
    cases running : machine.state.running with
    | false =>
      rw [step_of_paused exited running, step_of_paused unfinished running]
      exact ⟨rfl, rfl⟩
    | true =>
      have active : machine.Active := ⟨exited, running⟩
      have mirrored : (machine.withScreen other).Active := active
      rw [screenCalls_of_active mirrored, screenCalls_of_active active] at same
      have collision :=
        machine.operation.collision_paint_congr machine.state.advance machine.screen other same
      have senses : (machine.withScreen other).senses = machine.senses :=
        congrArg (Senses.mk machine.held machine.random) collision
      rw [step_of_active active, step_of_active mirrored, state_execute, state_execute,
        reply_execute, reply_execute, senses]
      exact ⟨rfl, rfl⟩

end Other

end Step

section Session

/-- A host that does not reset leaves the screen to the steps. -/
theorem screen_perform {δ : Type u} {κ : Type v} [Screen δ] [KeyPanel κ] (machine : Machine δ κ)
    {command : Command} (keeps : command ≠ .reset) (notStep : command ≠ .step)
    (notFrame : command ≠ .runFrame) :
    (machine.perform command).machine.screen = machine.screen := by
  by_cases continuing : command.Continues
  · exact (machine.rests_perform continuing notStep notFrame).screen
  · cases command with
    | reset => exact absurd rfl keeps
    | restore state => rfl
    | _ => exact absurd trivial continuing

variable {κ : Type v} [KeyPanel κ]

/-- In low resolution a step that does not clear keeps the cells beyond the surface. -/
theorem lit_step_of_low {machine : Machine FrameBuffer κ} (low : machine.state.resolution = .low)
    (uncleared : ¬ (machine.Active ∧ machine.state.wordNumber = 0x00E0)) {cell : Cell}
    (beyond : 64 ≤ cell.x ∨ 32 ≤ cell.y) :
    machine.step.machine.screen.lit cell = machine.screen.lit cell := by
  have rightly := machine.callsRightly
  rw [screen_step]
  refine FrameBuffer.lit_applyAll_of_untouched ?_ ?_ machine.screen
  · intro called
    exact uncleared (rightly.cleared called)
  · intro set
    have inside := Resolution.contains_iff.mp (rightly.inside cell set)
    rw [low] at inside
    exact beyond.elim (Nat.not_le.mpr inside.1) (Nat.not_le.mpr inside.2)

variable {machine : Machine FrameBuffer κ} {commands : List Command}

/-- From one moment to the next those cells stay, unless the host resets. -/
theorem lit_moment_succ (keeps : ∀ command ∈ commands, command ≠ .reset) {time : Nat}
    (low : (machine.moment commands time).state.resolution = .low)
    (uncleared : ¬ machine.ExecutesAt commands time (· = 0x00E0)) {cell : Cell}
    (beyond : 64 ≤ cell.x ∨ 32 ≤ cell.y) :
    (machine.moment commands (time + 1)).screen.lit cell =
      (machine.moment commands time).screen.lit cell := by
  cases next : (machine.stepwise commands)[time]? with
  | none => rw [moment_succ_of_ended next]
  | some command =>
    rw [moment_succ next]
    by_cases stepped : command = .step
    · subst stepped
      exact lit_step_of_low low (fun cleared => uncleared ⟨next, cleared⟩) beyond
    · have part := List.mem_of_getElem? next
      have kept : command ≠ .reset :=
        forall_mem_stepwise Command.noConfusion Command.noConfusion keeps command part
      rw [screen_perform _ kept stepped (ne_runFrame_of_mem_stepwise part)]

/-- In low resolution a session keeps what is beyond the surface. -/
theorem lit_moment_of_low (keeps : ∀ command ∈ commands, command ≠ .reset)
    (low : ∀ time, (machine.moment commands time).state.resolution = .low)
    (uncleared : ∀ time, ¬ machine.ExecutesAt commands time (· = 0x00E0)) (time : Nat)
    {cell : Cell} (beyond : 64 ≤ cell.x ∨ 32 ≤ cell.y) :
    (machine.moment commands time).screen.lit cell = machine.screen.lit cell := by
  induction time with
  | zero => rfl
  | succ time continued =>
    rw [lit_moment_succ keeps (low time) (uncleared time) beyond, continued]

end Session

/-- **What a step asks of its screen.** The calls of every step stay on the surface of the mode,
set no cell twice and clear only for `00E0`, and they are all that the step does to the screen.
A screen that agrees on the surface receives the same calls and leads to the same state and
status. So in a session that stays in low resolution, with neither a reset nor `00E0`, a frame
buffer keeps everything beyond the surface. -/
theorem screen_calls {δ : Type u} {κ : Type v} {ε : Type w} {π : Type t} [Screen δ]
    [KeySource κ] [Screen ε] [KeyPanel π] (machine : Machine δ κ) (other : ε)
    (host : Machine FrameBuffer π) (commands : List Command) :
    machine.CallsRightly ∧
    machine.step.machine.screen = ScreenCall.applyAll machine.screenCalls machine.screen ∧
    (machine.AgreesThroughout other →
      let mirrored := machine.withScreen other
      mirrored.screenCalls = machine.screenCalls ∧
        mirrored.step.machine.state = machine.step.machine.state ∧
        mirrored.step.reply = machine.step.reply) ∧
    ((∀ command ∈ commands, command ≠ .reset) →
      (∀ time, (host.moment commands time).state.resolution = .low) →
      (∀ time, ¬ host.ExecutesAt commands time (· = 0x00E0)) →
      ∀ time cell, 64 ≤ cell.x ∨ 32 ≤ cell.y →
        (host.moment commands time).screen.lit cell = host.screen.lit cell) := by
  refine ⟨machine.callsRightly, machine.screen_step, ?_, ?_⟩
  · intro agree
    have same := screenCalls_withScreen agree
    exact ⟨same, step_withScreen same⟩
  · intro keeps low uncleared time cell beyond
    exact lit_moment_of_low keeps low uncleared time beyond

/-- A machine about to draw a sprite of one pixel in the corner of its screen. -/
def drawing : Machine FrameBuffer Keypad where
  state :=
    { State.initial with
      memory := Memory.blank.writeList Address.programStart [0xD0, 0x01, 0x80]
      index := 0x202 }
  screen := FrameBuffer.blank
  keys := KeyPad.released
  random := { key := Vector.replicate 8 0 }
  timing := Timing.standard

/-- A screen with one cell on, beyond the surface of the low resolution. -/
def speck : FrameBuffer :=
  FrameBuffer.blank.set ⟨100, 50⟩ true

/-- The cell beyond the surface makes no difference to the drawing, and the drawing none to the
cell. -/
theorem screen_calls_drawing :
    drawing.screenCalls = [.set ⟨0, 0⟩ true] ∧
      (drawing.withScreen speck).screenCalls = [.set ⟨0, 0⟩ true] ∧
      (drawing.withScreen speck).step.reply = drawing.step.reply ∧
      ((drawing.withScreen speck).moment [.step] 1).screen.lit ⟨100, 50⟩ = true := by
  obtain ⟨-, -, mirrors, keeps⟩ := screen_calls drawing speck (drawing.withScreen speck) [.step]
  have own : drawing.screenCalls = [.set ⟨0, 0⟩ true] := by decide +kernel
  have agree : drawing.AgreesThroughout speck := by
    intro done _ cell inside
    have within := Resolution.contains_iff.mp inside
    refine FrameBuffer.lit_applyAll_congr done ?_
    have elsewhere : ¬ ((⟨100, 50⟩ : Cell) = cell ∧ cell.x < 128 ∧ cell.y < 64) := by
      rintro ⟨rfl, -⟩
      exact absurd within.1 (by decide)
    exact ((FrameBuffer.lit_set FrameBuffer.blank _ true cell).trans (if_neg elsewhere)).symm
  obtain ⟨same, -, reply⟩ := mirrors agree
  have low (time : Nat) :
      ((drawing.withScreen speck).moment [.step] time).state.resolution = .low := by
    cases time with
    | zero => rfl
    | succ time =>
      simp only [moment, stepwise, parts, List.append_nil, List.take_succ_cons, List.take_nil]
      decide +kernel
  have uncleared (time : Nat) :
      ¬ (drawing.withScreen speck).ExecutesAt [.step] time (· = 0x00E0) := by
    cases time with
    | zero => decide +kernel
    | succ time =>
      rintro ⟨next, -⟩
      simp [stepwise, parts] at next
  have kept := keeps (by simp) low uncleared 1 ⟨100, 50⟩ (.inl (by decide))
  refine ⟨own, same.trans own, reply, kept.trans ?_⟩
  exact (FrameBuffer.lit_set FrameBuffer.blank _ true _).trans (if_pos ⟨rfl, by decide⟩)

end Machine

end SuperChip
