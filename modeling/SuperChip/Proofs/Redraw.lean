import SuperChip.Proofs.Recording

/-!
# Asking for a redraw

A machine shows its frame to a host that asks from the first instruction that paints until the
host notes that it was shown. In between nothing but a reset or a restored state takes the request
back, and while there is none the screen is not called on at all.

The main statement is `Machine.redraw_remembered`. It follows from what one instruction does
(`Machine.redraw_execute_iff`) by an induction over the moments of a session.
-/

namespace SuperChip

universe u v

namespace State

/-- Every word that paints in the mode of a state asks for a redraw. -/
theorem redraw_execute_of_paints (state : State) {word : Word} (senses : Senses)
    (paints : Form.Paints state.resolution word.toNat) :
    (state.execute (Operation.decode word) senses).redraw = true := by
  have scrolled (scrolls : Form.Scrolls state.resolution word.toNat) :
      (state.execute (Operation.decode word) senses).redraw = true := by
    obtain ⟨toward, decoded⟩ := Operation.decode_of_scroll scrolls
    have encoded := Operation.encodes_decode word
    rw [decoded] at encoded
    rw [decoded, execute, if_pos ((Operation.worksIn_iff encoded).mpr scrolls)]
    rfl
  rcases paints with clear | down | draw | sideways
  · have decoded : Operation.decode word = .clear := Operation.decode_of_encodes clear
    rw [decoded]
    rfl
  · exact scrolled (.inl down)
  · have decoded : Operation.decode word = .draw (Word.x word) (Word.y word) (Word.n word) :=
      Operation.decode_of_encodes ⟨draw, rfl, rfl, Word.toNat_n word⟩
    rw [decoded]
    rfl
  · exact scrolled (.inr sideways)

end State

namespace Machine

variable {δ : Type u} {κ : Type v}

/-- There is a frame to show exactly while the redraw flag is set. -/
theorem isSome_frame? (machine : Machine δ κ) :
    machine.frame?.isSome = true ↔ machine.state.redraw = true := by
  unfold frame?
  split <;> simp_all

section Execute

variable [Screen δ] [KeySource κ]

/-- **An instruction asks for a redraw exactly if it paints.** -/
theorem redraw_execute_iff (machine : Machine δ κ) :
    machine.execute.machine.state.redraw = true ↔
      machine.state.redraw = true ∨
        Form.Paints machine.state.resolution machine.state.wordNumber := by
  have footprint := machine.footprint_execute
  constructor
  · intro asked
    by_cases before : machine.state.redraw = true
    · exact .inl before
    · refine .inr (footprint.state .redraw fun (kept : _ = _) => before ?_)
      exact kept ▸ asked
  · rintro (before | paints)
    · exact footprint.redraw before
    · rw [← State.toNat_word] at paints
      exact machine.state.advance.redraw_execute_of_paints machine.senses paints

end Execute

variable [Screen δ] [KeyPanel κ]

/-- What else a host does leaves the request as it is. -/
theorem redraw_perform (machine : Machine δ κ) {command : Command}
    (continuing : command.Continues) (unshown : command ≠ .frameShown) (notStep : command ≠ .step)
    (notFrame : command ≠ .runFrame) :
    (machine.perform command).machine.state.redraw = machine.state.redraw := by
  cases command with
  | step => exact absurd rfl notStep
  | runFrame => exact absurd rfl notFrame
  | frameShown => exact absurd rfl unshown
  | reset | restore state => exact continuing.elim
  | load image =>
    obtain ⟨memory, loaded⟩ := machine.exists_withMemory_load image
    exact congrArg (fun after => after.state.redraw) loaded
  | loadFrom source =>
    obtain ⟨memory, loaded⟩ := machine.exists_withMemory_loadFrom source
    exact congrArg (fun after => after.state.redraw) loaded
  | _ => rfl

/-- At this time of a session an instruction is executed that paints in the mode of the moment. -/
def PaintsAt (machine : Machine δ κ) (commands : List Command) (time : Nat) : Prop :=
  machine.ExecutesAt commands time
    (Form.Paints (machine.moment commands time).state.resolution)

section Moments

variable {machine : Machine δ κ} {commands : List Command}

/-- Nothing paints once the commands have run out. -/
theorem PaintsAt.lt_length {time : Nat} (paints : machine.PaintsAt commands time) :
    time < (machine.stepwise commands).length :=
  (List.getElem?_eq_some_iff.mp paints.1).1

/-- While nothing is painted the screen stays as it is. -/
theorem screen_moment_of_unpainted (continuing : ∀ command ∈ commands, command.Continues)
    (unpainted : ∀ time, ¬ machine.PaintsAt commands time) (time : Nat) :
    (machine.moment commands time).screen = machine.screen := by
  induction time with
  | zero => rfl
  | succ time continued =>
    rcases rests_or_executes machine continuing time with rests | executed
    · exact rests.screen.trans continued
    · have footprint := (machine.moment commands time).footprint_execute
      rw [executed.moment_succ, ← continued]
      exact Classical.byContradiction fun changed =>
        unpainted time ⟨executed.1, executed.2.1, footprint.screen changed⟩

variable (unacknowledged : ∀ command ∈ commands, command.Continues ∧ command ≠ .frameShown)

include unacknowledged

/-- The redraw flag is set at the next moment if it is set at this one or something paints in
between. -/
theorem redraw_moment_succ (time : Nat) :
    (machine.moment commands (time + 1)).state.redraw = true ↔
      (machine.moment commands time).state.redraw = true ∨ machine.PaintsAt commands time := by
  have unpainted (unexecuted : ¬ machine.ExecutesAt commands time fun _ => True) :
      ¬ machine.PaintsAt commands time :=
    fun paints => unexecuted (ExecutesAt.imp paints fun _ _ => trivial)
  cases machine.passage commands time with
  | executes executed =>
    rw [executed.moment_succ, redraw_execute_iff]
    refine or_congr_right ⟨?_, ?_⟩
    · intro paints
      exact ⟨executed.1, executed.2.1, paints⟩
    · intro painted
      exact painted.2.2
  | stands unexecuted same => rw [same, or_iff_left (unpainted unexecuted)]
  | @hosted command unexecuted part notStep notFrame next =>
    have silent : command.Continues ∧ command ≠ .frameShown :=
      forall_mem_stepwise ⟨trivial, Command.noConfusion⟩ ⟨trivial, Command.noConfusion⟩
        unacknowledged command part
    rw [next, redraw_perform _ silent.1 silent.2 notStep notFrame,
      or_iff_left (unpainted unexecuted)]

/-- So a request stands exactly if it stood at the start or something was painted since. -/
theorem redraw_moment_iff (time : Nat) :
    (machine.moment commands time).state.redraw = true ↔
      machine.state.redraw = true ∨
        ∃ earlier, earlier < time ∧ machine.PaintsAt commands earlier := by
  induction time with
  | zero => simp [moment, after]
  | succ time continued =>
    rw [redraw_moment_succ unacknowledged, continued, Nat.exists_lt_succ_right, or_assoc]

/-- The redraw flag is set after a session if it was set before or something painted at some moment.
-/
theorem redraw_performAll_iff :
    (machine.performAll commands).machine.state.redraw = true ↔
      machine.state.redraw = true ∨ ∃ time, machine.PaintsAt commands time := by
  rw [← moment_length, redraw_moment_iff unacknowledged]
  refine or_congr_right ⟨?_, ?_⟩
  · rintro ⟨time, -, paints⟩
    exact ⟨time, paints⟩
  · rintro ⟨time, paints⟩
    exact ⟨time, paints.lt_length, paints⟩

/-- Where no request stands at the end, the screen is the one of the start. -/
theorem screen_performAll_of_unasked
    (unasked : (machine.performAll commands).machine.state.redraw = false) :
    (machine.performAll commands).machine.screen = machine.screen := by
  rw [← moment_length]
  refine screen_moment_of_unpainted (fun command member => (unacknowledged command member).1) ?_ _
  intro time paints
  have asked := (redraw_performAll_iff unacknowledged).mpr (.inr ⟨time, paints⟩)
  exact Bool.noConfusion (asked.symm.trans unasked)

/-- Nor was it called on: a recorded screen, too, is the one of the start. -/
theorem sessionCalls_of_unasked
    (unasked : (machine.performAll commands).machine.state.redraw = false) :
    machine.sessionCalls commands = [] := by
  have recorded := machine.matches_recording commands
  have mirrored : (machine.recording.performAll commands).machine.state.redraw = false := by
    rw [← unasked]
    exact congrArg (fun machine => machine.state.redraw) recorded.machine.symm
  rw [sessionCalls, screen_performAll_of_unasked unacknowledged mirrored]
  rfl

end Moments

/-- **No redraw is lost.** In a session in which the host does not reset, restore a state or note
that the screen was shown, a frame is due at the end exactly if one was due at the start or an
instruction was executed that paints in its mode. If none is due, the session has not called on
the screen, and the screen is as it was. -/
theorem redraw_remembered (machine : Machine δ κ) {commands : List Command}
    (unacknowledged : ∀ command ∈ commands, command.Continues ∧ command ≠ .frameShown) :
    let last := (machine.performAll commands).machine
    (last.frame?.isSome = true ↔
        machine.frame?.isSome = true ∨ ∃ time, machine.PaintsAt commands time) ∧
      (last.frame? = none → machine.sessionCalls commands = [] ∧ last.screen = machine.screen) := by
  intro last
  constructor
  · rw [isSome_frame?, isSome_frame?]
    exact redraw_performAll_iff unacknowledged
  · intro absent
    have unasked : last.state.redraw = false := by
      rw [← Bool.not_eq_true, ← isSome_frame?, absent]
      exact Bool.noConfusion
    exact ⟨sessionCalls_of_unasked unacknowledged unasked,
      screen_performAll_of_unasked unacknowledged unasked⟩

/-- A machine in low resolution that is told to scroll right, in front of a screen with one cell
on. -/
def speckled : Machine FrameBuffer Keypad :=
  scrolling.withScreen speck

/-- The scroll is ignored, so nothing is due and the cell stays; a sprite is due, and neither a
pause nor a frame takes that back. -/
theorem redraw_remembered_speckled :
    let session : List Command := [.tick, .press 5, .step, .setRunning false, .runFrame]
    (∀ command ∈ session, command.Continues ∧ command ≠ .frameShown) ∧
      speckled.sessionCalls session = [] ∧
      (speckled.performAll session).machine.screen = speck ∧
      (drawing.performAll session).machine.frame?.isSome = true := by
  intro session
  have unacknowledged : ∀ command ∈ session, command.Continues ∧ command ≠ .frameShown := by
    simp [session, Command.Continues]
  obtain ⟨-, still⟩ := redraw_remembered speckled unacknowledged
  obtain ⟨due, -⟩ := redraw_remembered drawing unacknowledged
  have unasked : (speckled.performAll session).machine.state.redraw = false := by decide +kernel
  obtain ⟨uncalled, kept⟩ := still (if_neg (Bool.eq_false_iff.mp unasked))
  have painted : drawing.PaintsAt session 2 :=
    ⟨by decide +kernel, by decide +kernel, .inr (.inr (.inl (by decide +kernel)))⟩
  exact ⟨unacknowledged, uncalled, kept, due.mpr (.inr ⟨2, painted⟩)⟩

end Machine

end SuperChip
