import SuperChip.Machine.Step
import SuperChip.Screen.Recorded

/-!
# Frames as steps

A frame is as many single steps as its first ending status allows, and then a
tick unless the machine stands still. The bound on the steps is read when the
frame starts, so a change of mode inside the frame does not move it.
-/

namespace SuperChip

universe u v

namespace Status

/-- The program has exited or the host has paused the machine. -/
def StandsStill (status : Status) : Prop :=
  status = .stopped ∨ ∃ code, status = .halted code

/-- No further instruction of the frame runs. -/
def Ends (status : Status) : Prop :=
  status.StandsStill ∨ status = .waitingForKey

/-- What a status says about standing still, as a proposition. -/
theorem isIdle_iff (status : Status) : status.isIdle = true ↔ status.StandsStill := by
  cases status <;> simp [isIdle, StandsStill]

/-- What a status says about ending a frame, as a proposition. -/
theorem endsFrame_iff (status : Status) : status.endsFrame = true ↔ status.Ends := by
  cases status with
  | waitingForKey => simp [endsFrame, Ends]
  | _ => simp [endsFrame, Ends, isIdle, StandsStill]

end Status

namespace Machine

variable {δ : Type u} {κ : Type v} [Screen δ] [KeySource κ] (machine : Machine δ κ)

/-- Consecutive steps: the machine after them, the last status, and everything noted. -/
def steps (machine : Machine δ κ) : Nat → Outcome δ κ Status
  | 0 => machine.answer .running
  | count + 1 =>
      let before := machine.steps count
      let last := before.machine.step
      { machine := last.machine
        reply := last.reply
        journal := before.journal ++ last.journal }

/-- The step after which a frame of at most `count` steps is over: the first whose status ends
the frame, and the last one allowed if there is none. -/
structure FrameEndsAt (count place : Nat) : Prop where
  positive : 1 ≤ place
  within : place ≤ count
  first (earlier : Nat) : 1 ≤ earlier → earlier < place → ¬ (machine.steps earlier).reply.Ends
  last : place < count → (machine.steps place).reply.Ends

/-- A burst that continues some steps is itself a number of steps, and stops where it must. -/
theorem burst_steps (limit done : Nat) :
    ∃ place, done ≤ place ∧ place ≤ done + limit ∧
      (∀ earlier, done < earlier → earlier < place → ¬ (machine.steps earlier).reply.Ends) ∧
      (place < done + limit → done < place ∧ (machine.steps place).reply.Ends) ∧
      burst (machine.steps done) limit = machine.steps place := by
  -- The bound is spent from the front, so the steps already taken must stay free.
  induction limit generalizing done with
  | zero =>
    refine ⟨done, Nat.le_refl done, Nat.le_refl done, ?_, ?_, rfl⟩
    · intro earlier after before
      omega
    · intro short
      omega
  | succ limit continued =>
    have unfolded : burst (machine.steps done) (limit + 1) =
        if (machine.steps (done + 1)).reply.endsFrame then machine.steps (done + 1)
        else burst (machine.steps (done + 1)) limit := rfl
    by_cases ends : (machine.steps (done + 1)).reply.Ends
    · refine ⟨done + 1, by omega, by omega, ?_, fun _ => ⟨by omega, ends⟩, ?_⟩
      · intro earlier after before
        omega
      · rw [unfolded, if_pos ((Status.endsFrame_iff _).mpr ends)]
    · obtain ⟨place, after, within, first, last, reached⟩ := continued (done + 1)
      refine ⟨place, by omega, by omega, ?_, ?_, ?_⟩
      · intro earlier later before
        rcases Nat.eq_or_lt_of_le later with same | further
        · rw [← same]
          exact ends
        · exact first earlier further before
      · intro short
        obtain ⟨later, ending⟩ := last (by omega)
        exact ⟨by omega, ending⟩
      · rw [unfolded, if_neg (mt (Status.endsFrame_iff _).mp ends)]
        exact reached

variable {machine}

/-- A frame ends at one step only. -/
theorem FrameEndsAt.unique {count place other : Nat} (one : machine.FrameEndsAt count place)
    (another : machine.FrameEndsAt count other) : other = place := by
  rcases Nat.lt_trichotomy other place with earlier | same | later
  · have short : other < count := Nat.lt_of_lt_of_le earlier one.within
    exact absurd (another.last short) (one.first other another.positive earlier)
  · exact same
  · have short : place < count := Nat.lt_of_lt_of_le later another.within
    exact absurd (one.last short) (another.first place one.positive later)

variable (machine)

/-- At every bound but zero there is such a step, and the burst runs up to it. -/
theorem exists_frameEndsAt {count : Nat} (positive : 1 ≤ count) :
    ∃ place, machine.FrameEndsAt count place ∧
      burst (machine.answer .running) count = machine.steps place := by
  obtain ⟨place, -, within, first, last, reached⟩ := machine.burst_steps count 0
  have allowed : place ≤ count := by omega
  have started : 1 ≤ place := by
    rcases Nat.eq_zero_or_pos place with none_run | some_run
    · exact (last (by omega)).1
    · exact some_run
  refine ⟨place, ⟨started, allowed, first, ?_⟩, reached⟩
  intro short
  exact (last (by omega)).2

/-- A frame is its burst, with a tick unless the burst ends standing still. -/
theorem runFrame_of_burst {ran : Outcome δ κ Status}
    (run : burst (machine.answer .running) machine.cyclesPerFrame = ran) :
    (ran.reply.StandsStill → machine.runFrame = ran) ∧
    (¬ ran.reply.StandsStill → machine.runFrame = { ran with machine := ran.machine.tick }) := by
  have unfolded : machine.runFrame =
      if ran.reply.isIdle then ran else { ran with machine := ran.machine.tick } := by
    rw [← run]
    rfl
  constructor
  · intro still
    rw [unfolded, if_pos ((Status.isIdle_iff _).mpr still)]
  · intro moving
    rw [unfolded, if_neg (mt (Status.isIdle_iff _).mp moving)]

variable {machine} in
/-- A machine whose step does nothing but report that it stands still has nothing to run. -/
theorem runFrame_of_step_eq_answer {status : Status} (still : status.StandsStill)
    (idle : machine.step = machine.answer status) : machine.runFrame = machine.answer status := by
  have first : machine.steps 1 = machine.answer status := by
    simp only [steps, answer, idle, Array.append_empty]
  have ending : (machine.steps 1).reply.Ends := by
    rw [first]
    exact .inl still
  have positive : 1 ≤ machine.cyclesPerFrame := Timing.one_le_cyclesPerTick _ _
  obtain ⟨place, ends, run⟩ := exists_frameEndsAt machine positive
  have once : machine.FrameEndsAt machine.cyclesPerFrame 1 :=
    ⟨Nat.le_refl 1, positive, fun earlier after before => by omega, fun _ => ending⟩
  rw [once.unique ends, first] at run
  exact (machine.runFrame_of_burst run).1 still

/-- **A frame is steps and a tick.** With the number of steps settled by the mode at the start,
exactly one step is the last of the frame. The frame is the steps up to it, with all that they
note, and a tick unless the last status is a halt or a pause. A machine that is paused or has
exited is left as it is. -/
theorem runFrame_eq_steps (count : Nat)
    (allowed : count = max 1 ((machine.timing.rate machine.state.resolution).toNat /
      max 1 machine.timing.timerRate.toNat)) :
    (∃ place, machine.FrameEndsAt count place ∧
      (∀ other, machine.FrameEndsAt count other → other = place) ∧
      ((machine.steps place).reply.StandsStill → machine.runFrame = machine.steps place) ∧
      (¬ (machine.steps place).reply.StandsStill → machine.runFrame =
        { machine.steps place with machine := (machine.steps place).machine.tick })) ∧
    (∀ code, machine.state.exitCode = some code →
      machine.runFrame = machine.answer (.halted code)) ∧
    (machine.state.exitCode = none → machine.state.running = false →
      machine.runFrame = machine.answer .stopped) := by
  obtain rfl : count = machine.cyclesPerFrame := allowed
  have positive : 1 ≤ machine.cyclesPerFrame := Timing.one_le_cyclesPerTick _ _
  obtain ⟨place, ends, run⟩ := exists_frameEndsAt machine positive
  obtain ⟨still, moving⟩ := machine.runFrame_of_burst run
  refine ⟨⟨place, ends, fun other => ends.unique, still, moving⟩, ?_, ?_⟩
  · intro code exited
    exact runFrame_of_step_eq_answer (.inr ⟨code, rfl⟩) (step_of_exited exited)
  · intro unfinished paused
    exact runFrame_of_step_eq_answer (.inl rfl) (step_of_paused unfinished paused)

/-- A machine that is told to switch to high resolution, where it would run faster, with a
timer rate of zero. -/
def switching : Machine Uniform Keypad where
  state :=
    { State.initial with
      memory := Memory.blank.writeList Address.programStart [0x00, 0xFF]
      delay := 5 }
  screen := ⟨false⟩
  keys := KeyPad.released
  random := { key := Vector.replicate 8 0 }
  timing := { lowRate := 3, highRate := 700, timerRate := 0 }

/-- The frame keeps the three steps of low resolution and ticks once; paused, it does nothing. -/
theorem runFrame_eq_steps_switching :
    switching.runFrame =
      { switching.steps 3 with machine := (switching.steps 3).machine.tick } ∧
      switching.runFrame.machine.state.resolution = .high ∧
      switching.runFrame.machine.state.delay = 4 ∧
      (switching.setRunning false).runFrame = (switching.setRunning false).answer .stopped := by
  obtain ⟨⟨place, -, unique, -, moving⟩, -⟩ := runFrame_eq_steps switching 3 (by decide)
  obtain ⟨-, -, paused⟩ := runFrame_eq_steps (switching.setRunning false) 3 (by decide)
  have first : (switching.steps 1).reply = .running := by decide +kernel
  have second : (switching.steps 2).reply = .running := by decide +kernel
  have third : (switching.steps 3).reply = .running := by decide +kernel
  have ends : switching.FrameEndsAt 3 3 := by
    refine ⟨by decide, by decide, ?_, fun short => absurd short (by decide)⟩
    intro earlier after before
    obtain rfl | rfl : earlier = 1 ∨ earlier = 2 := by omega
    · rw [first]
      simp [Status.Ends, Status.StandsStill]
    · rw [second]
      simp [Status.Ends, Status.StandsStill]
  have three : 3 = place := unique 3 ends
  subst three
  have frame := moving (by rw [third]; simp [Status.StandsStill])
  refine ⟨frame, ?_, ?_, paused rfl rfl⟩
  · rw [frame]
    decide +kernel
  · rw [frame]
    decide +kernel

end Machine

end SuperChip
