import SuperChip.Proofs.Bounds
import SuperChip.Proofs.Exits

/-!
# Timers

A timer is put to a value by a reset, by a restore, or by its own instruction, and from then on
only ticks move it, one at a time and down to zero. So at any moment of a session its value is the
one put last less the ticks since.

`Timer.value_moment_of_puts` and `Timer.value_moment_of_not_puts` are the two halves for one moment,
and `Machine.timers_count_down` is the closed form over every session from power on.
-/

namespace SuperChip

universe u v

/-- The two timers. -/
inductive Timer where
  | delay
  | sound
  deriving DecidableEq, Repr

namespace Timer

/-- The value of a timer in a state. -/
def value (timer : Timer) (state : State) : UInt8 :=
  match timer with
  | delay => state.delay
  | sound => state.sound

/-- The words that set a timer: `FX15` the delay, `FX18` the sound. -/
def SetBy (timer : Timer) (word : Nat) : Prop :=
  match timer with
  | delay => Form.x 0xF 0x15 word
  | sound => Form.x 0xF 0x18 word

instance (timer : Timer) : DecidablePred timer.SetBy := fun word =>
  match timer with
  | delay => inferInstanceAs (Decidable (Form.x 0xF 0x15 word))
  | sound => inferInstanceAs (Decidable (Form.x 0xF 0x18 word))

/-- A tick takes one from a timer, unless it has run out. -/
theorem toNat_value_tick (timer : Timer) (state : State) :
    (timer.value state.tick).toNat = (timer.value state).toNat - 1 := by
  cases timer <;> exact State.toNat_countdown _

theorem value_withMemory {δ : Type u} {κ : Type v} (timer : Timer) (machine : Machine δ κ)
    (memory : Memory) :
    timer.value (machine.withMemory memory).state = timer.value machine.state := by
  cases timer <;> rfl

end Timer

namespace Timer

/-- The instruction of a timer. -/
def setter (timer : Timer) (x : Register) : Operation :=
  match timer with
  | delay => .setDelay x
  | sound => .setSound x

/-- The words that set a timer decode to its setting from the register they name. -/
theorem decode_of_setBy {timer : Timer} {word : Word} (set : timer.SetBy word.toNat) :
    Operation.decode word = timer.setter (Word.x word) := by
  cases timer <;> exact Operation.decode_of_encodes ⟨set, rfl⟩

section Instruction

variable {δ : Type u} {κ : Type v} [Screen δ] [KeySource κ] {timer : Timer}
  {machine : Machine δ κ}

/-- The instruction of a timer puts a register into it. -/
theorem value_execute_of_setBy (set : timer.SetBy machine.state.wordNumber) :
    timer.value machine.execute.machine.state = machine.state.vx machine.state.wordNumber := by
  have place : (Word.x machine.state.word).val = machine.state.wordNumber / 0x100 % 0x10 := by
    rw [Word.val_x, State.toNat_word]
  rw [← machine.state.get_eq_vx place, Machine.state_execute, Machine.operation]
  rw [← State.toNat_word] at set
  rw [decode_of_setBy set]
  cases timer <;> rfl

/-- No other instruction touches it. -/
theorem value_execute_of_not_setBy (unset : ¬ timer.SetBy machine.state.wordNumber) :
    timer.value machine.execute.machine.state = timer.value machine.state := by
  have footprint := machine.footprint_execute
  cases timer with
  | delay => exact Classical.byContradiction fun changed => unset (footprint.state .delay changed)
  | sound => exact Classical.byContradiction fun changed => unset (footprint.state .sound changed)

/-- Neither does a step that runs nothing. -/
theorem value_step_of_not_setBy
    (unset : machine.Active → ¬ timer.SetBy machine.state.wordNumber) :
    timer.value machine.step.machine.state = timer.value machine.state := by
  by_cases active : machine.Active
  · rw [Machine.step_of_active active]
    exact value_execute_of_not_setBy (unset active)
  · obtain ⟨status, still⟩ := Machine.step_of_not_active active
    rw [still]
    rfl

end Instruction

variable {δ : Type u} {κ : Type v} [Screen δ] [KeyPanel κ]

/-- What a command that puts nothing into a timer makes of it. -/
theorem toNat_value_perform (timer : Timer) (machine : Machine δ κ) {command : Command}
    (continuing : command.Continues) (notFrame : command ≠ .runFrame)
    (unset : command = .step → machine.Active → ¬ timer.SetBy machine.state.wordNumber) :
    (timer.value (machine.perform command).machine.state).toNat =
      (timer.value machine.state).toNat - [command].countP Command.isTick := by
  cases command with
  | step => exact congrArg UInt8.toNat (value_step_of_not_setBy (unset rfl))
  | runFrame => exact absurd rfl notFrame
  | tick => exact timer.toNat_value_tick _
  | reset | restore state => exact continuing.elim
  | load image =>
    obtain ⟨memory, loaded⟩ := machine.exists_withMemory_load image
    change (timer.value (machine.load image).machine.state).toNat = _
    rw [loaded, timer.value_withMemory]
    rfl
  | loadFrom source =>
    obtain ⟨memory, loaded⟩ := machine.exists_withMemory_loadFrom source
    change (timer.value (machine.loadFrom source).machine.state).toNat = _
    rw [loaded, timer.value_withMemory]
    rfl
  | press key | release key | releaseAll => rfl
  | setRunning running | toggleRunning | frameShown => cases timer <;> rfl

/-- At this time of a session a value is put into a timer. -/
inductive PutsAt (timer : Timer) (machine : Machine δ κ) (commands : List Command) (time : Nat) :
    UInt8 → Prop where
  | reset : (machine.stepwise commands)[time]? = some .reset → timer.PutsAt machine commands time 0
  | restore {state : State} : (machine.stepwise commands)[time]? = some (.restore state) →
      timer.PutsAt machine commands time (timer.value state)
  | instruction : machine.ExecutesAt commands time timer.SetBy →
      timer.PutsAt machine commands time
        ((machine.moment commands time).state.vx (machine.moment commands time).state.wordNumber)

/-- The value last put into a timer, with the moment from which it has been there: a session
begins with what the timer shows. -/
structure LastPut (timer : Timer) (machine : Machine δ κ) (commands : List Command) (time start : Nat)
    (value : UInt8) : Prop where
  before : start ≤ time
  put : (start = 0 ∧ value = timer.value machine.state) ∨
    ∃ earlier, start = earlier + 1 ∧ timer.PutsAt machine commands earlier value
  since (later : Nat) (other : UInt8) : start ≤ later → later < time →
    ¬ timer.PutsAt machine commands later other

section Moments

variable {timer : Timer} {machine : Machine δ κ} {commands : List Command} {time start : Nat}
  {value : UInt8}

/-- What is put into a timer at some moment is its value at the next. -/
theorem value_moment_of_puts (puts : timer.PutsAt machine commands time value) :
    timer.value (machine.moment commands (time + 1)).state = value := by
  cases puts with
  | reset given =>
    rw [Machine.moment_succ given]
    cases timer <;> rfl
  | restore given =>
    rw [Machine.moment_succ given]
    rfl
  | instruction executed =>
    rw [executed.moment_succ]
    exact value_execute_of_setBy executed.2.2

/-- Where nothing is put into a timer, a tick takes one from it and nothing else moves it. -/
theorem value_moment_of_not_puts (unput : ∀ value, ¬ timer.PutsAt machine commands time value) :
    (timer.value (machine.moment commands (time + 1)).state).toNat =
      (timer.value (machine.moment commands time).state).toNat -
        (machine.stepwise commands)[time]?.toList.countP Command.isTick := by
  cases next : (machine.stepwise commands)[time]? with
  | none =>
    rw [Machine.moment_succ_of_ended next]
    rfl
  | some command =>
    rw [Machine.moment_succ next]
    refine timer.toNat_value_perform _ ?_
      (Machine.ne_runFrame_of_mem_stepwise (List.mem_of_getElem? next)) ?_
    · cases command with
      | reset => exact absurd (.reset next) (unput _)
      | restore state => exact absurd (.restore next) (unput _)
      | _ => trivial
    · rintro rfl active set
      exact unput _ (.instruction ⟨next, active, set⟩)

/-- The ticks of a session from one moment to another. -/
def ticksBetween (machine : Machine δ κ) (commands : List Command) (start time : Nat) : Nat :=
  (((machine.stepwise commands).take time).drop start).countP Command.isTick

theorem ticksBetween_self (time : Nat) : ticksBetween machine commands time time = 0 := by
  have nothing : ((machine.stepwise commands).take time).drop time = [] :=
    List.drop_eq_nil_of_le (List.length_take_le time _)
  rw [ticksBetween, nothing]
  rfl

/-- The ticks up to the next moment are those up to this one and the tick of this one, if it is one.
-/
theorem ticksBetween_succ (ordered : start ≤ time) :
    ticksBetween machine commands start (time + 1) =
      ticksBetween machine commands start time +
        (machine.stepwise commands)[time]?.toList.countP Command.isTick := by
  unfold ticksBetween
  rw [List.take_add_one, List.drop_append, List.countP_append]
  cases next : (machine.stepwise commands)[time]? with
  | none => simp only [Option.toList_none, List.drop_nil]
  | some command =>
    have within : time < (machine.stepwise commands).length :=
      (List.getElem?_eq_some_iff.mp next).1
    have whole : start - ((machine.stepwise commands).take time).length = 0 := by
      rw [List.length_take]
      omega
    rw [whole, List.drop_zero]

/-- From a put on, a timer shows what was put into it less the ticks. -/
theorem LastPut.toNat_value (last : timer.LastPut machine commands time start value) :
    (timer.value (machine.moment commands time).state).toNat =
      value.toNat - ticksBetween machine commands start time := by
  obtain ⟨ordered, put, since⟩ := last
  induction ordered with
  | refl =>
    rw [ticksBetween_self, Nat.sub_zero]
    rcases put with ⟨rfl, rfl⟩ | ⟨earlier, rfl, puts⟩
    · rfl
    · rw [value_moment_of_puts puts]
  | @step time ordered continued =>
    have before := continued fun later other after within =>
      since later other after (Nat.lt_succ_of_lt within)
    have moved := value_moment_of_not_puts fun other =>
      since time other ordered (Nat.lt_succ_self time)
    rw [ticksBetween_succ ordered, moved, before, Nat.sub_sub]

variable (timer machine commands) in
/-- Something has always been put into a timer last. -/
theorem exists_lastPut (time : Nat) : ∃ start value,
    timer.LastPut machine commands time start value := by
  induction time with
  | zero =>
    refine ⟨0, timer.value machine.state, Nat.le_refl 0, .inl ⟨rfl, rfl⟩, ?_⟩
    intro later other _ within
    exact absurd within (Nat.not_lt_zero later)
  | succ time continued =>
    by_cases puts : ∃ value, timer.PutsAt machine commands time value
    · obtain ⟨value, puts⟩ := puts
      refine ⟨time + 1, value, Nat.le_refl _, .inr ⟨time, rfl, puts⟩, ?_⟩
      intro later other after within
      exact absurd within (Nat.not_lt.mpr after)
    · obtain ⟨start, value, last⟩ := continued
      refine ⟨start, value, Nat.le_succ_of_le last.before, last.put, ?_⟩
      intro later other after within
      rcases Nat.eq_or_lt_of_le (Nat.le_of_lt_succ within) with rfl | earlier
      · exact fun here => puts ⟨other, here⟩
      · exact last.since later other after earlier

end Moments

end Timer

namespace Machine

section Frames

variable {δ : Type u} {κ : Type v} [Screen δ] [KeyPanel κ]

/-- What is left of a frame is steps, and a tick behind them unless the machine stands still. -/
theorem exists_frameParts (before : Outcome δ κ Status) (limit : Nat)
    (moving : before.reply.isIdle = false) : ∃ count,
    before.machine.frameParts limit =
      List.replicate count .step ++ if (burst before limit).reply.isIdle then [] else [.tick] := by
  induction limit generalizing before with
  | zero =>
    refine ⟨0, ?_⟩
    rw [burst, if_neg (Bool.eq_false_iff.mp moving)]
    rfl
  | succ limit continued =>
    simp only [frameParts, burst]
    by_cases idle : before.machine.step.reply.isIdle = true
    · refine ⟨1, ?_⟩
      simp only [idle, Status.endsFrame_of_isIdle idle, ↓reduceIte]
      rfl
    · by_cases ends : before.machine.step.reply.endsFrame = true
      · refine ⟨1, ?_⟩
        simp only [ends, idle, Bool.false_eq_true, ↓reduceIte]
        rfl
      · obtain ⟨count, later⟩ := continued
          { machine := before.machine.step.machine
            reply := before.machine.step.reply
            journal := before.journal ++ before.machine.step.journal }
          (Bool.eq_false_iff.mpr idle)
        refine ⟨count + 1, ?_⟩
        simp only [ends, idle, Bool.false_eq_true, ↓reduceIte]
        exact congrArg (Command.step :: ·) later

/-- A frame ticks once, after all its steps, unless it reports a halt or a pause. -/
theorem exists_parts_runFrame (machine : Machine δ κ) : ∃ count,
    (machine.runFrame.reply.StandsStill → machine.parts .runFrame = List.replicate count .step) ∧
    (¬ machine.runFrame.reply.StandsStill →
      machine.parts .runFrame = List.replicate count .step ++ [.tick]) := by
  obtain ⟨count, parts⟩ := exists_frameParts (machine.answer .running) machine.cyclesPerFrame rfl
  have reply : machine.runFrame.reply =
      (burst (machine.answer .running) machine.cyclesPerFrame).reply := by
    simp only [runFrame]
    split <;> rfl
  rw [← reply] at parts
  refine ⟨count, ?_, ?_⟩
  · intro still
    refine parts.trans ?_
    rw [if_pos ((Status.isIdle_iff _).mpr still), List.append_nil]
  · intro moving
    refine parts.trans ?_
    rw [if_neg (mt (Status.isIdle_iff _).mp moving)]

end Frames

/-- The sound is on for as long as the sound timer has not run out. -/
theorem isSoundOn_iff {δ : Type u} {κ : Type v} (machine : Machine δ κ) :
    machine.isSoundOn = true ↔ 0 < (Timer.sound.value machine.state).toNat := by
  rw [isSoundOn, decide_eq_true_iff, UInt8.lt_iff_toNat_lt]
  rfl

/-- **Timers count down from what was put last.** In every session from power on, at every moment
between its steps and the single acts of its host, a timer shows the value last put into it
less the ticks since, and no less than zero; the sound is on while the ticks have not used up what
was put into its timer. Power on leaves both timers at zero. A tick is one of the host's own or
stands at the end of a frame that reports neither a halt nor a pause. The last of the moments is
what the session leaves. -/
theorem timers_count_down {δ : Type u} {κ : Type v} [Screen δ] [KeyPanel κ] (screen : δ)
    (keys : κ) (timing : Timing) (random : RandomStream) (commands : List Command) :
    let machine := (boot screen keys timing random).machine
    (machine.performAll commands).machine =
      machine.moment commands (machine.stepwise commands).length ∧
    (∀ timer : Timer, timer.value machine.state = 0) ∧
    (∀ (timer : Timer) (time : Nat), ∃ start value,
      timer.LastPut machine commands time start value) ∧
    (∀ (timer : Timer) (time start : Nat) (value : UInt8),
      timer.LastPut machine commands time start value →
      (timer.value (machine.moment commands time).state).toNat =
        value.toNat - Timer.ticksBetween machine commands start time) ∧
    (∀ (time start : Nat) (value : UInt8),
      Timer.sound.LastPut machine commands time start value →
      ((machine.moment commands time).isSoundOn = true ↔
        Timer.ticksBetween machine commands start time < value.toNat)) ∧
    ∀ framed : Machine δ κ, ∃ count,
      (framed.runFrame.reply.StandsStill →
        framed.parts .runFrame = List.replicate count .step) ∧
      (¬ framed.runFrame.reply.StandsStill →
        framed.parts .runFrame = List.replicate count .step ++ [.tick]) := by
  intro machine
  refine ⟨moment_length.symm, ?_, ?_, ?_, ?_, exists_parts_runFrame⟩
  · intro timer
    cases timer <;> rfl
  · intro timer time
    exact timer.exists_lastPut machine commands time
  · intro timer time start value last
    exact last.toNat_value
  · intro time start value last
    rw [isSoundOn_iff, last.toNat_value]
    omega

/-- A state whose program sets the sound timer to two and then waits for a key. -/
def counting : State :=
  { State.initial with
    memory := Memory.blank.writeList Address.programStart [0xF0, 0x18, 0xF0, 0x0A]
    registers := Vector.replicate 16 2 }

/-- The wait ends the frame, which still ticks. Two more ticks of the host are one more than the
timer has left. -/
theorem timers_count_down_counting :
    let session : List Command := [.restore counting, .runFrame, .tick, .tick]
    Timer.sound.LastPut fresh session 6 2 2 ∧
      Timer.ticksBetween fresh session 2 6 = 3 ∧
      (Timer.sound.value (fresh.moment session 6).state).toNat = 0 ∧
      (fresh.moment session 6).isSoundOn ≠ true := by
  intro session
  obtain ⟨-, -, -, closed, sounds, -⟩ := timers_count_down (⟨false⟩ : Uniform)
    (KeyPad.released : Keypad) Timing.standard { key := Vector.replicate 8 0 } session
  have quiet (later : Nat) (after : 2 ≤ later) (before : later < 6) :
      ((fresh.stepwise session)[later]? = some .step ∨
        (fresh.stepwise session)[later]? = some .tick) ∧
      ¬ fresh.ExecutesAt session later Timer.sound.SetBy := by
    obtain rfl | rfl | rfl | rfl : later = 2 ∨ later = 3 ∨ later = 4 ∨ later = 5 := by omega
    all_goals decide +kernel
  have register :
      (fresh.moment session 1).state.vx (fresh.moment session 1).state.wordNumber = 2 := by
    decide +kernel
  have last : Timer.sound.LastPut fresh session 6 2 2 := by
    refine ⟨by decide, .inr ⟨1, rfl, register ▸ .instruction (by decide +kernel)⟩, ?_⟩
    intro later other after before puts
    obtain ⟨given, unset⟩ := quiet later after before
    cases puts with
    | reset put => simp [put] at given
    | restore put => simp [put] at given
    | instruction executed => exact unset executed
  have ticks : Timer.ticksBetween fresh session 2 6 = 3 := by decide +kernel
  refine ⟨last, ticks, (closed .sound 6 2 2 last).trans (by rw [← fresh, ticks]; rfl), ?_⟩
  intro sounding
  have left := (sounds 6 2 2 last).mp sounding
  exact absurd left (by decide +kernel)

end Machine

end SuperChip
