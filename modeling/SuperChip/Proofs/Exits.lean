import SuperChip.Proofs.Footprint
import SuperChip.Proofs.Moments

/-!
# Exits

An exit is final. Once the program has exited, no call of the host short of a reset or a restore
makes the machine run again: not even resuming it. Ticks still move the timers and images still
go to memory, and nothing else of the program changes.

Only `001N` and `00FD` exit. `Machine.exit_final` states both halves for every session, with
frames written out into their steps.
-/

namespace SuperChip

universe u v

namespace Form

/-- The words that exit with a code: `001N` with its last digit, `00FD` with zero. -/
def Exits (code : UInt8) (word : Nat) : Prop :=
  (n 0x001 word ∧ code.toNat = word % 0x10) ∨ (word = 0x00FD ∧ code = 0)

end Form

namespace Command

/-- Whether the command is a tick of the timers. -/
def isTick : Command → Bool
  | tick => true
  | _ => false

/-- The program image that a command brings, if it can be read. -/
def brought? : Command → Option (Array UInt8)
  | load image => some image
  | loadFrom source => (Reading.gather #[] source).toOption
  | _ => none

/-- The program image that a command puts into memory. -/
def image? (command : Command) : Option (Array UInt8) :=
  command.brought?.filter fun image => decide (image.size ≤ Rom.capacity)

end Command

namespace Memory

/-- Memory after program images were loaded one after the other. -/
def loadAll (memory : Memory) (images : List (Array UInt8)) : Memory :=
  images.foldl (fun loaded image => loaded.place Address.programStart.toNat image) memory

theorem loadAll_append (memory : Memory) (first second : List (Array UInt8)) :
    memory.loadAll (first ++ second) = (memory.loadAll first).loadAll second :=
  List.foldl_append

theorem loadAll_toList (memory : Memory) (image? : Option (Array UInt8)) :
    memory.loadAll image?.toList =
      image?.elim memory (memory.place Address.programStart.toNat) := by
  cases image? with
  | none => rfl
  | some image =>
    simp only [loadAll, Option.toList_some, List.foldl_cons, List.foldl_nil, Option.elim_some]

end Memory

namespace Operation

/-- Only an exit, and the halt with code 0, answers that the machine has halted. -/
theorem exits_of_status {operation : Operation} {senses : Senses} {code : UInt8}
    (halted : operation.status senses = .halted code) :
    operation = .exit code ∨ (operation = .halt ∧ code = 0) := by
  cases operation with
  | exit given => exact .inl (congrArg exit (Status.halted.inj halted))
  | halt => exact .inr ⟨rfl, (Status.halted.inj halted).symm⟩
  | waitKey x =>
    dsimp only [status] at halted
    split at halted <;> simp at halted
  | _ => exact Status.noConfusion halted

end Operation

namespace State

variable {state : State} {operation : Operation} {senses : Senses} {code : UInt8}

/-- An operation exits exactly when it reports so. -/
theorem exitCode_execute_iff (unfinished : state.exitCode = none) :
    (state.execute operation senses).exitCode = some code ↔
      operation.status senses = .halted code := by
  constructor
  · intro exited
    by_cases owned : operation.Owns state senses .exitCode
    · cases operation with
      | exit given => exact congrArg Status.halted (Option.some.inj exited)
      | halt => exact congrArg Status.halted (Option.some.inj exited)
      | waitKey x => rcases Operation.eq_of_owns_waitKey owned with same | same <;> cases same
      | _ => simp [Operation.Owns] at owned
    · have kept : (state.execute operation senses).exitCode = state.exitCode :=
        agrees_execute state operation senses owned
      rw [kept, unfinished] at exited
      exact absurd exited (by simp)
  · intro halted
    rcases Operation.exits_of_status halted with rfl | ⟨rfl, rfl⟩ <;> rfl

/-- An operation that answers that the machine has halted stops it. -/
theorem running_execute_of_halted (halted : operation.status senses = .halted code) :
    (state.execute operation senses).running = false := by
  rcases Operation.exits_of_status halted with rfl | ⟨rfl, rfl⟩ <;> rfl

end State

namespace Machine

section Step

variable {δ : Type u} {κ : Type v} [KeySource κ] (machine : Machine δ κ)

/-- The machine answers that it has halted with a code exactly when its word is an exit with that
code. -/
theorem report_eq_halted_iff {code : UInt8} :
    machine.report = .halted code ↔ Form.Exits code machine.state.wordNumber := by
  unfold report Form.Exits
  dsimp only
  by_cases exits : Form.n 0x001 machine.state.wordNumber
  · have digit : (UInt8.ofNat (machine.state.wordNumber % 0x10)).toNat =
        machine.state.wordNumber % 0x10 := by
      rw [UInt8.toNat_ofNat']
      omega
    rw [if_pos exits, Status.halted.injEq, ← UInt8.toNat_inj, digit]
    constructor
    · intro same
      exact .inl ⟨exits, same.symm⟩
    · rintro (⟨-, same⟩ | ⟨halts, -⟩)
      · exact same.symm
      · omega
  · rw [if_neg exits]
    by_cases halts : machine.state.wordNumber = 0x00FD
    · rw [if_pos halts, Status.halted.injEq]
      constructor
      · intro same
        exact .inr ⟨halts, same.symm⟩
      · rintro (⟨exit, -⟩ | ⟨-, zero⟩)
        · exact absurd exit exits
        · exact zero.symm
    · rw [if_neg halts]
      constructor
      · intro halted
        split at halted
        · exact Status.noConfusion halted
        · split at halted <;> exact Status.noConfusion halted
      · rintro (⟨exit, -⟩ | ⟨halt, -⟩)
        · exact absurd exit exits
        · exact absurd halt halts

variable [Screen δ]

/-- What an executed exit leaves and reports. -/
theorem execute_of_exits {code : UInt8} (unfinished : machine.state.exitCode = none)
    (exits : Form.Exits code machine.state.wordNumber) :
    machine.execute.machine.state.exitCode = some code ∧
      machine.execute.machine.state.running = false ∧ machine.execute.reply = .halted code := by
  have halted : machine.operation.status machine.senses = .halted code := by
    rw [← reply_execute, reply_execute_eq_report]
    exact machine.report_eq_halted_iff.mpr exits
  have ahead : machine.state.advance.exitCode = none := unfinished
  refine ⟨?_, ?_, halted⟩
  · rw [state_execute]
    exact (State.exitCode_execute_iff ahead).mpr halted
  · rw [state_execute]
    exact State.running_execute_of_halted halted

/-- An exit code that was not there before an execution comes from the word that was executed. -/
theorem exits_of_execute {code : UInt8} (unfinished : machine.state.exitCode = none)
    (exited : machine.execute.machine.state.exitCode = some code) :
    Form.Exits code machine.state.wordNumber := by
  rw [state_execute] at exited
  have ahead : machine.state.advance.exitCode = none := unfinished
  have halted := (State.exitCode_execute_iff ahead).mp exited
  rw [← reply_execute, reply_execute_eq_report] at halted
  exact machine.report_eq_halted_iff.mp halted

end Step

section Exited

variable {δ : Type u} {κ : Type v}

/-- What commands leave of a machine whose program has exited: the program rests, the timers
have gone down by the ticks, and memory has taken the images that fit. -/
structure StaysExited (machine : Machine δ κ) (code : UInt8) (commands : List Command)
    (last : Machine δ κ) : Prop where
  exitCode : last.state.exitCode = some code
  rests : machine.Rests last
  delay : last.state.delay.toNat = machine.state.delay.toNat - commands.countP Command.isTick
  sound : last.state.sound.toNat = machine.state.sound.toNat - commands.countP Command.isTick
  memory : last.state.memory = machine.state.memory.loadAll (commands.filterMap Command.image?)

variable {machine : Machine δ κ} {code : UInt8}

theorem StaysExited.refl (exited : machine.state.exitCode = some code) :
    machine.StaysExited code [] machine where
  exitCode := exited
  rests := .refl machine
  delay := rfl
  sound := rfl
  memory := rfl

/-- The finished state is kept through two sessions if it is kept through each. -/
theorem StaysExited.trans {middle last : Machine δ κ} {first second : List Command}
    (left : machine.StaysExited code first middle)
    (right : middle.StaysExited code second last) :
    machine.StaysExited code (first ++ second) last where
  exitCode := right.exitCode
  rests := left.rests.trans right.rests
  delay := by rw [right.delay, left.delay, List.countP_append, Nat.sub_sub]
  sound := by rw [right.sound, left.sound, List.countP_append, Nat.sub_sub]
  memory := by rw [right.memory, left.memory, List.filterMap_append, Memory.loadAll_append]

/-- A command that rests and leaves the timers alone only has to account for memory. -/
theorem StaysExited.of_rests {last : Machine δ κ} {command : Command}
    (exited : machine.state.exitCode = some code) (rests : machine.Rests last)
    (ticks : command.isTick = false) (delay : last.state.delay = machine.state.delay)
    (sound : last.state.sound = machine.state.sound)
    (memory : last.state.memory = command.image?.elim machine.state.memory
      (machine.state.memory.place Address.programStart.toNat)) :
    machine.StaysExited code [command] last where
  exitCode := rests.exitCode.trans exited
  rests := rests
  delay := by simp [delay, ticks]
  sound := by simp [sound, ticks]
  memory := by
    have single : [command].filterMap Command.image? = command.image?.toList := by
      cases image : command.image? <;> simp [image]
    rw [memory, single, Memory.loadAll_toList]

/-- A command that does no more than place its image in the memory keeps the finished state. -/
theorem StaysExited.of_withMemory {memory : Memory} {command : Command}
    (exited : machine.state.exitCode = some code) (ticks : command.isTick = false)
    (loaded : memory = command.image?.elim machine.state.memory
      (machine.state.memory.place Address.programStart.toNat)) :
    machine.StaysExited code [command] (machine.withMemory memory) :=
  .of_rests exited (machine.rests_withMemory memory) ticks rfl rfl loaded

/-- A command that is refused and changes nothing keeps the finished state. -/
theorem StaysExited.of_same {command : Command} (exited : machine.state.exitCode = some code)
    (ticks : command.isTick = false) (refused : command.image? = none) :
    machine.StaysExited code [command] machine :=
  .of_rests exited (.refl machine) ticks rfl rfl (by rw [refused, Option.elim_none])

/-- Loading an image keeps the finished state, and an image that is too large is refused. -/
theorem staysExited_load (exited : machine.state.exitCode = some code) {command : Command}
    {image : Array UInt8} (brings : command.brought? = some image)
    (ticks : command.isTick = false) :
    machine.StaysExited code [command] (machine.load image).machine := by
  by_cases fits : image.size ≤ Rom.capacity
  · have loaded : command.image? = some image := by
      rw [Command.image?, brings, Option.filter_some, decide_eq_true fits, if_pos rfl]
    rw [machine_load, if_pos fits]
    exact .of_withMemory exited ticks (by rw [loaded, Option.elim_some])
  · have refused : command.image? = none := by
      rw [Command.image?, brings, Option.filter_some, decide_eq_false fits, if_neg (by simp)]
    rw [machine_load, if_neg fits]
    exact .of_same exited ticks refused

/-- Reading an image from a reader keeps the finished state, whether or not it is accepted. -/
theorem staysExited_loadFrom (exited : machine.state.exitCode = some code)
    (source : List Reading) :
    machine.StaysExited code [.loadFrom source] (machine.loadFrom source).machine := by
  cases gathered : Reading.gather #[] source with
  | ok image =>
    have brings : (Command.loadFrom source).brought? = some image := by
      rw [Command.brought?, gathered]
      rfl
    rw [loadFrom, gathered]
    exact staysExited_load exited brings rfl
  | error error =>
    have unread : (Command.loadFrom source).image? = none := by
      rw [Command.image?, Command.brought?, gathered]
      rfl
    rw [loadFrom, gathered]
    exact .of_same exited rfl unread

end Exited

variable {δ : Type u} {κ : Type v} [Screen δ] [KeyPanel κ]

section Absorbed

variable {machine : Machine δ κ} {code : UInt8}

/-- A finished machine answers every step and every frame with its exit code and does nothing else.
-/
theorem perform_of_exited (exited : machine.state.exitCode = some code) {command : Command}
    (runs : command = .step ∨ command = .runFrame) :
    machine.perform command = machine.answer (.status (.halted code)) := by
  have still := step_of_exited exited
  rcases runs with rfl | rfl
  · simp only [perform, still, answer]
  · simp only [perform, runFrame_of_step_eq_answer (.inr ⟨code, rfl⟩) still, answer]

/-- Every command of a continuing session keeps the finished state. -/
theorem staysExited_perform (exited : machine.state.exitCode = some code) {command : Command}
    (continuing : command.Continues) :
    machine.StaysExited code [command] (machine.perform command).machine := by
  cases command with
  | step =>
    rw [perform_of_exited exited (.inl rfl)]
    exact .of_same exited rfl rfl
  | runFrame =>
    rw [perform_of_exited exited (.inr rfl)]
    exact .of_same exited rfl rfl
  | reset | restore state => exact continuing.elim
  | tick =>
    exact
      { exitCode := exited
        rests := rests_perform machine trivial Command.noConfusion Command.noConfusion
        delay := State.toNat_countdown machine.state.delay
        sound := State.toNat_countdown machine.state.sound
        memory := rfl }
  | load image => exact staysExited_load exited rfl rfl
  | loadFrom source => exact staysExited_loadFrom exited source
  | press key | release key | setRunning running =>
    exact .of_rests exited
      (rests_perform machine trivial Command.noConfusion Command.noConfusion) rfl rfl rfl rfl
  | releaseAll | toggleRunning | frameShown =>
    exact .of_rests exited
      (rests_perform machine trivial Command.noConfusion Command.noConfusion) rfl rfl rfl rfl

/-- What one command keeps of an exit, a session keeps. -/
theorem staysExited_after (exited : machine.state.exitCode = some code) {commands : List Command}
    (continuing : ∀ command ∈ commands, command.Continues) :
    machine.StaysExited code commands (machine.after commands) := by
  induction commands generalizing machine with
  | nil => exact .refl exited
  | cons command rest continued =>
    have first := staysExited_perform exited (continuing command List.mem_cons_self)
    have later := continued first.exitCode fun other member =>
      continuing other (List.mem_cons_of_mem command member)
    exact first.trans later

end Absorbed

/-- A session exits at a time exactly if it executes an exit then. -/
theorem exitCode_moment_succ_iff {machine : Machine δ κ} {commands : List Command}
    (continuing : ∀ command ∈ commands, command.Continues) {time : Nat} {code : UInt8}
    (unfinished : (machine.moment commands time).state.exitCode = none) :
    (machine.moment commands (time + 1)).state.exitCode = some code ↔
      machine.ExecutesAt commands time (Form.Exits code) := by
  constructor
  · intro exited
    rcases machine.rests_or_executes continuing time with rests | executed
    · rw [rests.exitCode, unfinished] at exited
      exact absurd exited (by simp)
    · rw [executed.moment_succ] at exited
      obtain ⟨stepped, active, -⟩ := executed
      exact ⟨stepped, active, exits_of_execute _ unfinished exited⟩
  · intro executed
    rw [executed.moment_succ]
    exact (execute_of_exits _ unfinished executed.2.2).1

/-- **An exit is final.** In a session without reset and restore, a machine whose program has
exited stays so at every point: steps and frames report the exit, change nothing and note
nothing, and the host only moves the timers by ticking and memory by loading. A machine whose
program has not exited comes to exit exactly by a step that executes `001N` or `00FD`, and
that step stops it and reports the exit. -/
theorem exit_final (machine : Machine δ κ) (commands : List Command)
    (continuing : ∀ command ∈ commands, command.Continues) :
    (∀ code, machine.state.exitCode = some code → ∀ count,
      let here := (machine.performAll (commands.take count)).machine
      machine.StaysExited code (commands.take count) here ∧
        ∀ command, commands[count]? = some command → command = .step ∨ command = .runFrame →
          here.perform command = here.answer (.status (.halted code))) ∧
    ∀ time code, (machine.moment commands time).state.exitCode = none →
      ((machine.moment commands (time + 1)).state.exitCode = some code ↔
        machine.ExecutesAt commands time (Form.Exits code)) ∧
      (machine.ExecutesAt commands time (Form.Exits code) →
        (machine.moment commands (time + 1)).state.running = false ∧
        (machine.moment commands time).step.reply = .halted code) := by
  constructor
  · intro code exited count
    rw [machine_performAll]
    have stays : machine.StaysExited code (commands.take count)
        (machine.after (commands.take count)) :=
      staysExited_after exited fun command member =>
        continuing command (List.mem_of_mem_take member)
    exact ⟨stays, fun command _ runs => perform_of_exited stays.exitCode runs⟩
  · intro time code unfinished
    refine ⟨exitCode_moment_succ_iff continuing unfinished, ?_⟩
    intro executed
    obtain ⟨-, stopped, reported⟩ := execute_of_exits _ unfinished executed.2.2
    refine ⟨?_, ?_⟩
    · rw [executed.moment_succ]
      exact stopped
    · rw [step_of_active executed.2.1]
      exact reported

/-- A machine about to exit with code three. -/
def leaving : Machine Uniform Keypad :=
  { comparing with
    state :=
      { State.initial with
        memory := Memory.blank.writeList Address.programStart [0x00, 0x13]
        delay := 5 } }

/-- The exit happens inside a frame. Resumed, ticked and loaded with another program, the
machine reports it again. -/
theorem exit_final_leaving :
    leaving.ExecutesAt [.runFrame] 0 (Form.Exits 3) ∧
      (leaving.moment [.runFrame] 1).state.exitCode = some 3 ∧
      (leaving.moment [.runFrame] 1).state.running = false ∧
      let resumed := ((leaving.moment [.runFrame] 1).performAll
        [.toggleRunning, .tick, .load #[0x12, 0x00]]).machine
      resumed.state.running = true ∧ resumed.state.delay.toNat = 4 ∧
        resumed.perform .runFrame = resumed.answer (.status (.halted 3)) := by
  obtain ⟨-, exits⟩ := exit_final leaving [.runFrame] (by simp [Command.Continues])
  obtain ⟨exited, stopped⟩ := exits 0 3 rfl
  rw [Nat.zero_add] at exited stopped
  have executed : leaving.ExecutesAt [.runFrame] 0 (Form.Exits 3) := by
    refine ⟨by decide +kernel, by decide +kernel, ?_⟩
    have word : (leaving.moment [.runFrame] 0).state.wordNumber = 0x0013 := by decide +kernel
    rw [word]
    exact .inl ⟨rfl, rfl⟩
  have code := exited.mpr executed
  obtain ⟨final, -⟩ := exit_final (leaving.moment [.runFrame] 1)
    [.toggleRunning, .tick, .load #[0x12, 0x00], .runFrame] (by simp [Command.Continues])
  obtain ⟨stays, runs⟩ := final 3 code 3
  refine ⟨executed, code, (stopped executed).1, by decide +kernel, ?_, ?_⟩
  · have before : (leaving.moment [.runFrame] 1).state.delay = 5 := by decide +kernel
    have delay := stays.delay
    rw [before] at delay
    exact delay
  · exact runs .runFrame rfl (.inr rfl)

end Machine

end SuperChip
