import SuperChip.Machine.Session
import SuperChip.Proofs.Execution
import SuperChip.Proofs.Frames

/-!
# Sessions step by step

A frame runs many instructions. Here a session is written out so that each of its commands is
one step or one thing that the host does: a frame becomes its steps and its tick. The moments
of a session are the machines between these commands, so what holds at every moment holds
inside the frames too.

The main statements are `Machine.after_stepwise`, that writing a session out does not change
what it leaves, and `Machine.rests_or_executes`, that between two moments of a session without
reset and restore nothing of the program moves unless an instruction is executed. What changes
only where a value is put into it is tied to its history by `held_eq_iff_latestOf`.
-/

namespace SuperChip

universe u v

/-- Every status that says nothing runs also ends a frame. -/
theorem Status.endsFrame_of_isIdle {status : Status} (idle : status.isIdle = true) :
    status.endsFrame = true :=
  (endsFrame_iff status).mpr (.inl ((isIdle_iff status).mp idle))

deriving instance DecidableEq for Command

section History

variable {α : Type u} {puts : Nat → α → Prop} {initial value : α} {held : Nat → α}
  {start time : Nat}

/-- The value put last before a time; as long as none was, it is the initial one. -/
def LatestOf (puts : Nat → α → Prop) (initial : α) (time : Nat) (value : α) : Prop :=
  (value = initial ∧ ∀ earlier < time, ∀ other, ¬ puts earlier other) ∨
    ∃ earlier < time, puts earlier value ∧
      ∀ later, earlier < later → later < time → ∀ other, ¬ puts later other

/-- A cell that keeps its value wherever nothing is put into it holds the value of an earlier time
for as long as nothing is put in between. -/
theorem held_eq_of_unput
    (kept : ∀ time, (∀ value, ¬ puts time value) → held (time + 1) = held time)
    (ordered : start ≤ time)
    (unput : ∀ later, start ≤ later → later < time → ∀ other, ¬ puts later other) :
    held time = held start := by
  induction ordered with
  | refl => rfl
  | @step time ordered continued =>
    rw [kept time (unput time ordered (Nat.lt_succ_self time))]
    exact continued fun later after before => unput later after (Nat.lt_succ_of_lt before)

variable (held) in
/-- **What holds a value until the next is put holds the one put last.** -/
theorem held_eq_iff_latestOf (first : held 0 = initial)
    (put : ∀ time value, puts time value → held (time + 1) = value)
    (kept : ∀ time, (∀ value, ¬ puts time value) → held (time + 1) = held time) :
    held time = value ↔ LatestOf puts initial time value := by
  constructor
  · rintro rfl
    induction time with
    | zero => exact .inl ⟨first, fun earlier before => absurd before (Nat.not_lt_zero earlier)⟩
    | succ time continued =>
      by_cases here : ∃ value, puts time value
      · obtain ⟨value, here⟩ := here
        rw [put time value here]
        refine .inr ⟨time, Nat.lt_succ_self time, here, fun later after before => ?_⟩
        exact absurd before (Nat.not_lt.mpr after)
      · have unput (other : α) : ¬ puts time other := fun puts => here ⟨other, puts⟩
        have past {later : Nat} (before : later < time + 1)
            (unputBefore : later < time → ∀ other, ¬ puts later other) :
            ∀ other, ¬ puts later other := by
          rcases Nat.eq_or_lt_of_le (Nat.le_of_lt_succ before) with rfl | earlier
          · exact unput
          · exact unputBefore earlier
        rw [kept time unput]
        rcases continued with ⟨same, never⟩ | ⟨earlier, before, putThen, never⟩
        · exact .inl ⟨same, fun later before => past before (never later)⟩
        · exact .inr ⟨earlier, Nat.lt_succ_of_lt before, putThen,
            fun later after before => past before (never later after)⟩
  · rintro (⟨rfl, never⟩ | ⟨earlier, before, putThen, never⟩)
    · rw [held_eq_of_unput kept (Nat.zero_le time) fun later _ => never later, first]
    · rw [held_eq_of_unput kept before never, put earlier value putThen]

end History

namespace Command

/-- Neither reset a machine nor put back a state. -/
def Continues : Command → Prop
  | reset | restore _ => False
  | _ => True

end Command

namespace Machine

section Rest

variable {δ : Type u} {κ : Type v}

/-- Whether a step runs an instruction. -/
def Active (machine : Machine δ κ) : Prop :=
  machine.state.exitCode = none ∧ machine.state.running = true

instance (machine : Machine δ κ) : Decidable machine.Active :=
  inferInstanceAs (Decidable (_ ∧ _))

/-- Nothing has moved that only the program moves. -/
structure Rests (before after : Machine δ κ) : Prop where
  registers : after.state.registers = before.state.registers
  index : after.state.index = before.state.index
  pc : after.state.pc = before.state.pc
  callStack : after.state.callStack = before.state.callStack
  rpl : after.state.rpl = before.state.rpl
  resolution : after.state.resolution = before.state.resolution
  exitCode : after.state.exitCode = before.state.exitCode
  screen : after.screen = before.screen
  random : after.random = before.random
  timing : after.timing = before.timing

theorem Rests.refl (machine : Machine δ κ) : machine.Rests machine :=
  ⟨rfl, rfl, rfl, rfl, rfl, rfl, rfl, rfl, rfl, rfl⟩

theorem Rests.trans {first second third : Machine δ κ} (left : first.Rests second)
    (right : second.Rests third) : first.Rests third where
  registers := right.registers.trans left.registers
  index := right.index.trans left.index
  pc := right.pc.trans left.pc
  callStack := right.callStack.trans left.callStack
  rpl := right.rpl.trans left.rpl
  resolution := right.resolution.trans left.resolution
  exitCode := right.exitCode.trans left.exitCode
  screen := right.screen.trans left.screen
  random := right.random.trans left.random
  timing := right.timing.trans left.timing

/-- An image that fits is laid over memory. -/
theorem load_of_le (machine : Machine δ κ) {image : Array UInt8}
    (fits : image.size ≤ Rom.capacity) :
    machine.load image =
      { machine :=
          { machine with
            state :=
              { machine.state with
                memory := machine.state.memory.place Address.programStart.toNat image } }
        reply := .ok ()
        journal := #[.loaded image.size] } := by
  have loaded : Rom.load machine.state.memory image =
      .ok (machine.state.memory.place Address.programStart.toNat image) := by
    rw [Rom.load, if_pos fits]
  rw [load, State.load, loaded]

/-- One that does not fit is refused and leaves no trace. -/
theorem load_of_lt (machine : Machine δ κ) {image : Array UInt8}
    (exceeds : Rom.capacity < image.size) :
    machine.load image = machine.answer (.error (.tooLarge image.size Rom.capacity)) := by
  have refused : Rom.load machine.state.memory image =
      .error (.tooLarge image.size Rom.capacity) := by
    rw [Rom.load, if_neg (Nat.not_le.mpr exceeds)]
  rw [load, State.load, refused]

/-- Loading changes memory at most. -/
theorem machine_load (machine : Machine δ κ) (image : Array UInt8) :
    (machine.load image).machine =
      if image.size ≤ Rom.capacity then
        { machine with
          state :=
            { machine.state with
              memory := machine.state.memory.place Address.programStart.toNat image } }
      else machine := by
  split
  · next fits => rw [machine.load_of_le fits]
  · next exceeds =>
    rw [machine.load_of_lt (Nat.not_le.mp exceeds)]
    rfl

/-- A loaded image changes nothing but the memory, and a refused one does not change that. -/
theorem exists_withMemory_load (machine : Machine δ κ) (image : Array UInt8) :
    ∃ memory, (machine.load image).machine = machine.withMemory memory := by
  rw [machine_load]
  split
  · exact ⟨_, rfl⟩
  · exact ⟨machine.state.memory, rfl⟩

/-- Nor does an image that comes from a source change anything else, whether or not it can be
read. -/
theorem exists_withMemory_loadFrom (machine : Machine δ κ) (source : List Reading) :
    ∃ memory, (machine.loadFrom source).machine = machine.withMemory memory := by
  unfold loadFrom
  split
  · exact machine.exists_withMemory_load _
  · exact ⟨machine.state.memory, rfl⟩

theorem rests_withMemory (machine : Machine δ κ) (memory : Memory) :
    machine.Rests (machine.withMemory memory) :=
  ⟨rfl, rfl, rfl, rfl, rfl, rfl, rfl, rfl, rfl, rfl⟩

end Rest

section Step

variable {δ : Type u} {κ : Type v} [Screen δ] [KeySource κ]

/-- A machine whose program goes on answers a step by executing its word. -/
theorem step_of_active {machine : Machine δ κ} (active : machine.Active) :
    machine.step = machine.execute :=
  step_of_running active.1 active.2

/-- A step of any other machine changes nothing and only answers with a status. -/
theorem step_of_not_active {machine : Machine δ κ} (idle : ¬ machine.Active) :
    ∃ status, machine.step = machine.answer status := by
  cases exited : machine.state.exitCode with
  | some code => exact ⟨.halted code, step_of_exited exited⟩
  | none =>
    have paused : machine.state.running = false :=
      Bool.eq_false_iff.mpr fun running => idle ⟨exited, running⟩
    exact ⟨.stopped, step_of_paused exited paused⟩

end Step

variable {δ : Type u} {κ : Type v} [Screen δ] [KeyPanel κ]

/-- A host that neither resets nor restores leaves the program at rest but for its steps. -/
theorem rests_perform (machine : Machine δ κ) {command : Command}
    (continuing : command.Continues) (notStep : command ≠ .step) (notFrame : command ≠ .runFrame) :
    machine.Rests (machine.perform command).machine := by
  cases command with
  | step => exact absurd rfl notStep
  | runFrame => exact absurd rfl notFrame
  | reset | restore state => exact continuing.elim
  | load image =>
    obtain ⟨memory, loaded⟩ := machine.exists_withMemory_load image
    exact loaded ▸ machine.rests_withMemory memory
  | loadFrom source =>
    obtain ⟨memory, loaded⟩ := machine.exists_withMemory_loadFrom source
    exact loaded ▸ machine.rests_withMemory memory
  | tick | frameShown => exact ⟨rfl, rfl, rfl, rfl, rfl, rfl, rfl, rfl, rfl, rfl⟩
  | press key | release key => exact ⟨rfl, rfl, rfl, rfl, rfl, rfl, rfl, rfl, rfl, rfl⟩
  | releaseAll | toggleRunning => exact ⟨rfl, rfl, rfl, rfl, rfl, rfl, rfl, rfl, rfl, rfl⟩
  | setRunning running => exact ⟨rfl, rfl, rfl, rfl, rfl, rfl, rfl, rfl, rfl, rfl⟩

/-- The machine that commands leave. -/
def after (machine : Machine δ κ) (commands : List Command) : Machine δ κ :=
  commands.foldl (fun before command => (before.perform command).machine) machine

theorem after_cons (machine : Machine δ κ) (command : Command) (rest : List Command) :
    machine.after (command :: rest) = (machine.perform command).machine.after rest := rfl

theorem after_append (machine : Machine δ κ) (first second : List Command) :
    machine.after (first ++ second) = (machine.after first).after second :=
  List.foldl_append

/-- The machine that a session of replies ends in is the one that the commands lead to. -/
theorem machine_performAll (machine : Machine δ κ) (commands : List Command) :
    (machine.performAll commands).machine = machine.after commands := by
  have continued (session : Outcome δ κ (Array Reply)) :
      (commands.foldl extend session).machine = session.machine.after commands := by
    induction commands generalizing session with
    | nil => rfl
    | cons command rest continued => exact continued (extend session command)
  exact continued (machine.answer #[])

/-- The rest of a frame with some number of steps left: its steps and its tick. -/
def frameParts (machine : Machine δ κ) : Nat → List Command
  | 0 => [.tick]
  | limit + 1 =>
      let status := machine.step.reply
      if status.isIdle then [.step]
      else if status.endsFrame then [.step, .tick]
      else .step :: frameParts machine.step.machine limit

/-- A command as steps and single acts of the host. -/
def parts (machine : Machine δ κ) : Command → List Command
  | .runFrame => machine.frameParts machine.cyclesPerFrame
  | command => [command]

/-- A session with every frame written out. -/
def stepwise (machine : Machine δ κ) : List Command → List Command
  | [] => []
  | command :: rest => machine.parts command ++ stepwise (machine.perform command).machine rest

/-- The parts of a frame do what is left of a burst, and then tick unless the machine stands
still. -/
theorem after_frameParts (before : Outcome δ κ Status) (limit : Nat)
    (moving : before.reply.isIdle = false) :
    before.machine.after (before.machine.frameParts limit) =
      if (burst before limit).reply.isIdle then (burst before limit).machine
      else (burst before limit).machine.tick := by
  induction limit generalizing before with
  | zero =>
    rw [burst, if_neg (Bool.eq_false_iff.mp moving)]
    rfl
  | succ limit continued =>
    simp only [frameParts, burst]
    by_cases idle : before.machine.step.reply.isIdle = true
    · simp only [idle, Status.endsFrame_of_isIdle idle, ↓reduceIte]
      rfl
    · by_cases ends : before.machine.step.reply.endsFrame = true
      · simp only [ends, idle, Bool.false_eq_true, ↓reduceIte]
        rfl
      · simp only [ends, idle, Bool.false_eq_true, ↓reduceIte]
        exact continued
          { machine := before.machine.step.machine
            reply := before.machine.step.reply
            journal := before.journal ++ before.machine.step.journal }
          (Bool.eq_false_iff.mpr idle)

/-- A command leads to the same machine as the steps and ticks it stands for. -/
theorem after_parts (machine : Machine δ κ) (command : Command) :
    machine.after (machine.parts command) = (machine.perform command).machine := by
  cases command with
  | runFrame =>
    have whole := after_frameParts (machine.answer .running) machine.cyclesPerFrame rfl
    refine whole.trans ?_
    simp only [perform, runFrame]
    split <;> rfl
  | _ => rfl

/-- **Writing a session out changes nothing.** -/
theorem after_stepwise (machine : Machine δ κ) (commands : List Command) :
    machine.after (machine.stepwise commands) = (machine.performAll commands).machine := by
  rw [machine_performAll]
  induction commands generalizing machine with
  | nil => rfl
  | cons command rest continued => rw [stepwise, after_append, after_parts, continued, after_cons]

/-- A frame stands for nothing but steps and ticks. -/
theorem mem_frameParts {machine : Machine δ κ} {limit : Nat} {command : Command}
    (part : command ∈ machine.frameParts limit) : command = .step ∨ command = .tick := by
  induction limit generalizing machine with
  | zero => exact .inr (List.mem_singleton.mp part)
  | succ limit continued =>
    simp only [frameParts] at part
    split at part
    · exact .inl (List.mem_singleton.mp part)
    · split at part
      · simpa using part
      · rcases List.mem_cons.mp part with first | later
        · exact .inl first
        · exact continued later

/-- Writing out leaves no frame, and adds only steps and ticks. -/
theorem mem_stepwise {machine : Machine δ κ} {commands : List Command} {command : Command}
    (part : command ∈ machine.stepwise commands) :
    command = .step ∨ command = .tick ∨ (command ∈ commands ∧ command ≠ .runFrame) := by
  induction commands generalizing machine with
  | nil => exact absurd part List.not_mem_nil
  | cons first rest continued =>
    rcases List.mem_append.mp part with here | later
    · cases first with
      | runFrame => exact (mem_frameParts here).imp_right .inl
      | _ =>
        obtain rfl := List.mem_singleton.mp here
        exact .inr (.inr ⟨List.mem_cons_self, Command.noConfusion⟩)
    · rcases continued later with step | tick | ⟨given, single⟩
      · exact .inl step
      · exact .inr (.inl tick)
      · exact .inr (.inr ⟨List.mem_cons_of_mem first given, single⟩)

/-- The machine after so many commands of a session written out. -/
def moment (machine : Machine δ κ) (commands : List Command) (time : Nat) : Machine δ κ :=
  machine.after ((machine.stepwise commands).take time)

/-- At this time of a session an instruction of some form is executed. -/
def ExecutesAt (machine : Machine δ κ) (commands : List Command) (time : Nat)
    (form : Nat → Prop) : Prop :=
  (machine.stepwise commands)[time]? = some .step ∧ (machine.moment commands time).Active ∧
    form (machine.moment commands time).state.wordNumber

instance (machine : Machine δ κ) (commands : List Command) (time : Nat) (form : Nat → Prop)
    [DecidablePred form] : Decidable (machine.ExecutesAt commands time form) :=
  inferInstanceAs (Decidable (_ ∧ _))

section Moments

variable {machine : Machine δ κ} {commands : List Command} {time : Nat}

/-- The last moment is what the session leaves. -/
theorem moment_length : machine.moment commands (machine.stepwise commands).length =
    (machine.performAll commands).machine := by
  rw [moment, List.take_length, after_stepwise]

/-- The machine at the next moment is the one that the command of this moment leaves. -/
theorem moment_succ {command : Command}
    (next : (machine.stepwise commands)[time]? = some command) :
    machine.moment commands (time + 1) =
      ((machine.moment commands time).perform command).machine := by
  rw [moment, List.take_add_one, next, after_append]
  rfl

/-- The machine stays as it is once the commands have run out. -/
theorem moment_succ_of_ended (ended : (machine.stepwise commands)[time]? = none) :
    machine.moment commands (time + 1) = machine.moment commands time := by
  rw [moment, List.take_add_one, ended, after_append]
  rfl

/-- The machine after a moment at which a word is executed is the one that the execution leaves. -/
theorem ExecutesAt.moment_succ {form : Nat → Prop}
    (executed : machine.ExecutesAt commands time form) :
    machine.moment commands (time + 1) = (machine.moment commands time).execute.machine := by
  obtain ⟨stepped, active, -⟩ := executed
  rw [Machine.moment_succ stepped]
  change (machine.moment commands time).step.machine = _
  rw [step_of_active active]

/-- What holds of steps, of ticks and of all commands of a session holds of its parts. -/
theorem forall_mem_stepwise {property : Command → Prop} (step : property .step)
    (tick : property .tick) (given : ∀ command ∈ commands, property command) :
    ∀ command ∈ machine.stepwise commands, property command := by
  intro command part
  rcases mem_stepwise part with rfl | rfl | ⟨member, -⟩
  · exact step
  · exact tick
  · exact given command member

/-- No frame is left in a session that has been cut into steps. -/
theorem ne_runFrame_of_mem_stepwise {command : Command}
    (part : command ∈ machine.stepwise commands) : command ≠ .runFrame := by
  rcases mem_stepwise part with rfl | rfl | ⟨-, single⟩
  · exact Command.noConfusion
  · exact Command.noConfusion
  · exact single

/-- Cutting a session into steps adds no restoring of a state. -/
theorem ne_restore_of_mem_stepwise (unrestored : ∀ state, Command.restore state ∉ commands)
    {command : Command} (part : command ∈ machine.stepwise commands) (state : State) :
    command ≠ .restore state := by
  rintro rfl
  rcases mem_stepwise part with step | tick | ⟨given, -⟩
  · exact Command.noConfusion step
  · exact Command.noConfusion tick
  · exact unrestored state given

/-- The form of the word that is executed may be replaced by a wider one. -/
theorem ExecutesAt.imp {form other : Nat → Prop}
    (executed : machine.ExecutesAt commands time form) (implies : ∀ word, form word → other word) :
    machine.ExecutesAt commands time other :=
  ⟨executed.1, executed.2.1, implies _ executed.2.2⟩

variable (machine commands time) in
/-- What leads from one moment to the next: an executed instruction, nothing at all, or something
that the host does beside stepping. -/
inductive Passage : Prop where
  | executes : machine.ExecutesAt commands time (fun _ => True) → Passage
  | stands : ¬ machine.ExecutesAt commands time (fun _ => True) →
      machine.moment commands (time + 1) = machine.moment commands time → Passage
  | hosted {command : Command} : ¬ machine.ExecutesAt commands time (fun _ => True) →
      command ∈ machine.stepwise commands → command ≠ .step → command ≠ .runFrame →
      machine.moment commands (time + 1) =
        ((machine.moment commands time).perform command).machine → Passage

variable (machine commands) in
/-- Every moment of every session passes into the next in one of the ways that are listed. -/
theorem passage (time : Nat) : Passage machine commands time := by
  cases next : (machine.stepwise commands)[time]? with
  | none =>
    have unexecuted : ¬ machine.ExecutesAt commands time fun _ => True :=
      fun executed => nomatch next.symm.trans executed.1
    exact .stands unexecuted (moment_succ_of_ended next)
  | some command =>
    by_cases stepped : command = .step
    · subst stepped
      by_cases active : (machine.moment commands time).Active
      · exact .executes ⟨next, active, trivial⟩
      · obtain ⟨status, still⟩ := step_of_not_active active
        refine .stands (fun executed => active executed.2.1) ?_
        rw [moment_succ next]
        change (machine.moment commands time).step.machine = _
        rw [still]
        rfl
    · have part := List.mem_of_getElem? next
      have unexecuted : ¬ machine.ExecutesAt commands time fun _ => True :=
        fun executed => stepped (Option.some.inj (next.symm.trans executed.1))
      exact .hosted unexecuted part stepped (ne_runFrame_of_mem_stepwise part) (moment_succ next)

/-- A command that neither resets nor restores leaves the program at rest, unless it executes an
instruction. -/
theorem rests_moment_succ
    (continuing : ∀ command, (machine.stepwise commands)[time]? = some command → command.Continues)
    (unexecuted : ¬ machine.ExecutesAt commands time fun _ => True) :
    (machine.moment commands time).Rests (machine.moment commands (time + 1)) := by
  cases next : (machine.stepwise commands)[time]? with
  | none =>
    rw [moment_succ_of_ended next]
    exact .refl _
  | some command =>
    rw [moment_succ next]
    by_cases stepped : command = .step
    · subst stepped
      obtain ⟨status, still⟩ :=
        step_of_not_active fun active => unexecuted ⟨next, active, trivial⟩
      change (machine.moment commands time).Rests (machine.moment commands time).step.machine
      rw [still]
      exact .refl _
    · exact rests_perform _ (continuing command next) stepped
        (ne_runFrame_of_mem_stepwise (List.mem_of_getElem? next))

variable (machine) in
/-- **Only executed instructions move the program.** -/
theorem rests_or_executes (continuing : ∀ command ∈ commands, command.Continues) (time : Nat) :
    (machine.moment commands time).Rests (machine.moment commands (time + 1)) ∨
      machine.ExecutesAt commands time fun _ => True := by
  by_cases executed : machine.ExecutesAt commands time fun _ => True
  · exact .inr executed
  · refine .inl (rests_moment_succ (fun command next => ?_) executed)
    exact forall_mem_stepwise trivial trivial continuing command (List.mem_of_getElem? next)

end Moments

end Machine

end SuperChip
