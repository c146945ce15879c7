import SuperChip.Proofs.Perception
import SuperChip.Proofs.Timers

/-!
# Waiting for a key

`FX0A` runs again and again until one of the sixteen keys is held. An attempt moves the program
counter past the instruction and back, and as both moves reduce it to twelve bits, nothing is left
of the attempt wherever in memory the instruction starts. Meanwhile only the timers go on.

`Machine.step_of_awaitsKey` and `Machine.runFrame_of_awaitsKey` are about one attempt by each of the
two loops, and `Machine.key_wait` is about any number of them and the key that ends the wait.
-/

namespace SuperChip

universe u v

namespace Senses

variable {senses : Senses} {key : Fin 16}

/-- The lowest key held is held, and no key below it is. -/
theorem held_of_lowestHeld? (found : senses.lowestHeld? = some key) :
    senses.held key = true ∧ ∀ lower < key, senses.held lower = false := by
  obtain ⟨held, below, above, split, unheld⟩ := List.find?_eq_some_iff_append.mp found
  -- The keys are searched in order, so a lower one was looked at before.
  have ordered := List.pairwise_lt_finRange 16
  rw [split] at ordered
  have first : ∀ later ∈ above, key < later :=
    (List.pairwise_cons.mp (List.pairwise_append.mp ordered).2.1).1
  refine ⟨held, fun lower under => ?_⟩
  have member : lower ∈ below ++ key :: above := split ▸ List.mem_finRange lower
  rcases List.mem_append.mp member with before | after
  · exact (Bool.not_eq_true' _).mp (unheld lower before)
  · rcases List.mem_cons.mp after with rfl | beyond
    · exact absurd under (Fin.lt_irrefl _)
    · exact absurd (first lower beyond) (Fin.not_lt.mpr (Fin.le_of_lt under))

end Senses

namespace State

/-- Going back undoes moving past an instruction that starts in memory. -/
theorem rewind_advance {state : State} (bounded : state.pc.toNat ≤ 0xFFF) :
    state.advance.rewind = state := by
  have back : Address.masked (state.advance.pc - 2) = state.pc := by
    apply UInt16.toNat_inj.mp
    rw [Machine.toNat_masked_sub_two_advance, Nat.mod_eq_of_lt (Nat.lt_succ_of_le bounded)]
  calc state.advance.rewind
      = { state with pc := Address.masked (state.advance.pc - 2) } := rfl
    _ = state := by rw [back]

/-- The state after some ticks in which nothing else happened. -/
def elapse (state : State) (ticks : Nat) : State :=
  state.withTimers (UInt8.ofNat (state.delay.toNat - ticks))
    (UInt8.ofNat (state.sound.toNat - ticks))

theorem toNat_ofNat_sub (timer : UInt8) (ticks : Nat) :
    (UInt8.ofNat (timer.toNat - ticks)).toNat = timer.toNat - ticks := by
  have small := timer.toNat_lt
  rw [UInt8.toNat_ofNat']
  omega

theorem elapse_zero (state : State) : state.elapse 0 = state := by
  simp only [elapse, withTimers, Nat.sub_zero, UInt8.ofNat_toNat]

theorem elapse_one (state : State) : state.elapse 1 = state.tick := by
  simp only [elapse, withTimers, tick, ← toNat_countdown, UInt8.ofNat_toNat]

theorem elapse_elapse (state : State) (first second : Nat) :
    (state.elapse first).elapse second = state.elapse (first + second) := by
  simp only [elapse, withTimers, toNat_ofNat_sub, Nat.sub_sub]

end State

namespace Command

/-- The commands by which a machine goes on without its host touching anything. -/
def GoesOn : Command → Prop
  | step | runFrame | tick => True
  | _ => False

/-- The commands that end with a tick of a machine that waits for a key. -/
def elapses : Command → Bool
  | runFrame | tick => true
  | _ => false

end Command

namespace Machine

variable {δ : Type u} {κ : Type v}

/-- The machine after some ticks in which nothing else happened. -/
def elapse (machine : Machine δ κ) (ticks : Nat) : Machine δ κ :=
  { machine with state := machine.state.elapse ticks }

theorem elapse_zero (machine : Machine δ κ) : machine.elapse 0 = machine :=
  congrArg (fun state => { machine with state := state }) machine.state.elapse_zero

theorem elapse_one (machine : Machine δ κ) : machine.elapse 1 = machine.tick :=
  congrArg (fun state => { machine with state := state }) machine.state.elapse_one

theorem elapse_elapse (machine : Machine δ κ) (first second : Nat) :
    (machine.elapse first).elapse second = machine.elapse (first + second) :=
  congrArg (fun state => { machine with state := state })
    (machine.state.elapse_elapse first second)

/-- A word `FX0A` is a wait for a key into `VX`. -/
theorem operation_of_wait {machine : Machine δ κ}
    (form : Form.x 0xF 0x0A machine.state.wordNumber) :
    machine.operation = .waitKey (Fin.ofNat 16 (machine.state.wordNumber / 0x100)) := by
  rw [← State.toNat_word] at form ⊢
  exact Operation.decode_of_encodes ⟨form, rfl⟩

/-- A machine that is about to wait for a key, and none is held. -/
structure AwaitsKey [KeySource κ] (machine : Machine δ κ) : Prop where
  active : machine.Active
  bounded : machine.state.pc.toNat ≤ 0xFFF
  form : Form.x 0xF 0x0A machine.state.wordNumber
  unheld : machine.NoKeyHeld

/-- Ticks do not end the wait for a key. -/
theorem AwaitsKey.elapse [KeySource κ] {machine : Machine δ κ} (waiting : machine.AwaitsKey)
    (ticks : Nat) : (machine.elapse ticks).AwaitsKey :=
  ⟨waiting.active, waiting.bounded, waiting.form, waiting.unheld⟩

section Attempt

variable [Screen δ] [KeySource κ] {machine : Machine δ κ}

/-- A wait for a key moves nothing but the state. -/
theorem machine_execute_of_wait (form : Form.x 0xF 0x0A machine.state.wordNumber) :
    machine.execute.machine =
      { machine with
        state := machine.state.advance.waitKey
          (Fin.ofNat 16 (machine.state.wordNumber / 0x100)) machine.senses } := by
  calc machine.execute.machine
      = { machine with
          state := machine.state.advance.execute machine.operation machine.senses
          screen := (machine.operation.paint machine.state.advance machine.screen).screen
          random := if machine.operation.isRandom then machine.random.advance
            else machine.random } := rfl
    _ = _ := by
      rw [operation_of_wait form]
      rfl

/-- **An attempt without a key leaves no trace.** -/
theorem step_of_awaitsKey (waiting : machine.AwaitsKey) :
    machine.step.reply = .waitingForKey ∧ machine.step.machine = machine := by
  have none : machine.senses.lowestHeld? = none :=
    (machine.senses.lowestHeld?_eq_none_iff).mpr waiting.unheld
  rw [step_of_active waiting.active]
  constructor
  · rw [reply_execute_eq_report, report_of_wait machine waiting.form, if_pos waiting.unheld]
  · rw [machine_execute_of_wait waiting.form, State.waitKey, none]
    dsimp only
    rw [State.rewind_advance waiting.bounded]

/-- A frame makes one attempt and ticks. -/
theorem runFrame_of_awaitsKey (waiting : machine.AwaitsKey) :
    machine.runFrame.reply = .waitingForKey ∧ machine.runFrame.machine = machine.tick := by
  obtain ⟨reply, same⟩ := step_of_awaitsKey waiting
  obtain ⟨more, cycles⟩ := Nat.exists_eq_add_of_le'
    (machine.timing.one_le_cyclesPerTick machine.state.resolution)
  have ran : (burst (machine.answer .running) machine.cyclesPerFrame).reply = .waitingForKey ∧
      (burst (machine.answer .running) machine.cyclesPerFrame).machine = machine := by
    rw [cyclesPerFrame, cycles]
    simp only [burst, answer, reply, same, Status.endsFrame, ↓reduceIte, and_self]
  simp only [runFrame, ran, Status.isIdle, Bool.false_eq_true, ↓reduceIte, and_self]

/-- **A key ends the wait.** With keys held, the lowest of them goes to the register and control
moves on. -/
theorem step_of_held (active : machine.Active)
    (form : Form.x 0xF 0x0A machine.state.wordNumber) (held : ∃ key, machine.held key = true) :
    ∃ lowest, machine.held lowest = true ∧ (∀ lower < lowest, machine.held lower = false) ∧
      machine.step.reply = .running ∧
      machine.step.machine =
        { machine with
          state :=
            { machine.state with
              registers := Table.put machine.state.registers
                (Fin.ofNat 16 (machine.state.wordNumber / 0x100)) (UInt8.ofNat lowest.val)
              pc := UInt16.ofNat ((machine.state.pc.toNat + 2) % 0x1000) } } := by
  have holding : ¬ machine.NoKeyHeld := by
    obtain ⟨key, pressed⟩ := held
    exact fun unheld => Bool.false_ne_true ((unheld key).symm.trans pressed)
  obtain ⟨lowest, found⟩ := Option.isSome_iff_exists.mp (machine.lowestHeld?_senses.mpr holding)
  obtain ⟨pressed, least⟩ := Senses.held_of_lowestHeld? found
  have next : machine.state.advance.pc =
      UInt16.ofNat ((machine.state.pc.toNat + 2) % 0x1000) := by
    rw [← State.toNat_pc_advance, UInt16.ofNat_toNat]
  refine ⟨lowest, pressed, least, ?_, ?_⟩
  · rw [step_of_active active, reply_execute_eq_report, report_of_wait machine form,
      if_neg holding]
  · rw [step_of_active active, machine_execute_of_wait form, State.waitKey, found, ← next]
    rfl

end Attempt

variable [Screen δ] [KeyPanel κ] {machine : Machine δ κ}

/-- A machine that waits reports so at every step and frame, and changes by its ticks only. -/
theorem perform_of_awaitsKey (waiting : machine.AwaitsKey) {command : Command}
    (goesOn : command.GoesOn) :
    (machine.perform command).reply =
        (if command.isTick then .done else .status .waitingForKey) ∧
      (machine.perform command).machine = machine.elapse ([command].countP Command.elapses) := by
  cases command with
  | step =>
    obtain ⟨reply, same⟩ := step_of_awaitsKey waiting
    exact ⟨congrArg Reply.status reply, same.trans machine.elapse_zero.symm⟩
  | runFrame =>
    obtain ⟨reply, last⟩ := runFrame_of_awaitsKey waiting
    exact ⟨congrArg Reply.status reply, last.trans machine.elapse_one.symm⟩
  | tick => exact ⟨rfl, machine.elapse_one.symm⟩
  | _ => exact goesOn.elim

/-- **Any number of attempts leaves no trace** but that of the ticks. -/
theorem performAll_of_awaitsKey (waiting : machine.AwaitsKey) {commands : List Command}
    (goesOn : ∀ command ∈ commands, command.GoesOn) :
    (machine.performAll commands).reply.toList = commands.map (fun command =>
        if command.isTick then Reply.done else Reply.status .waitingForKey) ∧
      (machine.performAll commands).machine =
        machine.elapse (commands.countP Command.elapses) := by
  induction commands generalizing machine with
  | nil => exact ⟨rfl, machine.elapse_zero.symm⟩
  | cons command rest continued =>
    -- What the first command leaves still waits: no timer takes part in a wait.
    obtain ⟨reply, first⟩ := perform_of_awaitsKey waiting (goesOn command List.mem_cons_self)
    obtain ⟨replies, last⟩ := continued (waiting.elapse ([command].countP Command.elapses))
      fun other member => goesOn other (List.mem_cons_of_mem command member)
    rw [performAll_cons]
    dsimp only
    rw [first, last, Array.toList_append, replies, reply, elapse_elapse]
    refine ⟨rfl, ?_⟩
    have together : (command :: rest).countP Command.elapses =
        [command].countP Command.elapses + rest.countP Command.elapses := by
      rw [← List.singleton_append, List.countP_append]
    rw [together]

/-- **The wait for a key.** However often a machine that waits for a key steps, runs frames and
ticks, every step and frame reports the wait, and only the timers move, by one for each tick and
each frame. Whatever then happens to the keys: if one of the sixteen is held, the next step puts
the lowest of these into the register of the word, and changes nothing else but that control moves
on. -/
theorem key_wait (waiting : machine.AwaitsKey) {commands : List Command}
    (goesOn : ∀ command ∈ commands, command.GoesOn) :
    let last := machine.performAll commands
    last.reply.toList = commands.map (fun command =>
        if command.isTick then Reply.done else Reply.status .waitingForKey) ∧
      last.machine = machine.elapse (commands.countP Command.elapses) ∧
      ∀ change : κ → κ,
        let pressing := last.machine.rekey change
        (∃ key, pressing.held key = true) →
          ∃ lowest, pressing.held lowest = true ∧
            (∀ lower < lowest, pressing.held lower = false) ∧
            pressing.step.reply = .running ∧
            pressing.step.machine =
              { pressing with
                state :=
                  { pressing.state with
                    registers := Table.put pressing.state.registers
                      (Fin.ofNat 16 (machine.state.wordNumber / 0x100))
                      (UInt8.ofNat lowest.val)
                    pc := UInt16.ofNat ((machine.state.pc.toNat + 2) % 0x1000) } } := by
  intro last
  obtain ⟨replies, left⟩ := performAll_of_awaitsKey waiting goesOn
  refine ⟨replies, left, ?_⟩
  intro change pressing held
  have here : pressing =
      (machine.elapse (commands.countP Command.elapses)).rekey change :=
    congrArg (rekey · change) left
  rw [here] at held ⊢
  exact step_of_held waiting.active waiting.form held

/-- A machine with a wide pad whose wait for a key starts in the last byte of memory and ends in
the first. One of the keys past the sixteenth is held. -/
def pausing : Machine Uniform WidePad where
  state :=
    { State.initial with
      memory := Memory.blank.writeList Address.last [0xF3, 0x0A]
      pc := Address.last
      delay := 3
      sound := 1 }
  screen := ⟨false⟩
  keys := KeyPad.released.set 200 true
  random := { key := Vector.replicate 8 0 }
  timing := Timing.standard

/-- Two ticks later the keys seven and twelve are pressed, and the wait is over with the seven. -/
theorem key_wait_pausing :
    pausing.AwaitsKey ∧
      let last := pausing.performAll [.step, .runFrame, .tick]
      last.reply.toList =
          [.status .waitingForKey, .status .waitingForKey, .done] ∧
        last.machine.state.delay = 1 ∧ last.machine.state.sound = 0 ∧
        let pressing := last.machine.rekey fun keys => (keys.set 12 true).set 7 true
        pressing.step.reply = .running ∧
          pressing.step.machine.state.pc = 1 ∧
          pressing.step.machine.state.registers =
            Table.put State.initial.registers (Fin.ofNat 16 3) 7 := by
  have waiting : pausing.AwaitsKey := ⟨⟨rfl, rfl⟩, by decide, by decide +kernel, by decide +kernel⟩
  have goesOn : ∀ command ∈ [.step, .runFrame, .tick], Command.GoesOn command := by
    rw [List.forall_mem_cons, List.forall_mem_cons, List.forall_mem_singleton]
    exact ⟨trivial, trivial, trivial⟩
  obtain ⟨replies, left, after⟩ := key_wait waiting goesOn
  refine ⟨waiting, replies, ?_, ?_, ?_⟩
  · rw [left]
    rfl
  · rw [left]
    rfl
  intro pressing
  have held (key : Fin 16) : pressing.held key = decide (key.val = 7 ∨ key.val = 12) := by
    revert key
    dsimp only [pressing]
    rw [left]
    decide +kernel
  obtain ⟨lowest, pressed, least, reply, machine⟩ :=
    after (fun keys => (keys.set 12 true).set 7 true) ⟨Fin.ofNat 16 7, held _⟩
  have seven : lowest.val = 7 := by
    have either := of_decide_eq_true ((held lowest).symm.trans pressed)
    refine either.resolve_right fun twelve => ?_
    have below : Fin.ofNat 16 7 < lowest := by
      rw [Fin.lt_def, twelve]
      decide
    exact Bool.false_ne_true ((least _ below).symm.trans (held _))
  have next : UInt16.ofNat ((pausing.state.pc.toNat + 2) % 0x1000) = 1 := by decide
  have register : Fin.ofNat 16 (pausing.state.wordNumber / 0x100) = Fin.ofNat 16 3 := by
    decide +kernel
  have registers : pressing.state.registers = State.initial.registers :=
    congrArg (fun machine => machine.state.registers) left
  refine ⟨reply, ?_, ?_⟩
  · rw [machine]
    exact next
  · rw [machine, seven, register]
    exact congrArg (fun bank => Table.put bank (Fin.ofNat 16 3) 7) registers

end Machine

end SuperChip
