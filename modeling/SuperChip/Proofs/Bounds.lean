import SuperChip.Machine.Session
import SuperChip.Proofs.Execution
import SuperChip.Screen.Recorded

/-!
# Bounds on reachable states

The program counter, the index and all sixteen slots of the call stack hold
addresses of memory, and an exit code is one digit, in every machine that a
host can reach. A host reaches a machine by switching it on, by everything it
can ask of it afterwards, and by putting back a state that it took from a
machine it had reached.

The registers need no bound of their own, so the sums that instructions form
from an address and a register fit into sixteen bits as soon as these bounds
hold. So checked sums never stop a machine that its host only gave states of
machines it had reached (`Machine.Reachable.checkedStep`).
-/

namespace SuperChip

universe u v

namespace State

/-- The addresses that a state keeps are addresses of memory, and its exit code is a digit. -/
structure Bounded (state : State) : Prop where
  pc : state.pc.toNat ≤ 0xFFF
  index : state.index.toNat ≤ 0xFFF
  depth : state.callStack.depth ≤ 16
  slots (slot : Fin 16) : (state.callStack.slots.get slot).toNat ≤ 0xFFF
  exitCode (code : UInt8) : state.exitCode = some code → code.toNat ≤ 15

/-- The state at power on is bounded. -/
theorem bounded_initial : initial.Bounded where
  pc := by decide
  index := by decide
  depth := Nat.zero_le 16
  slots slot := by
    have cleared : initial.callStack.slots.get slot = 0 :=
      Vector.getElem_replicate slot.isLt
    rw [cleared]
    decide
  exitCode code exited := by simp [initial] at exited

variable {state : State}

/-- Only four components are bounded. -/
theorem Bounded.of_agrees {after : State} (bounded : state.Bounded) (pc : after.pc = state.pc)
    (index : after.index = state.index) (callStack : after.callStack = state.callStack)
    (exitCode : after.exitCode = state.exitCode) : after.Bounded where
  pc := pc ▸ bounded.pc
  index := index ▸ bounded.index
  depth := callStack ▸ bounded.depth
  slots := callStack ▸ bounded.slots
  exitCode := exitCode ▸ bounded.exitCode

/-- A jump ends inside memory. -/
theorem Bounded.jump (bounded : state.Bounded) (address : Address) :
    (state.jump address).Bounded where
  pc := Address.masked_le_last address
  index := bounded.index
  depth := bounded.depth
  slots := bounded.slots
  exitCode := bounded.exitCode

/-- A tick touches nothing that is bounded. -/
theorem Bounded.tick (bounded : state.Bounded) : state.tick.Bounded :=
  bounded.of_agrees rfl rfl rfl rfl

/-- Loading touches memory only. -/
theorem Bounded.load {loaded : State} {image : Array UInt8} (bounded : state.Bounded)
    (fits : state.load image = .ok loaded) : loaded.Bounded := by
  unfold State.load at fits
  split at fits
  · obtain rfl := Except.ok.inj fits
    exact bounded.of_agrees rfl rfl rfl rfl
  · exact absurd fits (by simp)

section Operation

variable {operation : Operation} {senses : Senses} {word : Nat}

/-- An operation sends control to an address of memory or nowhere. -/
theorem pc_execute_le (bound : state.pc.toNat ≤ 0xFFF) :
    (state.execute operation senses).pc.toNat ≤ 0xFFF := by
  rw [pc_execute]
  cases operation.target? state senses with
  | none => exact bound
  | some target => exact Address.masked_le_last target

/-- An operation that writes the index reduces it, or takes it from the twelve bits of its word. -/
theorem index_execute_le (bound : state.index.toNat ≤ 0xFFF)
    (encoded : operation.Encodes word) :
    (state.execute operation senses).index.toNat ≤ 0xFFF := by
  by_cases owned : operation.Owns state senses .index
  · cases operation with
    | loadIndex address =>
      obtain ⟨-, place⟩ := encoded
      change address.toNat ≤ 0xFFF
      omega
    | addIndex x => exact Address.masked_le_last _
    | glyph font x =>
      change (UInt16.ofNat _).toNat ≤ 0xFFF
      rw [UInt16.toNat_ofNat']
      omega
    | waitKey x => rcases Operation.eq_of_owns_waitKey owned with same | same <;> cases same
    | _ => simp [Operation.Owns] at owned
  · have kept : (state.execute operation senses).index = state.index :=
      agrees_execute state operation senses owned
    rw [kept]
    exact bound

/-- A call saves the program counter, which is an address of memory, and a return leaves every
slot as it is. -/
theorem slots_execute_le (counter : state.pc.toNat ≤ 0xFFF)
    (bound : ∀ slot, (state.callStack.slots.get slot).toNat ≤ 0xFFF) (slot : Fin 16) :
    ((state.execute operation senses).callStack.slots.get slot).toNat ≤ 0xFFF := by
  by_cases owned : operation.Owns state senses .callStack
  · cases operation with
    | call address =>
      simp only [execute, call]
      cases pushed : state.callStack.push state.pc with
      | error refused => exact bound slot
      | ok saved =>
        change (saved.slots.get slot).toNat ≤ 0xFFF
        rw [CallStack.get_slots_of_push pushed]
        split
        · exact counter
        · exact bound slot
    | ret =>
      simp only [execute, ret]
      cases popped : state.callStack.pop? with
      | none => exact bound slot
      | some taken =>
        obtain ⟨address, rest⟩ := taken
        change (rest.slots.get slot).toNat ≤ 0xFFF
        rw [CallStack.slots_of_pop? popped]
        exact bound slot
    | waitKey x => rcases Operation.eq_of_owns_waitKey owned with same | same <;> cases same
    | _ => simp [Operation.Owns] at owned
  · have kept : (state.execute operation senses).callStack = state.callStack :=
      agrees_execute state operation senses owned
    rw [kept]
    exact bound slot

/-- An exit code is the last digit of a word. -/
theorem exitCode_execute_le (bound : ∀ code, state.exitCode = some code → code.toNat ≤ 15)
    (encoded : operation.Encodes word) (code : UInt8)
    (exited : (state.execute operation senses).exitCode = some code) : code.toNat ≤ 15 := by
  by_cases owned : operation.Owns state senses .exitCode
  · cases operation with
    | exit given =>
      obtain ⟨-, place⟩ := encoded
      obtain rfl : given = code := Option.some.inj exited
      omega
    | halt =>
      obtain rfl : 0 = code := Option.some.inj exited
      decide
    | waitKey x => rcases Operation.eq_of_owns_waitKey owned with same | same <;> cases same
    | _ => simp [Operation.Owns] at owned
  · have kept : (state.execute operation senses).exitCode = state.exitCode :=
      agrees_execute state operation senses owned
    exact bound code (kept.symm.trans exited)

/-- An operation that stands for a word keeps the bounds. -/
theorem Bounded.execute (bounded : state.Bounded) (encoded : operation.Encodes word) :
    (state.execute operation senses).Bounded where
  pc := pc_execute_le bounded.pc
  index := index_execute_le bounded.index encoded
  depth := (state.execute operation senses).callStack.depth_le
  slots := slots_execute_le bounded.pc bounded.slots
  exitCode := exitCode_execute_le bounded.exitCode encoded

end Operation

end State

namespace Machine

section Preservation

variable {δ : Type u} {κ : Type v} {machine : Machine δ κ}

/-- Loading a machine keeps the bounds, whether or not the image fits. -/
theorem bounded_load {image : Array UInt8} (bounded : machine.state.Bounded) :
    (machine.load image).machine.state.Bounded := by
  unfold load
  split
  · next fits => exact bounded.load fits
  · exact bounded

/-- So does loading from a source, whether or not it can be read. -/
theorem bounded_loadFrom {source : List Reading} (bounded : machine.state.Bounded) :
    (machine.loadFrom source).machine.state.Bounded := by
  unfold loadFrom
  split
  · exact bounded_load bounded
  · exact bounded

variable [Screen δ] [KeySource κ]

/-- A step keeps the bounds, whether or not the machine runs. -/
theorem bounded_step (bounded : machine.state.Bounded) : machine.step.machine.state.Bounded := by
  cases exited : machine.state.exitCode with
  | some code =>
    rw [step_of_exited exited]
    exact bounded
  | none =>
    cases running : machine.state.running with
    | false =>
      rw [step_of_paused exited running]
      exact bounded
    | true =>
      rw [step_of_running exited running, state_execute]
      exact (bounded.jump _).execute machine.encodes_operation

/-- Any number of steps keeps the bounds. -/
theorem bounded_burst (before : Outcome δ κ Status) (limit : Nat)
    (bounded : before.machine.state.Bounded) :
    (burst before limit).machine.state.Bounded := by
  induction limit generalizing before with
  | zero => exact bounded
  | succ limit continued =>
    have stepped := bounded_step bounded
    simp only [burst]
    split
    · exact stepped
    · exact continued _ stepped

/-- A frame keeps the bounds. -/
theorem bounded_runFrame (bounded : machine.state.Bounded) :
    machine.runFrame.machine.state.Bounded := by
  have ran := bounded_burst (machine.answer .running) machine.cyclesPerFrame bounded
  simp only [runFrame]
  split
  · exact ran
  · exact ran.tick

end Preservation

/-- The machines that a host reaches from power on. The keys may change in any way between two
calls, and a state that is put back was taken from a machine that the host had reached. -/
inductive Reachable : {δ : Type u} → {κ : Type v} → Machine δ κ → Prop where
  | boot {δ : Type u} {κ : Type v} [Screen δ] [KeySource κ] (screen : δ) (keys : κ)
      (timing : Timing) (random : RandomStream) :
      Reachable (Machine.boot screen keys timing random).machine
  | step {δ : Type u} {κ : Type v} [Screen δ] [KeySource κ] {machine : Machine δ κ} :
      Reachable machine → Reachable machine.step.machine
  | runFrame {δ : Type u} {κ : Type v} [Screen δ] [KeySource κ] {machine : Machine δ κ} :
      Reachable machine → Reachable machine.runFrame.machine
  | tick {δ : Type u} {κ : Type v} {machine : Machine δ κ} :
      Reachable machine → Reachable machine.tick
  | reset {δ : Type u} {κ : Type v} [Screen δ] [KeySource κ] {machine : Machine δ κ} :
      Reachable machine → Reachable machine.reset.machine
  | load {δ : Type u} {κ : Type v} {machine : Machine δ κ} (image : Array UInt8) :
      Reachable machine → Reachable (machine.load image).machine
  | loadFrom {δ : Type u} {κ : Type v} {machine : Machine δ κ} (source : List Reading) :
      Reachable machine → Reachable (machine.loadFrom source).machine
  | rekey {δ : Type u} {κ : Type v} {machine : Machine δ κ} (keys : κ) :
      Reachable machine → Reachable { machine with keys := keys }
  | setRunning {δ : Type u} {κ : Type v} {machine : Machine δ κ} (running : Bool) :
      Reachable machine → Reachable (machine.setRunning running)
  | frameShown {δ : Type u} {κ : Type v} {machine : Machine δ κ} :
      Reachable machine → Reachable machine.frameShown
  | restore {δ δ' : Type u} {κ κ' : Type v} {machine : Machine δ κ} {saved : Machine δ' κ'} :
      Reachable machine → Reachable saved → Reachable (machine.restore saved.state)

/-- **Every machine that a host reaches is bounded.** -/
theorem Reachable.bounded {δ : Type u} {κ : Type v} {machine : Machine δ κ}
    (reachable : machine.Reachable) : machine.state.Bounded := by
  induction reachable with
  | boot screen keys timing random => exact State.bounded_initial
  | @step δ κ drawn asked machine _ bounded => exact bounded_step bounded
  | @runFrame δ κ drawn asked machine _ bounded => exact bounded_runFrame bounded
  | tick _ bounded => exact bounded.tick
  | reset _ _ => exact State.bounded_initial
  | load image _ bounded => exact bounded_load bounded
  | loadFrom source _ bounded => exact bounded_loadFrom bounded
  | rekey keys _ bounded => exact bounded
  | setRunning running _ bounded => exact bounded.of_agrees rfl rfl rfl rfl
  | frameShown _ bounded => exact bounded.of_agrees rfl rfl rfl rfl
  -- The bounds come from the machine that the state was taken from, not from this one.
  | restore _ _ _ taken => exact taken

/-- From bounded addresses no instruction makes a sum that leaves sixteen bits. -/
theorem overflows_eq_false {δ : Type u} {κ : Type v} {machine : Machine δ κ}
    (bounded : machine.state.Bounded) : machine.overflows = false := by
  rw [← Bool.not_eq_true]
  intro leaves
  obtain ⟨-, sum⟩ := Bool.and_eq_true_iff.mp leaves
  obtain ⟨x, -, large⟩ := (Operation.overflows_iff machine.encodes_operation _).mp sum
  have inside : machine.state.advance.index.toNat ≤ 0xFFF := bounded.index
  rw [Address.overflows_eq_false_of_le inside] at large
  exact Bool.false_ne_true large

/-- With its sums checked, a machine that a host reaches ends every step, and ends it in the same
way. -/
theorem Reachable.checkedStep {δ : Type u} {κ : Type v} [Screen δ] [KeySource κ]
    {machine : Machine δ κ} (reachable : machine.Reachable) :
    machine.checkedStep = some machine.step := by
  rw [Machine.checkedStep, overflows_eq_false reachable.bounded]
  exact if_neg Bool.false_ne_true

section Sessions

variable {δ : Type u} {κ : Type v} [Screen δ] [KeyPanel κ] {machine : Machine δ κ}

/-- A command reaches a machine from a reachable one, if a state that it restores was taken from
one. -/
theorem Reachable.perform (reachable : machine.Reachable) (command : Command)
    (taken : ∀ state, command = .restore state →
      ∃ saved : Machine δ κ, saved.Reachable ∧ saved.state = state) :
    (machine.perform command).machine.Reachable := by
  cases command with
  | step => exact reachable.step
  | runFrame => exact reachable.runFrame
  | tick => exact reachable.tick
  | reset => exact reachable.reset
  | load image => exact reachable.load image
  | loadFrom source => exact reachable.loadFrom source
  | press key | release key | releaseAll => exact reachable.rekey _
  | setRunning running => exact reachable.setRunning running
  | toggleRunning => exact reachable.setRunning _
  | frameShown => exact reachable.frameShown
  | restore state =>
    obtain ⟨saved, before, rfl⟩ := taken state rfl
    exact reachable.restore before

/-- A session whose restored states were taken from reachable machines reaches its end. -/
theorem Reachable.performAll (reachable : machine.Reachable) (commands : List Command)
    (taken : ∀ state, .restore state ∈ commands →
      ∃ saved : Machine δ κ, saved.Reachable ∧ saved.state = state) :
    (machine.performAll commands).machine.Reachable := by
  have continued (session : Outcome δ κ (Array Reply)) (begun : session.machine.Reachable) :
      (commands.foldl extend session).machine.Reachable := by
    induction commands generalizing session with
    | nil => exact begun
    | cons command rest continued =>
      have performed : (session.machine.perform command).machine.Reachable := by
        refine begun.perform command fun state same => taken state ?_
        rw [same]
        exact List.mem_cons_self
      exact continued (fun state later => taken state (List.mem_cons_of_mem _ later))
        (extend session command) performed
  exact continued (machine.answer #[]) reachable

end Sessions

/-- **Addresses stay in memory.** In every machine that a host reaches the program counter, the
index and all slots of the call stack, old ones included, are addresses of memory, and the exit
code is a digit. So no sum that an instruction forms leaves sixteen bits, whatever the
operands. -/
theorem Reachable.bounded_and_sums {δ : Type u} {κ : Type v} {machine : Machine δ κ}
    (reachable : machine.Reachable) :
    machine.state.Bounded ∧
      (∀ word : Word,
        (Word.nnn word).toNat + (machine.state.registers.get Register.zero).toNat ≤ 0xFFFF) ∧
      ∀ x : Register,
        machine.state.index.toNat + (machine.state.registers.get x).toNat ≤ 0xFFFF ∧
        0x050 + 5 * (machine.state.registers.get x).toNat ≤ 0xFFFF ∧
        0x0A0 + 10 * (machine.state.registers.get x).toNat ≤ 0xFFFF := by
  have bounded := reachable.bounded
  have byte (x : Register) : (machine.state.registers.get x).toNat < 256 := UInt8.toNat_lt _
  refine ⟨bounded, ?_, ?_⟩
  · intro word
    have offset := byte Register.zero
    rw [Word.toNat_nnn]
    omega
  · intro x
    have offset := byte x
    have index := bounded.index
    omega

/-- A machine that is switched on. -/
def fresh : Machine Uniform Keypad :=
  (boot ⟨false⟩ KeyPad.released Timing.standard { key := Vector.replicate 8 0 }).machine

/-- A machine that called itself for a frame and was put back to its state at power on. -/
def rewound : Machine Uniform Keypad :=
  (fresh.load #[0x22, 0x00]).machine.runFrame.machine.restore fresh.state

/-- A machine that was put back to an earlier state is still reachable, so its addresses and its
sums are bounded. -/
theorem bounded_and_sums_rewound :
    rewound.Reachable ∧ rewound.state.Bounded ∧
      rewound.state.index.toNat + (rewound.state.registers.get Register.flag).toNat ≤ 0xFFFF := by
  have begun : fresh.Reachable :=
    .boot (⟨false⟩ : Uniform) (KeyPad.released : Keypad) Timing.standard
      { key := Vector.replicate 8 0 }
  have reachable : rewound.Reachable := (begun.load #[0x22, 0x00]).runFrame.restore begun
  obtain ⟨bounded, -, sums⟩ := reachable.bounded_and_sums
  exact ⟨reachable, bounded, (sums Register.flag).1⟩

end Machine

end SuperChip
