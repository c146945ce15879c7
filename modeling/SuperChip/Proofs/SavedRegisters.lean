import SuperChip.Proofs.Loading
import SuperChip.Proofs.Timers

/-!
# Saved registers

The second bank of registers keeps what a program saves there. Only `FX75` and a reset write to it,
and `FX85` is the only instruction that reads it, so each of its registers holds what the first
bank had at the last save that reached so far, whatever was run, loaded or shown in between.

The main statement is `Machine.saved_registers`, for every session from power on without a restore.
-/

namespace SuperChip

universe u v

namespace Form

/-- The words that save a register: `FX75` with `X` no less than its number. -/
def Saves (k : Register) (word : Nat) : Prop :=
  x 0xF 0x75 word ∧ k.val ≤ word / 0x100 % 0x10

instance (k : Register) : DecidablePred (Saves k) := fun _ =>
  inferInstanceAs (Decidable (_ ∧ _))

end Form

/-- All saved registers start at zero. -/
theorem State.get_rpl_initial (k : Register) : initial.rpl.get k = 0 :=
  Table.get_replicate 0 k

namespace Machine

section Instruction

variable {δ : Type u} {κ : Type v} [Screen δ] [KeySource κ] (machine : Machine δ κ) (k : Register)

/-- A save takes the registers up to that of its word; no other instruction touches the second
bank. -/
theorem get_rpl_execute :
    machine.execute.machine.state.rpl.get k =
      if Form.Saves k machine.state.wordNumber then machine.state.registers.get k
      else machine.state.rpl.get k := by
  by_cases form : Form.x 0xF 0x75 machine.state.wordNumber
  · have last : (Word.x machine.state.word).val = machine.state.wordNumber / 0x100 % 0x10 := by
      rw [Word.val_x, State.toNat_word]
    have decoded : machine.operation = .storeRpl (Word.x machine.state.word) := by
      rw [← State.toNat_word] at form
      exact Operation.decode_of_encodes ⟨form, rfl⟩
    have saves : Form.Saves k machine.state.wordNumber ↔
        k.val ≤ machine.state.wordNumber / 0x100 % 0x10 :=
      ⟨And.right, fun within => ⟨form, within⟩⟩
    simp only [saves]
    rw [state_execute, decoded, ← last]
    exact Registers.get_overlay _ _ _ k
  · have same : machine.execute.machine.state.rpl = machine.state.rpl :=
      Classical.byContradiction fun changed => form (machine.footprint_execute.state .rpl changed)
    rw [same, if_neg fun saves => form saves.1]

variable {machine}

/-- `FX85` takes the registers up to that of its word back and leaves memory and the index. -/
theorem state_execute_of_loadRpl (form : Form.x 0xF 0x85 machine.state.wordNumber) :
    let left := machine.execute.machine.state
    left.memory = machine.state.memory ∧ left.index = machine.state.index ∧
      ∀ k : Register, left.registers.get k =
        if k.val ≤ machine.state.wordNumber / 0x100 % 0x10 then machine.state.rpl.get k
        else machine.state.registers.get k := by
  have last : (Word.x machine.state.word).val = machine.state.wordNumber / 0x100 % 0x10 := by
    rw [Word.val_x, State.toNat_word]
  have decoded : machine.operation = .loadRpl (Word.x machine.state.word) := by
    rw [← State.toNat_word] at form
    exact Operation.decode_of_encodes ⟨form, rfl⟩
  rw [state_execute, decoded, ← last]
  dsimp only [State.execute, State.loadRpl]
  exact ⟨rfl, rfl, fun k => Registers.get_overlay _ _ _ k⟩

end Instruction

variable {δ : Type u} {κ : Type v} [Screen δ] [KeyPanel κ]

/-- At this time of a session a value is put into a register of the second bank: by an instruction
that saves the register, or, zero, by a reset. -/
inductive SavesAt (machine : Machine δ κ) (commands : List Command) (k : Register) (time : Nat) :
    UInt8 → Prop where
  | reset : (machine.stepwise commands)[time]? = some .reset → machine.SavesAt commands k time 0
  | instruction : machine.ExecutesAt commands time (Form.Saves k) →
      machine.SavesAt commands k time ((machine.moment commands time).state.registers.get k)

section Moments

variable {machine : Machine δ κ} {commands : List Command} {k : Register} {time : Nat}

/-- A register that is saved at some moment has the saved value at the next. -/
theorem rpl_moment_of_saves {value : UInt8} (saves : machine.SavesAt commands k time value) :
    (machine.moment commands (time + 1)).state.rpl.get k = value := by
  cases saves with
  | reset given =>
    rw [moment_succ given]
    exact State.get_rpl_initial k
  | instruction executed => rw [executed.moment_succ, get_rpl_execute, if_pos executed.2.2]

/-- Where nothing is saved a register keeps its value, as nothing is restored either. -/
theorem rpl_moment_of_not_saves (unrestored : ∀ state, Command.restore state ∉ commands)
    (unsaved : ∀ value, ¬ machine.SavesAt commands k time value) :
    (machine.moment commands (time + 1)).state.rpl.get k =
      (machine.moment commands time).state.rpl.get k := by
  by_cases executed : machine.ExecutesAt commands time fun _ => True
  · have unsaving : ¬ Form.Saves k (machine.moment commands time).state.wordNumber :=
      fun form => unsaved _ (.instruction ⟨executed.1, executed.2.1, form⟩)
    rw [executed.moment_succ, get_rpl_execute, if_neg unsaving]
  · have rests : (machine.moment commands time).Rests (machine.moment commands (time + 1)) := by
      refine rests_moment_succ (fun command next => ?_) executed
      cases command with
      | reset => exact absurd (.reset next) (unsaved 0)
      | restore state =>
        exact absurd rfl
          (ne_restore_of_mem_stepwise unrestored (List.mem_of_getElem? next) state)
      | _ => trivial
    rw [rests.rpl]

end Moments

/-- **Saved registers persist.** In every session from power on without a restore, at every moment
between its steps and the single acts of its host, a register of the second bank holds what the
register of the first bank had at the last save that took it along, and zero if there was none since
the last reset. An executed `FX85` sets the registers up to its own to these values and leaves the
later ones, memory and the index. The last of the moments is what the session leaves. -/
theorem saved_registers (screen : δ) (keys : κ) (timing : Timing) (random : RandomStream)
    (commands : List Command) (unrestored : ∀ state, Command.restore state ∉ commands) :
    let machine := (boot screen keys timing random).machine
    let SavedLast (k : Register) := LatestOf (machine.SavesAt commands k) 0
    (machine.performAll commands).machine =
      machine.moment commands (machine.stepwise commands).length ∧
    (∀ (k : Register) (time : Nat) (value : UInt8),
      (machine.moment commands time).state.rpl.get k = value ↔ SavedLast k time value) ∧
    ∀ time, machine.ExecutesAt commands time (Form.x 0xF 0x85) →
      let before := (machine.moment commands time).state
      let after := (machine.moment commands (time + 1)).state
      let last := before.wordNumber / 0x100 % 0x10
      after.memory = before.memory ∧ after.index = before.index ∧
        ∀ k : Register,
          (k.val ≤ last → SavedLast k time (after.registers.get k)) ∧
          (last < k.val → after.registers.get k = before.registers.get k) := by
  intro machine SavedLast
  have saved (k : Register) (time : Nat) (value : UInt8) :
      (machine.moment commands time).state.rpl.get k = value ↔ SavedLast k time value :=
    held_eq_iff_latestOf (fun time => (machine.moment commands time).state.rpl.get k)
      (State.get_rpl_initial k) (fun _ _ => rpl_moment_of_saves)
      fun _ => rpl_moment_of_not_saves unrestored
  refine ⟨moment_length.symm, saved, fun time executed => ?_⟩
  intro before after last
  obtain ⟨memory, index, registers⟩ := state_execute_of_loadRpl executed.2.2
  rw [← executed.moment_succ] at memory index registers
  refine ⟨memory, index, fun k => ⟨fun within => ?_, fun beyond => ?_⟩⟩
  · exact (saved k time _).mp (((registers k).trans (if_pos within)).symm)
  · exact (registers k).trans (if_neg (Nat.not_le.mpr beyond))

/-- A program that saves a seven, puts a nine over it and takes the seven back. -/
def saving : Array UInt8 :=
  #[0x60, 0x07, 0xF0, 0x75, 0x60, 0x09, 0xF0, 0x85]

/-- The program as it runs: the nine is there before the last instruction, the seven after it. -/
theorem saved_registers_saving :
    let session : List Command := [.load saving, .step, .step, .step, .step]
    (∀ state, Command.restore state ∉ session) ∧
      fresh.ExecutesAt session 4 (Form.x 0xF 0x85) ∧
      (fresh.moment session 4).state.registers.get Register.zero = 9 ∧
      (fresh.moment session 5).state.registers.get Register.zero = 7 ∧
      LatestOf (fresh.SavesAt session Register.zero) 0 4 7 := by
  intro session
  have unrestored (state : State) : Command.restore state ∉ session := by simp [session]
  have written : fresh.stepwise session = [.load saving, .step, .step, .step, .step] := rfl
  clear_value session
  obtain ⟨-, -, loads⟩ := saved_registers (⟨false⟩ : Uniform) (KeyPad.released : Keypad)
    Timing.standard { key := Vector.replicate 8 0 } session unrestored
  have begins : (fresh.stepwise session)[0]? = some (.load saving) := by rw [written]; rfl
  obtain ⟨memory, holds, loaded⟩ := state_moment_succ_of_load begins (by decide)
  -- Only the program is ever read, so the steps can be followed without the rest of memory.
  have given (earlier : Nat) (inside : earlier < 4) :
      (fresh.stepwise session)[earlier + 1]? = some .step := by
    rw [written]
    obtain rfl | rfl | rfl | rfl : earlier = 0 ∨ earlier = 1 ∨ earlier = 2 ∨ earlier = 3 := by omega
    all_goals rfl
  obtain ⟨_, second⟩ := state_moment_succ_of_holds loaded (given 0 (by decide)) ⟨rfl, rfl⟩
    holds 0 rfl rfl rfl
  obtain ⟨_, third⟩ := state_moment_succ_of_holds second (given 1 (by decide)) ⟨rfl, rfl⟩
    holds 2 rfl rfl rfl
  obtain ⟨_, fourth⟩ := state_moment_succ_of_holds third (given 2 (by decide)) ⟨rfl, rfl⟩
    holds 4 rfl rfl rfl
  obtain ⟨_, fifth⟩ := state_moment_succ_of_holds fourth (given 3 (by decide)) ⟨rfl, rfl⟩
    holds 6 rfl rfl rfl
  have executed : fresh.ExecutesAt session 4 (Form.x 0xF 0x85) := by
    refine ⟨given 3 (by decide), ?_, ?_⟩
    · rw [Active, fourth]
      exact ⟨rfl, rfl⟩
    · rw [← State.toNat_word, fourth, State.word_of_holds holds 6 rfl rfl rfl]
      decide
  have nine : (fresh.moment session 4).state.registers.get Register.zero = 9 := by
    rw [fourth]
    exact (State.get_setRegister _ _ _ _).trans (if_pos rfl)
  have seven : (fresh.moment session 5).state.registers.get Register.zero = 7 := by
    rw [fifth]
    refine (Registers.get_overlay _ _ _ _).trans ?_
    refine (Registers.get_overlay _ _ _ _).trans ?_
    exact (State.get_setRegister _ _ _ _).trans (if_pos rfl)
  obtain ⟨-, -, registers⟩ := loads 4 executed
  have last : LatestOf (fresh.SavesAt session Register.zero) 0 4
      ((fresh.moment session 5).state.registers.get Register.zero) :=
    (registers Register.zero).1 (Nat.zero_le _)
  exact ⟨unrestored, executed, nine, seven, seven ▸ last⟩

end Machine

end SuperChip
