import SuperChip.Proofs.Footprint
import SuperChip.Proofs.Moments

/-!
# Subroutines

A call saves the address of the next instruction, and the return that leaves the subroutine
takes this very address. In between the call stack only grows and shrinks above it, however
deep calls nest and whatever calls the full stack refuses.

The main statements are `Machine.callStack_cases`, all that one instruction can do to the call
stack, and `Machine.call_returns`, the discipline over a whole session.
-/

namespace SuperChip

universe u v

namespace State

variable (state : State)

/-- A call with room on the stack puts the return address on top of the addresses there. -/
theorem toList_call (room : state.callStack.depth < 16) (address : Address) :
    (state.call address).callStack.toList = state.callStack.toList ++ [state.pc] := by
  unfold call
  cases pushed : state.callStack.push state.pc with
  | error refused =>
    have full := ((CallStack.push_eq_error_iff _ _ _).mp pushed).1
    omega
  | ok saved => exact CallStack.toList_of_push pushed

/-- A full stack refuses a call. -/
theorem call_of_full (full : state.callStack.depth = 16) (address : Address) :
    state.call address = state := by
  rw [call, (CallStack.push_eq_error_iff _ _ _).mpr ⟨full, rfl⟩]

/-- An empty stack has nothing to return to. -/
theorem ret_of_empty (nothing : state.callStack.depth = 0) : state.ret = state := by
  rw [ret, (CallStack.pop?_eq_none_iff _).mpr nothing]

/-- A return goes to the address saved last and forgets it. -/
theorem toList_ret (saved : state.callStack.depth ≠ 0) :
    ∃ address, state.callStack.toList = state.ret.callStack.toList ++ [address] ∧
      state.ret.pc = Address.masked address := by
  unfold ret
  cases popped : state.callStack.pop? with
  | none => exact absurd ((CallStack.pop?_eq_none_iff _).mp popped) saved
  | some taken =>
    obtain ⟨address, rest⟩ := taken
    exact ⟨address, CallStack.toList_of_pop? popped, rfl⟩

end State

namespace Machine

section Step

variable {δ : Type u} {κ : Type v} [Screen δ] [KeySource κ] (machine : Machine δ κ)

/-- Executing a word `2NNN` advances the machine and calls `NNN`. -/
theorem state_execute_of_call (form : Form.nnn 0x2 machine.state.wordNumber) :
    machine.execute.machine.state =
      machine.state.advance.call (Word.nnn machine.state.word) := by
  rw [← State.toNat_word] at form
  have decoded : machine.operation = .call (Word.nnn machine.state.word) :=
    Operation.decode_of_encodes ⟨form, Word.toNat_nnn _⟩
  rw [state_execute, decoded]
  rfl

/-- Executing the word `00EE` advances the machine and returns. -/
theorem state_execute_of_ret (form : machine.state.wordNumber = 0x00EE) :
    machine.execute.machine.state = machine.state.advance.ret := by
  rw [← State.toNat_word] at form
  have decoded : machine.operation = .ret := Operation.decode_of_encodes form
  rw [state_execute, decoded]
  rfl

/-- A call on a full stack does no more than advance the machine. -/
theorem state_execute_of_full (form : Form.nnn 0x2 machine.state.wordNumber)
    (full : machine.state.callStack.depth = 16) :
    machine.execute.machine.state = machine.state.advance := by
  have same : machine.state.advance.callStack.depth = 16 := full
  rw [state_execute_of_call machine form, State.call_of_full _ same]

/-- A return on an empty stack does no more than advance the machine. -/
theorem state_execute_of_empty (form : machine.state.wordNumber = 0x00EE)
    (nothing : machine.state.callStack.depth = 0) :
    machine.execute.machine.state = machine.state.advance := by
  have same : machine.state.advance.callStack.depth = 0 := nothing
  rw [state_execute_of_ret machine form, State.ret_of_empty _ same]

/-- **What an instruction does to the call stack.** It leaves it alone, or it is a call that
saves where it would have gone on, or it is a return that goes to the address saved last. -/
theorem callStack_cases :
    machine.execute.machine.state.callStack = machine.state.callStack ∨
    (Form.nnn 0x2 machine.state.wordNumber ∧
      machine.execute.machine.state.callStack.toList =
        machine.state.callStack.toList ++ [Address.masked (machine.state.pc + 2)]) ∨
    (machine.state.wordNumber = 0x00EE ∧ ∃ address,
      machine.state.callStack.toList =
        machine.execute.machine.state.callStack.toList ++ [address] ∧
      machine.execute.machine.state.pc = Address.masked address) := by
  by_cases call : Form.nnn 0x2 machine.state.wordNumber
  · by_cases full : machine.state.callStack.depth = 16
    · rw [state_execute_of_full machine call full]
      exact .inl rfl
    · have bound := machine.state.callStack.depth_le
      have room : machine.state.advance.callStack.depth < 16 := Nat.lt_of_le_of_ne bound full
      rw [state_execute_of_call machine call]
      exact .inr (.inl ⟨call, State.toList_call _ room _⟩)
  · by_cases ret : machine.state.wordNumber = 0x00EE
    · by_cases nothing : machine.state.callStack.depth = 0
      · rw [state_execute_of_empty machine ret nothing]
        exact .inl rfl
      · rw [state_execute_of_ret machine ret]
        exact .inr (.inr ⟨ret, State.toList_ret machine.state.advance nothing⟩)
    · left
      have kept := machine.footprint_execute.state .callStack
      exact Classical.byContradiction fun changed => (kept changed).elim ret call

variable {machine}

/-- An address under the top of the stack stays where it is, and one on top can only be left by
the return that goes there. -/
theorem saved_or_returned {saved : List Address} {address : Address}
    (inside : saved ++ [address] <+: machine.state.callStack.toList) :
    saved ++ [address] <+: machine.execute.machine.state.callStack.toList ∨
      (machine.state.wordNumber = 0x00EE ∧
        machine.execute.machine.state.callStack.toList = saved ∧
        machine.execute.machine.state.pc = Address.masked address) := by
  rcases machine.callStack_cases with same | ⟨-, pushed⟩ | ⟨ret, top, popped, control⟩
  · rw [same]
    exact .inl inside
  · rw [pushed]
    exact .inl (inside.trans (List.prefix_append _ _))
  · rw [popped] at inside
    rcases List.prefix_concat_iff.mp inside with whole | below
    · obtain ⟨rest, last⟩ := List.append_inj' whole rfl
      obtain rfl := List.singleton_inj.mp last
      exact .inr ⟨ret, rest.symm, control⟩
    · exact .inl below

end Step

variable {δ : Type u} {κ : Type v} [Screen δ] [KeyPanel κ]

/-- The call stack stays deeper than some depth after one time and up to another. -/
def DeeperThan (machine : Machine δ κ) (commands : List Command) (depth start last : Nat) : Prop :=
  ∀ time, start < time → time ≤ last →
    depth < (machine.moment commands time).state.callStack.depth

section Sessions

variable {machine : Machine δ κ} {commands : List Command} {saved : List Address}
  {address : Address} {start time : Nat}

/-- Between two moments of a session, too, a saved address is only left by its return. -/
theorem saved_or_returned_moment (continuing : ∀ command ∈ commands, command.Continues)
    (inside : saved ++ [address] <+:
      (machine.moment commands time).state.callStack.toList) :
    saved ++ [address] <+: (machine.moment commands (time + 1)).state.callStack.toList ∨
      (machine.ExecutesAt commands time (· = 0x00EE) ∧
        (machine.moment commands (time + 1)).state.callStack.toList = saved ∧
        (machine.moment commands (time + 1)).state.pc = Address.masked address) := by
  rcases machine.rests_or_executes continuing time with rests | executed
  · rw [rests.callStack]
    exact .inl inside
  · rw [executed.moment_succ]
    obtain ⟨stepped, active, -⟩ := executed
    exact (saved_or_returned inside).imp_right fun returned =>
      ⟨⟨stepped, active, returned.1⟩, returned.2⟩

/-- A saved address is still there as long as the stack stays deeper than it was before. -/
theorem saved_of_deeper (continuing : ∀ command ∈ commands, command.Continues)
    (inside : saved ++ [address] <+: (machine.moment commands start).state.callStack.toList)
    (ordered : start ≤ time) (deeper : machine.DeeperThan commands saved.length start time) :
    saved ++ [address] <+: (machine.moment commands time).state.callStack.toList := by
  induction ordered with
  | refl => exact inside
  | @step time ordered continued =>
    have before := continued fun earlier after before => deeper earlier after (by omega)
    rcases saved_or_returned_moment continuing before with still | ⟨-, left, -⟩
    · exact still
    · -- The return would have brought the stack back to its old depth.
      have depth := deeper (time + 1) (Nat.lt_succ_of_le ordered) (Nat.le_refl _)
      rw [← CallStack.length_toList, left] at depth
      exact absurd depth (Nat.lt_irrefl _)

/-- What brings the stack back to where it was before an address was saved is the return that
goes there. -/
theorem returned_of_shallow (continuing : ∀ command ∈ commands, command.Continues)
    (inside : saved ++ [address] <+:
      (machine.moment commands time).state.callStack.toList)
    (shallow : (machine.moment commands (time + 1)).state.callStack.depth ≤ saved.length) :
    machine.ExecutesAt commands time (· = 0x00EE) ∧
      (machine.moment commands (time + 1)).state.pc = Address.masked address ∧
      (machine.moment commands (time + 1)).state.callStack.toList = saved := by
  rcases saved_or_returned_moment continuing inside with still | ⟨returned, rest, control⟩
  · have longer := still.length_le
    rw [List.length_append, CallStack.length_toList] at longer
    exact absurd shallow (Nat.not_le.mpr longer)
  · exact ⟨returned, control, rest⟩

/-- A call at some moment puts the address of the word after it on the stack. -/
theorem toList_moment_of_call (called : machine.ExecutesAt commands start (Form.nnn 0x2))
    (room : (machine.moment commands start).state.callStack.depth < 16) :
    (machine.moment commands (start + 1)).state.callStack.toList =
      (machine.moment commands start).state.callStack.toList ++
        [Address.masked ((machine.moment commands start).state.pc + 2)] := by
  rw [called.moment_succ, state_execute_of_call _ called.2.2]
  exact State.toList_call (machine.moment commands start).state.advance room _

/-- A call at some moment with a full stack is passed over. -/
theorem state_moment_of_full (called : machine.ExecutesAt commands start (Form.nnn 0x2))
    (full : (machine.moment commands start).state.callStack.depth = 16) :
    (machine.moment commands (start + 1)).state =
      (machine.moment commands start).state.advance := by
  rw [called.moment_succ, state_execute_of_full _ called.2.2 full]

/-- A return at some moment with an empty stack is passed over. -/
theorem state_moment_of_empty (returned : machine.ExecutesAt commands start (· = 0x00EE))
    (nothing : (machine.moment commands start).state.callStack.depth = 0) :
    (machine.moment commands (start + 1)).state =
      (machine.moment commands start).state.advance := by
  rw [returned.moment_succ, state_execute_of_empty _ returned.2.2 nothing]

end Sessions

/-- **Calls return.** In a session without reset and restore, a call with room on the stack
saves where it would have gone on; as long as the stack stays deeper than before the call, what
was saved then stays in place, and the first instruction that brings the stack back to the old
depth is a return, which goes on after the call with the stack as it was. A call on a full stack
and a return on an empty one go on with the stack untouched. -/
theorem call_returns (machine : Machine δ κ) (commands : List Command)
    (continuing : ∀ command ∈ commands, command.Continues) (start : Nat) :
    let caller := (machine.moment commands start).state
    let callee := (machine.moment commands (start + 1)).state
    let past := Address.masked (caller.pc + 2)
    (machine.ExecutesAt commands start (Form.nnn 0x2) → caller.callStack.depth < 16 →
      callee.callStack.toList = caller.callStack.toList ++ [past] ∧
      ∀ last, start < last → machine.DeeperThan commands caller.callStack.depth start last →
        (machine.moment commands last).state.callStack.toList.take (caller.callStack.depth + 1) =
          caller.callStack.toList ++ [past] ∧
        let left := (machine.moment commands (last + 1)).state
        (left.callStack.depth ≤ caller.callStack.depth →
          machine.ExecutesAt commands last (· = 0x00EE) ∧ left.pc = past ∧
            left.callStack.toList = caller.callStack.toList)) ∧
    (machine.ExecutesAt commands start (Form.nnn 0x2) → caller.callStack.depth = 16 →
      callee.callStack = caller.callStack ∧ callee.pc = past) ∧
    (machine.ExecutesAt commands start (· = 0x00EE) → caller.callStack.depth = 0 →
      callee.callStack = caller.callStack ∧ callee.pc = past) := by
  intro caller callee past
  refine ⟨?_, ?_, ?_⟩
  · intro called room
    have entered := toList_moment_of_call called room
    have depth : caller.callStack.toList.length = caller.callStack.depth :=
      CallStack.length_toList _
    refine ⟨entered, ?_⟩
    intro last after deeper
    have inside : caller.callStack.toList ++ [past] <+:
        (machine.moment commands last).state.callStack.toList := by
      refine saved_of_deeper continuing (entered ▸ List.prefix_rfl) after ?_
      intro time later before
      rw [depth]
      exact deeper time (by omega) before
    refine ⟨?_, ?_⟩
    · have taken := List.prefix_iff_eq_take.mp inside
      rw [List.length_append, depth] at taken
      exact taken.symm
    · intro left shallow
      have returned := returned_of_shallow continuing inside (depth ▸ shallow)
      rw [Address.masked_masked] at returned
      exact returned
  · intro called full
    have next : callee = caller.advance := state_moment_of_full called full
    rw [next]
    exact ⟨rfl, rfl⟩
  · intro returned nothing
    have next : callee = caller.advance := state_moment_of_empty returned nothing
    rw [next]
    exact ⟨rfl, rfl⟩

/-- A machine about to call a subroutine that calls another one. -/
def nesting : Machine Uniform Keypad :=
  { comparing with
    state :=
      { State.initial with
        memory := Memory.blank.writeList Address.programStart
          [0x22, 0x04, 0x00, 0xFD, 0x22, 0x08, 0x00, 0xEE, 0x00, 0xEE] } }

/-- The same machine with no room for another return address. -/
def crowded : Machine Uniform Keypad :=
  { nesting with
    state :=
      { nesting.state with
        callStack := CallStack.ofList (List.replicate 16 0x300) } }

/-- The outer call returns after the inner one, inside a frame. With the stack full the same call
goes on at the next instruction. -/
theorem call_returns_nesting :
    nesting.ExecutesAt [.runFrame] 0 (Form.nnn 0x2) ∧
      nesting.DeeperThan [.runFrame] 0 0 3 ∧
      nesting.ExecutesAt [.runFrame] 3 (· = 0x00EE) ∧
      (nesting.moment [.runFrame] 4).state.pc = 0x202 ∧
      (nesting.moment [.runFrame] 4).state.callStack.toList = [] ∧
      (crowded.moment [.step] 1).state.callStack = crowded.state.callStack ∧
      (crowded.moment [.step] 1).state.pc = 0x202 := by
  have called : nesting.ExecutesAt [.runFrame] 0 (Form.nnn 0x2) := by decide +kernel
  have deeper : nesting.DeeperThan [.runFrame] 0 0 3 := by
    intro time after before
    obtain rfl | rfl | rfl : time = 1 ∨ time = 2 ∨ time = 3 := by omega
    all_goals decide +kernel
  obtain ⟨within, -, -⟩ := call_returns nesting [.runFrame] (by simp [Command.Continues]) 0
  obtain ⟨-, leaves⟩ := within called (by decide)
  obtain ⟨-, returns⟩ := leaves 3 (by decide) deeper
  obtain ⟨returned, control, rest⟩ := returns (by decide +kernel)
  simp only [Nat.reduceAdd] at control rest
  obtain ⟨-, refused, -⟩ := call_returns crowded [.step] (by simp [Command.Continues]) 0
  obtain ⟨kept, past⟩ := refused (by decide +kernel) (by decide)
  rw [Nat.zero_add] at kept past
  exact ⟨called, deeper, returned, control.trans (by decide +kernel), rest.trans rfl, kept,
    past.trans (by decide +kernel)⟩

end Machine

end SuperChip
