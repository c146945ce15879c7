import SuperChip.Machine.Step

/-!
# What operations own

The state has twelve components, of which the registers count one by one. An
operation owns the components that it may change; which ones these are depends
on little of the state and of what is perceived.

The main statements are `State.agrees_execute`, that an operation leaves every
component alone that it does not own, and `State.pc_execute`, that control goes
to the target of the operation, reduced to an address of memory, or else falls
through. Nothing else has to be known about an operation to follow a component
that it does not own through a run.
-/

namespace SuperChip

/-- A component of the state. -/
inductive Component where
  | memory
  | register (k : Register)
  | index
  | pc
  | callStack
  | rpl
  | delay
  | sound
  | resolution
  | redraw
  | running
  | exitCode
  deriving DecidableEq, Repr

namespace Component

/-- Whether two states have the same value of a component. -/
def Agrees (component : Component) (first second : State) : Prop :=
  match component with
  | memory => first.memory = second.memory
  | register k => first.registers.get k = second.registers.get k
  | index => first.index = second.index
  | pc => first.pc = second.pc
  | callStack => first.callStack = second.callStack
  | rpl => first.rpl = second.rpl
  | delay => first.delay = second.delay
  | sound => first.sound = second.sound
  | resolution => first.resolution = second.resolution
  | redraw => first.redraw = second.redraw
  | running => first.running = second.running
  | exitCode => first.exitCode = second.exitCode

theorem Agrees.refl (component : Component) (state : State) :
    component.Agrees state state := by
  cases component <;> rfl

/-- Agreement in a component carries over two steps. -/
theorem Agrees.trans {component : Component} {first second third : State}
    (left : component.Agrees first second) (right : component.Agrees second third) :
    component.Agrees first third := by
  cases component <;> exact Eq.trans left right

end Component

namespace Arithmetic

/-- Whether an operation on two registers sets the flag. -/
def hasFlag : Arithmetic → Bool
  | add | sub | subNegated => true
  | _ => false

/-- Whether there is a flag depends on the kind of operation only. -/
theorem isSome_flag? (kind : Arithmetic) (a b : UInt8) :
    (kind.flag? a b).isSome = kind.hasFlag := by
  cases kind <;> rfl

end Arithmetic

namespace Operation

/-- The components that an operation may change. -/
def Owns (operation : Operation) (state : State) (senses : Senses) (component : Component) :
    Prop :=
  match operation with
  | exit _ | halt => component = .running ∨ component = .exitCode
  | clear => component = .redraw
  | scroll toward => component = .redraw ∧ toward.worksIn state.resolution = true
  | setResolution _ => component = .resolution
  | system _ | jump _ | jumpOffset _ | skip _ => component = .pc
  | call _ | ret => component = .pc ∨ component = .callStack
  | loadByte x _ | addByte x _ | random x _ | loadDelay x => component = .register x
  | arithmetic kind x _ =>
      component = .register x ∨ (component = .register Register.flag ∧ kind.hasFlag = true)
  | shiftRight x | shiftLeft x =>
      component = .register x ∨ component = .register Register.flag
  | draw _ _ _ => component = .redraw ∨ component = .register Register.flag
  | waitKey x => component = if senses.lowestHeld?.isSome then .register x else .pc
  | setDelay _ => component = .delay
  | setSound _ => component = .sound
  | loadIndex _ | glyph _ _ => component = .index
  | addIndex _ => component = .index ∨ component = .register Register.flag
  | bcd _ | storeRegisters _ => component = .memory
  | loadRegisters x | loadRpl x => ∃ k : Register, component = .register k ∧ k.val ≤ x.val
  | storeRpl _ => component = .rpl
  | unknown _ => False

/-- A wait for a key owns its register or the program counter. -/
theorem eq_of_owns_waitKey {x : Register} {state : State} {senses : Senses}
    {component : Component} (owned : (waitKey x).Owns state senses component) :
    component = .register x ∨ component = .pc := by
  simp only [Owns] at owned
  split at owned
  · exact .inl owned
  · exact .inr owned

/-- Where an operation sends control, if it does not fall through. -/
def target? (operation : Operation) (state : State) (senses : Senses) : Option Address :=
  match operation with
  | system _ => some (state.pc + 2)
  | jump address => some address
  | jumpOffset address => some (address + (state.registers.get Register.zero).toUInt16)
  | call address => if (state.callStack.push state.pc).isOk then some address else none
  | ret => state.callStack.pop?.map Prod.fst
  | skip condition => if condition.met state senses then some (state.pc + 2) else none
  | waitKey _ => if senses.lowestHeld?.isSome then none else some (state.pc - 2)
  | _ => none

end Operation

namespace State

variable (state : State) {component : Component}

/-- Putting a byte into a register is felt nowhere else. -/
theorem agrees_setRegister (x : Register) (value : UInt8) (other : component ≠ .register x) :
    component.Agrees (state.setRegister x value) state := by
  cases component with
  | register k =>
    have different : x ≠ k := fun same => other (congrArg Component.register same.symm)
    exact (get_setRegister state x value k).trans (if_neg different)
  | _ => rfl

/-- Setting the flag is felt in the flag register only. -/
theorem agrees_setFlag (flag : Bool) (other : component ≠ .register Register.flag) :
    component.Agrees (state.setFlag flag) state :=
  agrees_setRegister state Register.flag _ other

/-- Where there is no flag to set, nothing is felt at all. -/
theorem agrees_setFlag? {flag : Option Bool}
    (other : flag.isSome = true → component ≠ .register Register.flag) :
    component.Agrees (state.setFlag? flag) state := by
  cases flag with
  | none => exact .refl component state
  | some flag => exact agrees_setFlag state flag (other rfl)

/-- A jump is felt in the program counter only. -/
theorem agrees_jump (address : Address) (other : component ≠ .pc) :
    component.Agrees (state.jump address) state := by
  cases component with
  | pc => exact absurd rfl other
  | _ => rfl

/-- Asking for a redraw is felt in the mark for it only. -/
theorem agrees_touch (other : component ≠ .redraw) : component.Agrees state.touch state := by
  cases component with
  | redraw => exact absurd rfl other
  | _ => rfl

/-- An exit is felt in the run state and in the exit code. -/
theorem agrees_exit (code : UInt8) (stays : component ≠ .running) (other : component ≠ .exitCode) :
    component.Agrees (state.exit code) state := by
  cases component with
  | running => exact absurd rfl stays
  | exitCode => exact absurd rfl other
  | _ => rfl

/-- A new call stack is felt in the call stack only. -/
theorem agrees_withCallStack (callStack : CallStack) (other : component ≠ .callStack) :
    component.Agrees { state with callStack := callStack } state := by
  cases component with
  | callStack => exact absurd rfl other
  | _ => rfl

/-- A new index is felt in the index only. -/
theorem agrees_withIndex (index : Address) (other : component ≠ .index) :
    component.Agrees { state with index := index } state := by
  cases component with
  | index => exact absurd rfl other
  | _ => rfl

/-- New memory is felt in memory only. -/
theorem agrees_withMemory (memory : Memory) (other : component ≠ .memory) :
    component.Agrees { state with memory := memory } state := by
  cases component with
  | memory => exact absurd rfl other
  | _ => rfl

/-- A new second bank is felt in the second bank only. -/
theorem agrees_withRpl (rpl : Registers) (other : component ≠ .rpl) :
    component.Agrees { state with rpl := rpl } state := by
  cases component with
  | rpl => exact absurd rfl other
  | _ => rfl

/-- Overlaid registers differ at most up to the last register of the overlay. -/
theorem agrees_withOverlay (last : Register) (source : Register → UInt8)
    (other : ∀ k : Register, component = .register k → last.val < k.val) :
    component.Agrees
      { state with registers := Registers.overlay state.registers last source } state := by
  cases component with
  | register k =>
    have past : ¬ k.val ≤ last.val := Nat.not_le.mpr (other k rfl)
    exact (Registers.get_overlay state.registers last source k).trans (if_neg past)
  | _ => rfl

/-- A call is felt in the program counter and in the call stack. -/
theorem agrees_call (address : Address) (elsewhere : component ≠ .pc)
    (other : component ≠ .callStack) : component.Agrees (state.call address) state := by
  unfold call
  split
  · exact (agrees_jump _ address elsewhere).trans (agrees_withCallStack state _ other)
  · exact .refl component state

/-- A return is felt in the program counter and in the call stack. -/
theorem agrees_ret (elsewhere : component ≠ .pc) (other : component ≠ .callStack) :
    component.Agrees state.ret state := by
  unfold ret
  split
  · exact (agrees_jump _ _ elsewhere).trans (agrees_withCallStack state _ other)
  · exact .refl component state

/-- A skip is felt in the program counter only. -/
theorem agrees_skipIf (condition : Bool) (other : component ≠ .pc) :
    component.Agrees (state.skipIf condition) state := by
  unfold skipIf
  split
  · exact agrees_jump state _ other
  · exact .refl component state

/-- A wait for a key is felt in its register if a key is held, and else in the program counter. -/
theorem agrees_waitKey (x : Register) (senses : Senses)
    (other : component ≠ if senses.lowestHeld?.isSome then .register x else .pc) :
    component.Agrees (state.waitKey x senses) state := by
  unfold waitKey
  split
  · next key held =>
    simp only [held, Option.isSome_some, ↓reduceIte] at other
    exact agrees_setRegister state x _ other
  · next none_held =>
    simp only [none_held, Option.isSome_none, Bool.false_eq_true, ↓reduceIte] at other
    exact agrees_jump state _ other

/-- Arithmetic is felt in its first register, and in the flag if it has one. -/
theorem agrees_arithmetic (kind : Arithmetic) (x y : Register) (other : component ≠ .register x)
    (unflagged : kind.hasFlag = true → component ≠ .register Register.flag) :
    component.Agrees (state.arithmetic kind x y) state := by
  have unset : (kind.flag? (state.registers.get x) (state.registers.get y)).isSome = true →
      component ≠ .register Register.flag := by
    rw [kind.isSome_flag?]
    exact unflagged
  exact (agrees_setFlag? _ unset).trans (agrees_setRegister state x _ other)

/-- **The frame of an operation.** It leaves every component alone that it does not own. -/
theorem agrees_execute (operation : Operation) (senses : Senses)
    (foreign : ¬ operation.Owns state senses component) :
    component.Agrees (state.execute operation senses) state := by
  cases operation with
  | exit code | halt =>
    exact agrees_exit state _ (fun own => foreign (.inl own)) (fun own => foreign (.inr own))
  | clear => exact agrees_touch state foreign
  | scroll toward =>
    simp only [execute]
    split
    · next works => exact agrees_touch state fun own => foreign ⟨own, works⟩
    · exact .refl component state
  | setResolution mode =>
    cases component with
    | resolution => exact absurd rfl foreign
    | _ => rfl
  | system address | jump address | jumpOffset address => exact agrees_jump state _ foreign
  | call address =>
    exact agrees_call state address (fun own => foreign (.inl own)) (fun own => foreign (.inr own))
  | ret => exact agrees_ret state (fun own => foreign (.inl own)) (fun own => foreign (.inr own))
  | skip condition => exact agrees_skipIf state _ foreign
  | loadByte x kk | addByte x kk | random x kk | loadDelay x =>
    exact agrees_setRegister state x _ foreign
  | arithmetic kind x y =>
    exact agrees_arithmetic state kind x y (fun own => foreign (.inl own))
      (fun flagged own => foreign (.inr ⟨own, flagged⟩))
  | shiftRight x | shiftLeft x =>
    exact (agrees_setFlag _ _ fun own => foreign (.inr own)).trans
      (agrees_setRegister state x _ fun own => foreign (.inl own))
  | draw x y n =>
    exact (agrees_touch _ fun own => foreign (.inl own)).trans
      (agrees_setFlag state _ fun own => foreign (.inr own))
  | waitKey x => exact agrees_waitKey state x senses foreign
  | setDelay x =>
    cases component with
    | delay => exact absurd rfl foreign
    | _ => rfl
  | setSound x =>
    cases component with
    | sound => exact absurd rfl foreign
    | _ => rfl
  | loadIndex address | glyph font x => exact agrees_withIndex state _ foreign
  | addIndex x =>
    exact (agrees_withIndex _ _ fun own => foreign (.inl own)).trans
      (agrees_setFlag state _ fun own => foreign (.inr own))
  | bcd x | storeRegisters x => exact agrees_withMemory state _ foreign
  | loadRegisters x | loadRpl x =>
    exact agrees_withOverlay state x _ fun k same =>
      Nat.not_le.mp fun within => foreign ⟨k, same, within⟩
  | storeRpl x => exact agrees_withRpl state _ foreign
  | unknown word => exact .refl component state

/-- **Control after an operation.** It is at the target in memory, or it has fallen through. -/
theorem pc_execute (operation : Operation) (senses : Senses) :
    (state.execute operation senses).pc =
      ((operation.target? state senses).map Address.masked).getD state.pc := by
  cases operation with
  | system address | jump address | jumpOffset address => rfl
  | call address =>
    dsimp only [execute, Operation.target?, call]
    cases state.callStack.push state.pc <;> rfl
  | ret =>
    dsimp only [execute, Operation.target?, ret]
    cases state.callStack.pop? <;> rfl
  | skip condition =>
    dsimp only [execute, Operation.target?, skipIf]
    split <;> rfl
  | waitKey x =>
    dsimp only [execute, Operation.target?, waitKey]
    cases senses.lowestHeld? <;> rfl
  | _ =>
    change Component.pc.Agrees (state.execute _ senses) state
    exact agrees_execute state _ senses (by simp [Operation.Owns])

end State

end SuperChip
