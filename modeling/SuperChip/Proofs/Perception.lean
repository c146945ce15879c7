import SuperChip.Proofs.Moments

/-!
# What operations perceive

Three operations use the timers and three ask for keys. Whatever the others do, they do at any
reading of the timers and with any keys held, so a tick, a press or a release may as well come
after them as before (`Machine.step_perform`).

As in the instruction table, `Form.UsesTimers` and `Form.AsksKeys` are read off the word.
-/

namespace SuperChip

universe u v

namespace Form

/-- The words that read or set a timer: `FX07`, `FX15` and `FX18`. -/
def UsesTimers (word : Nat) : Prop :=
  x 0xF 0x07 word ∨ x 0xF 0x15 word ∨ x 0xF 0x18 word

/-- The words that ask for keys: `EX9E`, `EXA1` and `FX0A`. -/
def AsksKeys (word : Nat) : Prop :=
  x 0xE 0x9E word ∨ x 0xE 0xA1 word ∨ x 0xF 0x0A word

instance : DecidablePred UsesTimers := fun _ => inferInstanceAs (Decidable (_ ∨ _))

instance : DecidablePred AsksKeys := fun _ => inferInstanceAs (Decidable (_ ∨ _))

end Form

namespace Operation

/-- The operations that read or set a timer. -/
def UsesTimers : Operation → Prop
  | loadDelay _ | setDelay _ | setSound _ => True
  | _ => False

/-- The operations that ask for keys. -/
def AsksKeys : Operation → Prop
  | skip (.pressed _) | skip (.notPressed _) | waitKey _ => True
  | _ => False

variable {operation : Operation} {word : Nat}

/-- The words of the operations that use the timers have one of the three forms that do. -/
theorem usesTimers_of_encodes (encoded : operation.Encodes word) (uses : operation.UsesTimers) :
    Form.UsesTimers word := by
  cases operation with
  | loadDelay x => exact .inl encoded.1
  | setDelay x => exact .inr (.inl encoded.1)
  | setSound x => exact .inr (.inr encoded.1)
  | _ => exact uses.elim

/-- The words of the operations that ask for keys have one of the three forms that do. -/
theorem asksKeys_of_encodes (encoded : operation.Encodes word) (asks : operation.AsksKeys) :
    Form.AsksKeys word := by
  cases operation with
  | skip condition =>
    cases condition with
    | pressed x => exact .inl encoded.1
    | notPressed x => exact .inr (.inl encoded.1)
    | _ => exact asks.elim
  | waitKey x => exact .inr (.inr encoded.1)
  | _ => exact asks.elim

end Operation

namespace State

/-- The same state with other readings of the timers. -/
def withTimers (state : State) (delay sound : UInt8) : State :=
  { state with delay := delay, sound := sound }

/-- What does not use the timers does the same at any readings. -/
theorem execute_withTimers (state : State) (delay sound : UInt8) {operation : Operation}
    (senses : Senses) (unused : ¬ operation.UsesTimers) :
    (state.withTimers delay sound).execute operation senses =
      (state.execute operation senses).withTimers delay sound := by
  cases operation with
  | loadDelay x | setDelay x | setSound x => exact absurd trivial unused
  | scroll toward =>
    change (if toward.worksIn state.resolution then _ else _) =
      (if toward.worksIn state.resolution then _ else _ : State).withTimers delay sound
    split <;> rfl
  | call address =>
    dsimp only [execute, call, withTimers]
    cases state.callStack.push state.pc <;> rfl
  | ret =>
    dsimp only [execute, ret, withTimers]
    cases state.callStack.pop? <;> rfl
  | skip condition =>
    have same : condition.met (state.withTimers delay sound) senses =
        condition.met state senses := by cases condition <;> rfl
    simp only [execute, same, skipIf]
    split <;> rfl
  | waitKey x =>
    dsimp only [execute, waitKey]
    cases senses.lowestHeld? <;> rfl
  | arithmetic kind x y => cases kind <;> rfl
  | _ => rfl

/-- So it leaves them as they are, and may as well run before a tick as after it. -/
theorem execute_tick (state : State) {operation : Operation} (senses : Senses)
    (unused : ¬ operation.UsesTimers) :
    state.tick.execute operation senses = (state.execute operation senses).tick := by
  have kept : state.execute operation senses =
      (state.execute operation senses).withTimers state.delay state.sound :=
    state.execute_withTimers state.delay state.sound senses unused
  calc state.tick.execute operation senses
      = (state.execute operation senses).withTimers (countdown state.delay)
          (countdown state.sound) := state.execute_withTimers _ _ senses unused
    _ = ((state.execute operation senses).withTimers state.delay state.sound).tick := rfl
    _ = (state.execute operation senses).tick := by rw [← kept]

/-- What does not ask for keys does the same with any keys held. -/
theorem execute_withHeld (state : State) {operation : Operation} (senses : Senses)
    (held : Fin 16 → Bool) (unasked : ¬ operation.AsksKeys) :
    state.execute operation { senses with held := held } = state.execute operation senses := by
  cases operation with
  | skip condition =>
    cases condition with
    | pressed x | notPressed x => exact absurd trivial unasked
    | _ => rfl
  | waitKey x => exact absurd trivial unasked
  | _ => rfl

end State

namespace Operation

/-- What an operation paints does not depend on the timers. -/
theorem paint_tick {δ : Type u} [Screen δ] (operation : Operation) (state : State) (screen : δ) :
    operation.paint state.tick screen = operation.paint state screen := by
  cases operation <;> rfl

theorem event?_tick (operation : Operation) (state : State) :
    operation.event? state.tick = operation.event? state := by
  cases operation <;> rfl

/-- The status of an operation that asks for no key does not depend on the keys that are held. -/
theorem status_withHeld {operation : Operation} (senses : Senses)
    (held : Fin 16 → Bool) (unasked : ¬ operation.AsksKeys) :
    operation.status { senses with held := held } = operation.status senses := by
  cases operation with
  | waitKey x => exact absurd trivial unasked
  | _ => rfl

end Operation

namespace Command

/-- The commands by which time passes and keys move. -/
def IsEvent : Command → Prop
  | tick | press _ | release _ | releaseAll => True
  | _ => False

/-- The words whose instructions notice an event. -/
def Concerns : Command → Nat → Prop
  | tick, word => Form.UsesTimers word
  | press _, word | release _, word | releaseAll, word => Form.AsksKeys word
  | _, _ => False

end Command

namespace Machine

variable {δ : Type u} {κ : Type v}

/-- A machine whose keys have moved. -/
def rekey (machine : Machine δ κ) (change : κ → κ) : Machine δ κ :=
  { machine with keys := change machine.keys }

section Step

variable [Screen δ] [KeySource κ] {machine : Machine δ κ}

/-- A change that lets a machine run or rest as before, and that an instruction passes on, is
passed on by a step. -/
theorem step_changed (change : Machine δ κ → Machine δ κ)
    (exitCode : (change machine).state.exitCode = machine.state.exitCode)
    (running : (change machine).state.running = machine.state.running)
    (executed : machine.Active → (change machine).execute =
      { machine.execute with machine := change machine.execute.machine }) :
    (change machine).step = { machine.step with machine := change machine.step.machine } := by
  cases exited : machine.state.exitCode with
  | some code =>
    rw [step_of_exited exited, step_of_exited (exitCode.trans exited)]
    rfl
  | none =>
    cases ran : machine.state.running with
    | false =>
      rw [step_of_paused exited ran, step_of_paused (exitCode.trans exited) (running.trans ran)]
      rfl
    | true =>
      rw [step_of_running exited ran, step_of_running (exitCode.trans exited) (running.trans ran)]
      exact executed ⟨exited, ran⟩

/-- An instruction that does not use the timers may as well run before a tick as after it. -/
theorem step_tick (unused : machine.Active → ¬ Form.UsesTimers machine.state.wordNumber) :
    machine.tick.step = { machine.step with machine := machine.step.machine.tick } := by
  refine step_changed tick rfl rfl fun active => ?_
  have unconcerned : ¬ machine.operation.UsesTimers := fun uses =>
    unused active (Operation.usesTimers_of_encodes machine.encodes_operation uses)
  have state := machine.state.advance.execute_tick machine.senses unconcerned
  have paint := machine.operation.paint_tick machine.state.advance machine.screen
  have event := machine.operation.event?_tick machine.state.advance
  have senses : machine.tick.senses = machine.senses :=
    congrArg (fun drawn : Drawing δ => Senses.mk machine.held machine.random drawn.collision)
      paint
  calc machine.tick.execute
      = { machine :=
            { machine with
              state := machine.state.advance.tick.execute machine.operation machine.tick.senses
              screen := (machine.operation.paint machine.state.advance.tick machine.screen).screen
              random := if machine.operation.isRandom then machine.random.advance
                else machine.random }
          reply := machine.operation.status machine.tick.senses
          journal := #[.executing machine.state.pc machine.state.word machine.state.registers
              machine.state.index] ++
            (machine.operation.event? machine.state.advance.tick).toArray } := rfl
    _ = { machine.execute with machine := machine.execute.machine.tick } := by
      rw [senses, state, paint, event]
      rfl

/-- One that does not ask for keys may as well run before they move as after. -/
theorem step_rekey (change : κ → κ)
    (unasked : machine.Active → ¬ Form.AsksKeys machine.state.wordNumber) :
    (machine.rekey change).step =
      { machine.step with machine := machine.step.machine.rekey change } := by
  refine step_changed (rekey · change) rfl rfl fun active => ?_
  have unconcerned : ¬ machine.operation.AsksKeys := fun asks =>
    unasked active (Operation.asksKeys_of_encodes machine.encodes_operation asks)
  have state := machine.state.advance.execute_withHeld machine.senses
    (machine.rekey change).held unconcerned
  have reply := Operation.status_withHeld machine.senses (machine.rekey change).held unconcerned
  calc (machine.rekey change).execute
      = { machine.execute with
          machine :=
            { machine.execute.machine with
              state := machine.state.advance.execute machine.operation
                { machine.senses with held := (machine.rekey change).held }
              keys := change machine.keys }
          reply := machine.operation.status
            { machine.senses with held := (machine.rekey change).held } } := rfl
    _ = { machine.execute with machine := machine.execute.machine.rekey change } := by
      rw [state, reply]
      rfl

end Step

variable [Screen δ] [KeyPanel κ]

/-- **Events slide past steps.** A step that an event does not concern may as well run before it:
it reports and notes the same, and leaves the same machine but for the event. -/
theorem step_perform {machine : Machine δ κ} {event : Command} (happens : event.IsEvent)
    (unconcerned : machine.Active → ¬ event.Concerns machine.state.wordNumber) :
    (machine.perform event).machine.step =
      { machine.step with machine := (machine.step.machine.perform event).machine } := by
  cases event with
  | tick => exact step_tick unconcerned
  | press key => exact step_rekey (KeyPanel.press · key) unconcerned
  | release key => exact step_rekey (KeyPanel.release · key) unconcerned
  | releaseAll => exact step_rekey KeySource.releaseAll unconcerned
  | _ => exact happens.elim

end Machine

end SuperChip
