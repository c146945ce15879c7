import SuperChip.Proofs.Footprint
import SuperChip.Proofs.Lockstep
import SuperChip.Proofs.Perception

/-!
# Replaying from a state

Only two kinds of instruction bring something into the state that was neither there nor under the
keys: a sprite brings in what the screen shows, and a random byte that is not masked away brings in
the stream. The others, scrolls among them, do the same on every screen, with every stream and at
every speed. So a saved state is enough to replay what was computed without them.

The main statement is `Machine.state_replays`, on any number of steps between which the host moves
the keys as it likes. As in the instruction table, `Form.LooksOutside` is read off the word.
-/

namespace SuperChip

universe u v w t

namespace Form

/-- The words that look at the screen or at the random stream: `DXYN`, and `CXKK` unless it keeps
no bit of the random byte. -/
def LooksOutside (word : Nat) : Prop :=
  nnn 0xD word ∨ (nnn 0xC word ∧ word % 0x100 ≠ 0)

instance : DecidablePred LooksOutside := fun _ => inferInstanceAs (Decidable (_ ∨ _))

end Form

namespace Operation

/-- The operations that look at the screen or at the random stream. -/
def LooksOutside : Operation → Prop
  | draw _ _ _ => True
  | random _ kk => kk ≠ 0
  | _ => False

/-- The words of the operations that look outside have one of the forms that do. -/
theorem looksOutside_of_encodes {operation : Operation} {word : Nat}
    (encoded : operation.Encodes word) (looks : operation.LooksOutside) :
    Form.LooksOutside word := by
  cases operation with
  | draw x y n => exact .inl encoded.1
  | random x kk =>
    obtain ⟨form, -, low⟩ := encoded
    refine .inr ⟨form, fun zero => looks ?_⟩
    exact UInt8.toNat_inj.mp (low.trans zero)
  | _ => exact looks.elim

end Operation

section Senses

variable {first second : Senses} {operation : Operation}

/-- What does not look outside perceives the keys only. -/
theorem State.execute_congr (state : State) (held : first.held = second.held)
    (inward : ¬ operation.LooksOutside) :
    state.execute operation first = state.execute operation second := by
  obtain ⟨keys, random, collision⟩ := first
  obtain ⟨otherKeys, otherRandom, otherCollision⟩ := second
  obtain rfl : keys = otherKeys := held
  cases operation with
  | draw x y n => exact absurd trivial inward
  | random x kk =>
    obtain rfl : kk = 0 := Classical.not_not.mp inward
    simp only [execute, UInt8.and_zero]
  | skip condition => cases condition <;> rfl
  | _ => rfl

/-- Statuses perceive no more than the keys anyway. -/
theorem Operation.status_congr (held : first.held = second.held) :
    operation.status first = operation.status second := by
  obtain ⟨keys, random, collision⟩ := first
  obtain ⟨otherKeys, otherRandom, otherCollision⟩ := second
  obtain rfl : keys = otherKeys := held
  cases operation <;> rfl

end Senses

namespace Machine

variable {δ : Type u} {κ : Type v} {ε : Type w} {π : Type t}

/-- Two machines are in the same state, whatever else they are made of. -/
def SameState (first : Machine δ κ) (second : Machine ε π) : Prop :=
  first.state = second.state

variable [Screen δ] [KeySource κ] [Screen ε] [KeySource π]

/-- **An instruction that does not look outside** does the same in machines that have nothing in
common but their state and their answers about the keys. -/
theorem SameState.execute {first : Machine δ κ} {second : Machine ε π}
    (same : first.SameState second) (held : first.held = second.held)
    (inward : ¬ Form.LooksOutside first.state.wordNumber) :
    Matches SameState first.execute second.execute := by
  have operation : first.operation = second.operation :=
    congrArg (fun state : State => Operation.decode state.word) same
  have unlooking : ¬ first.operation.LooksOutside := fun looks =>
    inward (Operation.looksOutside_of_encodes first.encodes_operation looks)
  have perceived : first.senses.held = second.senses.held := held
  refine ⟨?_, ?_, ?_⟩
  · rw [SameState, state_execute, state_execute, ← operation, ← same]
    exact first.state.advance.execute_congr perceived unlooking
  · rw [reply_execute, reply_execute, ← operation]
    exact Operation.status_congr perceived
  · rw [journal_execute, journal_execute, ← operation, ← same]

/-- Machines in the same state with the same keys held answer alike to a step that looks at
neither the screen nor the random stream. -/
theorem SameState.step {first : Machine δ κ} {second : Machine ε π}
    (same : first.SameState second) (held : first.held = second.held)
    (inward : first.Active → ¬ Form.LooksOutside first.state.wordNumber) :
    Matches SameState first.step second.step :=
  matchesUpTo_id_iff.mp <| matchesUpTo_step same (congrArg State.exitCode same)
    (congrArg State.running same) fun active =>
      matchesUpTo_id_iff.mpr (same.execute held (inward active))

/-- So many steps of a machine whose host sets the keys before each of them: the machine after
them, the statuses in order, and everything noted. -/
def keyedSteps (machine : Machine δ κ) (keys : Nat → κ) : Nat → Outcome δ κ (Array Status)
  | 0 => machine.answer #[]
  | count + 1 =>
      let before := machine.keyedSteps keys count
      let last := (before.machine.rekey fun _ => keys count).step
      { machine := last.machine
        reply := before.reply.push last.reply
        journal := before.journal ++ last.journal }

/-- Two sources of keys answer alike for the sixteen keys. -/
def AnswerAlike (first : κ) (second : π) : Prop :=
  ∀ key : Fin 16, KeySource.pressed first (UInt8.ofNat key.val) =
    KeySource.pressed second (UInt8.ofNat key.val)

instance (first : κ) (second : π) : Decidable (AnswerAlike first second) :=
  inferInstanceAs (Decidable (∀ _, _))

/-- **A state replays.** Two machines in the same state, with any screens, streams and timings,
report the same statuses, note the same events and pass through the same states, as long as their
keys answer alike before each step and the first of them looks neither at its screen nor at its
stream. -/
theorem state_replays {first : Machine δ κ} {second : Machine ε π}
    (same : first.SameState second) (keys : Nat → κ) (otherKeys : Nat → π) {limit : Nat}
    (alike : ∀ time, time < limit → AnswerAlike (keys time) (otherKeys time))
    (inward : ∀ time, time < limit →
      let before := (first.keyedSteps keys time).machine
      before.Active → ¬ Form.LooksOutside before.state.wordNumber)
    {count : Nat} (within : count ≤ limit) :
    let here := first.keyedSteps keys count
    let there := second.keyedSteps otherKeys count
    here.reply = there.reply ∧ here.journal = there.journal ∧
      here.machine.state = there.machine.state := by
  induction count with
  | zero => exact ⟨rfl, rfl, same⟩
  | succ count continued =>
    obtain ⟨replies, journals, states⟩ := continued (Nat.le_of_succ_le within)
    let here := (first.keyedSteps keys count).machine.rekey fun _ => keys count
    let there := (second.keyedSteps otherKeys count).machine.rekey fun _ => otherKeys count
    have held : here.held = there.held := funext (alike count within)
    have stepped : Matches SameState here.step there.step :=
      SameState.step states held (inward count within)
    refine ⟨?_, ?_, stepped.machine⟩
    · change Array.push _ here.step.reply = Array.push _ there.step.reply
      rw [replies, stepped.reply]
    · change _ ++ here.step.journal = _ ++ there.step.journal
      rw [journals, stepped.journal]

/-- A machine that is about to scroll down, to draw a random byte of which no bit is kept, and to
wait for a key. -/
def reloading : Machine FrameBuffer Keypad where
  state :=
    { State.initial with
      memory := Memory.blank.writeList Address.programStart [0x00, 0xC1, 0xC3, 0x00, 0xF5, 0x0A] }
  screen := FrameBuffer.blank.set ⟨3, 3⟩ true
  keys := KeyPad.released
  random := { key := Vector.replicate 8 0 }
  timing := Timing.standard

/-- Another machine put back to the same state: its screen is lit everywhere, its keys are more,
its stream is another one, and it runs at another speed. -/
def reloaded : Machine Uniform WidePad where
  state := reloading.state
  screen := ⟨true⟩
  keys := KeyPad.released
  random := { key := Vector.replicate 8 1, taken := 5 }
  timing := { Timing.standard with lowRate := 50 }

/-- Both wait for a key until the seventh is held; the key that only the second has makes no
difference. -/
theorem state_replays_reloading :
    let keys (time : Nat) : Keypad := KeyPad.released.set 7 (time == 3)
    let otherKeys (time : Nat) : WidePad := (KeyPad.released.set 7 (time == 3)).set 40 true
    let last := reloaded.keyedSteps otherKeys 4
    reloading.SameState reloaded ∧
      (∀ time, time < 4 → AnswerAlike (keys time) (otherKeys time)) ∧
      (∀ time, time < 4 → ¬ Form.LooksOutside
        (reloading.keyedSteps keys time).machine.state.wordNumber) ∧
      last.reply = #[.running, .running, .waitingForKey, .running] ∧
      last.machine.state.registers.get 5 = 7 := by
  intro keys otherKeys last
  have same : reloading.SameState reloaded := rfl
  have alike : ∀ time, time < 4 → AnswerAlike (keys time) (otherKeys time) := by decide +kernel
  have inward : ∀ time, time < 4 → ¬ Form.LooksOutside
      (reloading.keyedSteps keys time).machine.state.wordNumber := by decide +kernel
  obtain ⟨replies, -, states⟩ := state_replays same keys otherKeys alike
    (fun time before _ => inward time before) (Nat.le_refl 4)
  refine ⟨same, alike, inward, ?_, ?_⟩
  · rw [← replies]
    decide +kernel
  · rw [← states]
    decide +kernel

end Machine

end SuperChip
