import SuperChip.Proofs.Footprint
import SuperChip.Proofs.Moments

/-!
# The bytes of the random stream

The stream moves by one byte for every `CXKK` that a machine executes, whatever it keeps of the
byte, and by nothing else. In particular a reset and a restored state leave it where it is, so the
position of the stream is the number of these instructions in the life of the machine.

The main statement is `Machine.random_bytes`, on machines made from a seed: it names the byte that
each `CXKK` receives, and says what is left of a machine's past once it was reset.
-/

namespace SuperChip

universe u v

/-- A stream from which some more bytes were taken. -/
def RandomStream.advanceBy (stream : RandomStream) (count : Nat) : RandomStream :=
  { stream with taken := stream.taken + count }

namespace Machine

/-- Neither the stream nor the timing lies in what a reset replaces. -/
theorem stream_replaced {δ : Type u} {κ : Type v} (machine : Machine δ κ) (state : State)
    (screen : δ) (keys : κ) :
    let replaced : Machine δ κ :=
      { machine with state := state, screen := screen, keys := keys }
    replaced.random = machine.random ∧ replaced.timing = machine.timing :=
  ⟨rfl, rfl⟩

/-- A machine starts with the stream and the timing that it is given. -/
theorem stream_boot (timing : Timing) (random : RandomStream) :
    (StandardMachine.boot timing random).machine.random = random ∧
      (StandardMachine.boot timing random).machine.timing = timing :=
  stream_replaced
    { state := State.initial
      screen := FrameBuffer.blank
      keys := KeyPad.released
      random := random
      timing := timing }
    State.initial _ _

section Execute

variable {δ : Type u} {κ : Type v} [Screen δ] [KeySource κ]

/-- `CXKK` puts the next byte of the stream into the register, masked. -/
theorem vx_execute_of_random (machine : Machine δ κ)
    (form : Form.nnn 0xC machine.state.wordNumber) :
    machine.execute.machine.state.vx machine.state.wordNumber =
      machine.random.next &&& UInt8.ofNat (machine.state.wordNumber % 0x100) := by
  have decoded : machine.operation =
      .random (Word.x machine.state.word) (Word.kk machine.state.word) := by
    rw [← State.toNat_word] at form
    exact Operation.decode_of_encodes ⟨form, rfl, Word.toNat_kk _⟩
  have encoded := machine.encodes_operation
  rw [decoded] at encoded
  obtain ⟨-, place, low⟩ := encoded
  rw [← State.get_eq_vx _ place, state_execute, decoded, ← low, UInt8.ofNat_toNat]
  exact (State.get_setRegister _ _ _ _).trans (if_pos rfl)

end Execute

variable {δ : Type u} {κ : Type v} [Screen δ] [KeyPanel κ]

/-- What a host does beside stepping moves neither the stream nor the timing. -/
theorem stream_perform (machine : Machine δ κ) {command : Command} (notStep : command ≠ .step)
    (notFrame : command ≠ .runFrame) :
    (machine.perform command).machine.random = machine.random ∧
      (machine.perform command).machine.timing = machine.timing := by
  by_cases continuing : command.Continues
  · have rests := machine.rests_perform continuing notStep notFrame
    exact ⟨rests.random, rests.timing⟩
  · cases command with
    | reset => exact machine.stream_replaced State.initial (Screen.clear machine.screen) _
    | restore state => exact ⟨rfl, rfl⟩
    | _ => exact absurd trivial continuing

/-- How many instructions of a form a session has executed before a time. -/
def executedBefore (machine : Machine δ κ) (commands : List Command) (form : Nat → Prop)
    [DecidablePred form] (time : Nat) : Nat :=
  (List.range time).countP fun earlier => machine.ExecutesAt commands earlier form

section Moments

variable (machine : Machine δ κ) (commands : List Command)

/-- One moment more counts one execution more, if the word of that moment has the form. -/
theorem executedBefore_succ (form : Nat → Prop) [DecidablePred form] (time : Nat) :
    machine.executedBefore commands form (time + 1) =
      machine.executedBefore commands form time +
        if machine.ExecutesAt commands time form then 1 else 0 := by
  simp only [executedBefore, List.range_succ, List.countP_append, List.countP_singleton,
    decide_eq_true_eq]

/-- **Only an executed `CXKK` takes a byte**, and it takes one. -/
theorem random_moment_succ (time : Nat) :
    (machine.moment commands (time + 1)).random =
      if machine.ExecutesAt commands time (Form.nnn 0xC) then
        (machine.moment commands time).random.advance
      else (machine.moment commands time).random := by
  cases machine.passage commands time with
  | executes executed =>
    rw [executed.moment_succ, (machine.moment commands time).footprint_execute.random]
    by_cases form : Form.nnn 0xC (machine.moment commands time).state.wordNumber
    · rw [if_pos form, if_pos ⟨executed.1, executed.2.1, form⟩]
    · rw [if_neg form, if_neg fun drawn => form drawn.2.2]
  | stands unexecuted same =>
    rw [same, if_neg fun drawn => unexecuted (drawn.imp fun _ _ => trivial)]
  | hosted unexecuted _ notStep notFrame next =>
    rw [next, (stream_perform _ notStep notFrame).1,
      if_neg fun drawn => unexecuted (drawn.imp fun _ _ => trivial)]

/-- So the stream has moved by as many bytes as there were such instructions. -/
theorem random_moment (time : Nat) :
    (machine.moment commands time).random =
      machine.random.advanceBy (machine.executedBefore commands (Form.nnn 0xC) time) := by
  induction time with
  | zero => rfl
  | succ time continued =>
    rw [random_moment_succ, executedBefore_succ, continued]
    split <;> rfl

/-- No command changes the timing. -/
theorem timing_moment (time : Nat) :
    (machine.moment commands time).timing = machine.timing := by
  induction time with
  | zero => rfl
  | succ time continued =>
    rw [← continued]
    cases machine.passage commands time with
    | executes executed =>
      rw [executed.moment_succ]
      exact (machine.moment commands time).footprint_execute.timing
    | stands _ same => rw [same]
    | hosted _ _ notStep notFrame next => rw [next, (stream_perform _ notStep notFrame).2]

end Moments

/-- Carrying out one session after another is carrying out both. -/
theorem performAll_append (machine : Machine δ κ) (first second : List Command) :
    machine.performAll (first ++ second) =
      let begun := machine.performAll first
      let ended := begun.machine.performAll second
      { machine := ended.machine
        reply := begun.reply ++ ended.reply
        journal := begun.journal ++ ended.journal } := by
  rw [performAll, List.foldl_append, foldl_extend]
  rfl

/-- A reset leaves the machine that one would switch on with the same stream and timing. -/
theorem perform_reset (machine : StandardMachine) :
    machine.perform .reset =
      { machine := (StandardMachine.boot machine.timing machine.random).machine
        reply := .done
        journal := #[.reset] } := by
  dsimp only [perform, reset, StandardMachine.boot, boot]
  rfl

/-- So what follows a reset is a session of such a machine. -/
theorem performAll_reset (machine : StandardMachine) (before later : List Command) :
    machine.performAll (before ++ .reset :: later) =
      let first := machine.performAll before
      let rest :=
        (StandardMachine.boot first.machine.timing first.machine.random).machine.performAll later
      { machine := rest.machine
        reply := first.reply ++ (#[.done] ++ rest.reply)
        journal := first.journal ++ (#[.reset] ++ rest.journal) } := by
  simp only [performAll_append, performAll_cons, perform_reset]

/-- **What the random bytes are, and what a reset leaves.** In the life of a machine made from a
seed, each `CXKK` puts the low byte of the next word of the ChaCha output into its register,
masked, counting from the first of them, and nothing else moves the stream. After a reset the
machine goes on as one that was just switched on and whose stream had given as many bytes. -/
theorem random_bytes (seed : UInt64) (commands : List Command) :
    let machine := (StandardMachine.ofSeed seed).machine
    let drawn := machine.executedBefore commands (Form.nnn 0xC)
    let byte (k : Nat) : UInt8 :=
      (ChaCha.wordAt (ChaCha.block (RandomStream.keyOfSeed seed) (UInt64.ofNat (k / 16)))
        (k % 16)).toUInt8
    (∀ time,
      let here := machine.moment commands time
      let next := machine.moment commands (time + 1)
      let word := here.state.wordNumber
      here.random = (RandomStream.ofSeed seed).advanceBy (drawn time) ∧
      (machine.ExecutesAt commands time (Form.nnn 0xC) →
        next.state.vx word = byte (drawn time) &&& UInt8.ofNat (word % 0x100)) ∧
      (¬ machine.ExecutesAt commands time (Form.nnn 0xC) → next.random = here.random)) ∧
    ∀ later,
      let first := machine.performAll commands
      let stream :=
        (RandomStream.ofSeed seed).advanceBy (drawn (machine.stepwise commands).length)
      let rest := (StandardMachine.boot Timing.standard stream).machine.performAll later
      machine.performAll (commands ++ .reset :: later) =
        { machine := rest.machine
          reply := first.reply ++ (#[.done] ++ rest.reply)
          journal := first.journal ++ (#[.reset] ++ rest.journal) } := by
  intro machine drawn byte
  obtain ⟨seeded, timed⟩ : machine.random = RandomStream.ofSeed seed ∧
      machine.timing = Timing.standard := stream_boot _ _
  have position (time : Nat) : (machine.moment commands time).random =
      (RandomStream.ofSeed seed).advanceBy (drawn time) := by
    rw [← seeded]
    exact machine.random_moment commands time
  have next (count : Nat) : ((RandomStream.ofSeed seed).advanceBy count).next = byte count :=
    congrArg (RandomStream.byteAt (RandomStream.keyOfSeed seed)) (Nat.zero_add count)
  refine ⟨fun time => ⟨position time, ?_, ?_⟩, fun later => ?_⟩
  · intro executed
    have received := (machine.moment commands time).vx_execute_of_random executed.2.2
    rw [executed.moment_succ, ← next, ← position]
    exact received
  · intro unexecuted
    rw [random_moment_succ, if_neg unexecuted]
  · have random := position (machine.stepwise commands).length
    have timing := machine.timing_moment commands (machine.stepwise commands).length
    rw [moment_length] at random timing
    simp only [performAll_reset, random, timing, timed]

/-- A state about to draw two random bytes. -/
def rolling : State :=
  { State.initial with
    memory := Memory.blank.writeList Address.programStart [0xC5, 0xFF, 0xC6, 0x0F] }

/-- The second byte of the seed 42 is 99, of which the program keeps the low half. After a reset
the third is the next. -/
theorem random_bytes_rolling :
    let machine := (StandardMachine.ofSeed 42).machine
    let session : List Command := [.restore rolling, .step, .step]
    let third := (RandomStream.ofSeed 42).advanceBy 2
    machine.ExecutesAt session 2 (Form.nnn 0xC) ∧
      (machine.moment session 3).state.vx 0xC60F = 3 ∧
      (machine.performAll (session ++ .reset :: [.restore rolling, .step])).machine =
        ((StandardMachine.boot Timing.standard third).machine.performAll
          [.restore rolling, .step]).machine := by
  intro machine session third
  obtain ⟨bytes, resets⟩ := random_bytes 42 session
  obtain ⟨-, received, -⟩ := bytes 2
  have executed : machine.ExecutesAt session 2 (Form.nnn 0xC) := by decide +kernel
  have word : (machine.moment session 2).state.wordNumber = 0xC60F := by decide +kernel
  have drawn : machine.executedBefore session (Form.nnn 0xC) 2 = 1 := by decide +kernel
  have all : machine.executedBefore session (Form.nnn 0xC) (machine.stepwise session).length = 2 :=
    by decide +kernel
  have value := received executed
  rw [word, drawn] at value
  have later := congrArg Outcome.machine (resets [.restore rolling, .step])
  rw [all] at later
  refine ⟨executed, value.trans ?_, later⟩
  decide +kernel

end Machine

end SuperChip
