import SuperChip.Proofs.KeyWait
import SuperChip.Proofs.Replay

/-!
# The sixteen keys

Whatever a source of keys answers for a number above fifteen, no machine hears it: the skips ask
for a key only after comparing its number with sixteen, and the wait asks for the sixteen keys and
no other. So two sources that answer alike for these may be exchanged. A pad that takes numbers
modulo sixteen makes no difference either, since it is never asked about the others.

The main statement is `Machine.sixteen_keys`. It needs the answers to be alike at the moments of
the session only, whatever becomes of the sources otherwise.
-/

namespace SuperChip

universe u v w

/-- The pad takes key numbers modulo their number. -/
theorem KeyPad.pressed_mod (pad : Keypad) (key : UInt8) :
    KeySource.pressed pad key = KeySource.pressed pad (key % 16) := by
  change pad.pressed key = pad.pressed (key % 16)
  simp only [pressed, UInt8.toNat_mod, UInt8.reduceToNat, Nat.mod_mod]

namespace Machine

section Instructions

variable {δ : Type u} {κ : Type v} [KeySource κ] {machine : Machine δ κ}

/-- A key past the sixteenth counts as not held, whatever the host answers. -/
theorem not_holdsKey_of_le {key : UInt8} (past : 16 ≤ key.toNat) : ¬ machine.HoldsKey key :=
  fun holds => absurd holds.1 (Nat.not_lt.mpr past)

variable [Screen δ]

/-- A skip on a held key goes on with the next instruction if there is no such key. -/
theorem pc_step_of_pressed (active : machine.Active)
    (form : Form.x 0xE 0x9E machine.state.wordNumber)
    (past : 16 ≤ (machine.state.vx machine.state.wordNumber).toNat) :
    machine.step.machine.state.pc.toNat = (machine.state.pc.toNat + 2) % 0x1000 := by
  have conditional : Form.Conditional machine.state.wordNumber :=
    .inr (.inr (.inr (.inr (.inl form))))
  have stays : ¬ machine.SkipHolds machine.state.wordNumber := by
    rw [skipHolds_pressed machine form]
    exact not_holdsKey_of_le past
  rw [step_of_active active, toNat_pc_execute, successor_of_conditional machine conditional,
    if_neg stays]

/-- A skip on a key that is not held then skips. -/
theorem pc_step_of_notPressed (active : machine.Active)
    (form : Form.x 0xE 0xA1 machine.state.wordNumber)
    (past : 16 ≤ (machine.state.vx machine.state.wordNumber).toNat) :
    machine.step.machine.state.pc.toNat = (machine.state.pc.toNat + 4) % 0x1000 := by
  have conditional : Form.Conditional machine.state.wordNumber :=
    .inr (.inr (.inr (.inr (.inr form))))
  have skips : machine.SkipHolds machine.state.wordNumber := by
    rw [skipHolds_notPressed machine form]
    exact not_holdsKey_of_le past
  rw [step_of_active active, toNat_pc_execute, successor_of_conditional machine conditional,
    if_pos skips]

/-- A wait for a key stores one of the sixteen keys or nothing. -/
theorem registers_step_of_wait (active : machine.Active)
    (form : Form.x 0xF 0x0A machine.state.wordNumber) :
    machine.step.machine.state.registers = machine.state.registers ∨
      ∃ key : UInt8, key.toNat ≤ 15 ∧
        machine.step.machine.state.registers =
          Table.put machine.state.registers
            (Fin.ofNat 16 (machine.state.wordNumber / 0x100)) key := by
  rw [step_of_active active, machine_execute_of_wait form, State.waitKey]
  cases machine.senses.lowestHeld? with
  | none => exact .inl rfl
  | some key =>
    refine .inr ⟨UInt8.ofNat key.val, ?_, rfl⟩
    have below := key.isLt
    rw [UInt8.toNat_ofNat']
    omega

end Instructions

variable {δ : Type u} {κ : Type v} {π : Type w}

/-- Two machines differ at most in their keys. -/
structure EqualButKeys (first : Machine δ κ) (second : Machine δ π) : Prop where
  state : first.state = second.state
  screen : first.screen = second.screen
  random : first.random = second.random
  timing : first.timing = second.timing

/-- Two machines differ at most in their keys, and hear the same of them. -/
structure HearAlike [KeySource κ] [KeySource π] (first : Machine δ κ) (second : Machine δ π) :
    Prop where
  equal : first.EqualButKeys second
  keys : AnswerAlike first.keys second.keys

/-- The same may be done to the state and the screen, and anything to the keys. -/
theorem EqualButKeys.update {first : Machine δ κ} {second : Machine δ π}
    (equal : first.EqualButKeys second) (state : State → State) (screen : δ → δ) (keys : κ)
    (otherKeys : π) :
    EqualButKeys
      { first with state := state first.state, screen := screen first.screen, keys := keys }
      { second with
        state := state second.state
        screen := screen second.screen
        keys := otherKeys } where
  state := congrArg state equal.state
  screen := congrArg screen equal.screen
  random := equal.random
  timing := equal.timing

section Single

variable [KeySource κ] [KeySource π] {first : Machine δ κ} {second : Machine δ π}

/-- Loading an image leaves two machines hearing the same keys. -/
theorem HearAlike.load (alike : HearAlike first second) (image : Array UInt8) :
    Matches HearAlike (first.load image) (second.load image) := by
  unfold Machine.load
  rw [← alike.equal.state]
  cases first.state.load image with
  | ok state => exact ⟨⟨alike.equal.update (fun _ => state) id _ _, alike.keys⟩, rfl, rfl⟩
  | error error => exact .answer alike _

variable [Screen δ]

/-- **An instruction hears no more than the sixteen keys.** -/
theorem HearAlike.execute (alike : HearAlike first second) :
    Matches HearAlike first.execute second.execute := by
  obtain ⟨⟨state, screen, random, timing⟩, keys⟩ := alike
  have held : first.held = second.held := funext keys
  have operation : first.operation = second.operation :=
    congrArg (fun state : State => Operation.decode state.word) state
  have senses : first.senses = second.senses := by
    rw [Machine.senses, Machine.senses, held, random, operation, state, screen]
  refine ⟨⟨⟨?_, ?_, ?_, timing⟩, keys⟩, ?_, ?_⟩
  · rw [state_execute, state_execute, operation, senses, state]
  · rw [screen_execute, screen_execute, operation, state, screen]
  · rw [random_execute, random_execute, operation, random]
  · rw [reply_execute, reply_execute, operation, senses]
  · rw [journal_execute, journal_execute, operation, state]

/-- Machines that hear the same sixteen keys are in lockstep. -/
theorem lockstep_hearAlike : Lockstep (HearAlike (δ := δ) (κ := κ) (π := π)) where
  step alike := matchesUpTo_id_iff.mp <|
    matchesUpTo_step alike (congrArg State.exitCode alike.equal.state)
      (congrArg State.running alike.equal.state) fun _ => matchesUpTo_id_iff.mpr alike.execute
  tick alike := ⟨alike.equal.update State.tick id _ _, alike.keys⟩
  cycles alike := by
    rw [cyclesPerFrame, cyclesPerFrame, alike.equal.timing, alike.equal.state]

end Single

variable [Screen δ] [KeyPanel κ] [KeyPanel π] {first : Machine δ κ} {second : Machine δ π}

/-- Whatever a host does next, both machines do the same. Their keys may then answer differently,
since a source of keys is free in what it makes of a press. -/
theorem HearAlike.perform (alike : HearAlike first second) (command : Command) :
    Matches EqualButKeys (first.perform command) (second.perform command) := by
  have equal := alike.equal
  by_cases atOnce : command.ActsAtOnce
  · cases command with
    | reset => exact ⟨equal.update (fun _ => State.initial) Screen.clear _ _, rfl, rfl⟩
    | press key | release key | releaseAll => exact .answer (equal.update id id _ _) _
    | setRunning running =>
      exact .answer (equal.update (fun state => { state with running := running }) id _ _) _
    | toggleRunning =>
      have same := congrArg (fun state : State => Reply.running !state.running) equal.state
      exact ⟨equal.update (fun state => { state with running := !state.running }) id _ _,
        same, rfl⟩
    | frameShown =>
      exact .answer (equal.update (fun state => { state with redraw := false }) id _ _) _
    | restore state => exact .answer (equal.update (fun _ => state) id _ _) _
    | _ => exact atOnce.elim
  · have done := lockstep_hearAlike.perform alike alike.load fun acts => absurd acts atOnce
    exact ⟨done.machine.equal, done.reply, done.journal⟩

/-- Machines that are equal but for their keys stay so through a session, as long as the sixteen
keys are answered alike before each command. -/
theorem EqualButKeys.performAll (equal : first.EqualButKeys second) (commands : List Command)
    (alike : ∀ count < commands.length,
      AnswerAlike (first.after (commands.take count)).keys
        (second.after (commands.take count)).keys) :
    Matches EqualButKeys (first.performAll commands) (second.performAll commands) := by
  induction commands generalizing first second with
  | nil => exact .answer equal #[]
  | cons command rest continued =>
    have here : HearAlike first second := ⟨equal, alike 0 (Nat.zero_lt_succ _)⟩
    have performed := here.perform command
    have finished := continued performed.machine fun count below =>
      alike (count + 1) (Nat.succ_lt_succ below)
    rw [performAll_cons, performAll_cons]
    refine ⟨finished.machine, ?_, ?_⟩
    · simp only [performed.reply, finished.reply]
    · simp only [performed.journal, finished.journal]

/-- **Only sixteen keys are heard.** Two machines that differ in their keys alone, whose keys
answer alike for the sixteen at every moment of a session, reply the same, note the same events and
go on differing in their keys alone. In particular a register above fifteen never means a held key:
`EX9E` does not skip on it, `EXA1` does, even on a pad that takes numbers modulo sixteen; and
`FX0A` stores no value above fifteen. -/
theorem sixteen_keys (equal : first.EqualButKeys second) (commands : List Command)
    (alike : ∀ count < commands.length,
      AnswerAlike (first.performAll (commands.take count)).machine.keys
        (second.performAll (commands.take count)).machine.keys) :
    (∀ count,
      let here := first.performAll (commands.take count)
      let there := second.performAll (commands.take count)
      here.reply = there.reply ∧ here.journal = there.journal ∧
        here.machine.EqualButKeys there.machine) ∧
    (∀ machine : Machine δ κ, machine.Active →
      let word := machine.state.wordNumber
      let pc := machine.state.pc.toNat
      let next := machine.step.machine.state
      (16 ≤ (machine.state.vx word).toNat →
        (Form.x 0xE 0x9E word → next.pc.toNat = (pc + 2) % 0x1000) ∧
        (Form.x 0xE 0xA1 word → next.pc.toNat = (pc + 4) % 0x1000)) ∧
      (Form.x 0xF 0x0A word →
        next.registers = machine.state.registers ∨
        ∃ key : UInt8, key.toNat ≤ 15 ∧
          next.registers =
            Table.put machine.state.registers (Fin.ofNat 16 (word / 0x100)) key)) ∧
    ∀ (pad : Keypad) (key : UInt8),
      KeySource.pressed pad key = KeySource.pressed pad (key % 16) := by
  refine ⟨fun count => ?_, fun machine active => ?_, KeyPad.pressed_mod⟩
  · have matched := equal.performAll (commands.take count) fun earlier below => by
      have shorter : earlier ≤ count := by
        rw [List.length_take] at below
        omega
      have inside : earlier < commands.length := by
        rw [List.length_take] at below
        omega
      rw [List.take_take, Nat.min_eq_left shorter, ← machine_performAll, ← machine_performAll]
      exact alike earlier inside
    exact ⟨matched.reply, matched.journal, matched.machine⟩
  · intro word pc next
    refine ⟨fun past => ⟨fun form => pc_step_of_pressed active form past,
      fun form => pc_step_of_notPressed active form past⟩, fun form => ?_⟩
    exact registers_step_of_wait active form

/-- A machine that skips on key two hundred, which its pad takes for the eighth, and then waits for
a key. -/
def mistaking : Machine Uniform Keypad where
  state :=
    { State.initial with
      memory := Memory.blank.writeList Address.programStart [0xE0, 0x9E, 0xF1, 0x0A]
      registers := Vector.replicate 16 200 }
  screen := ⟨false⟩
  keys := KeyPad.released.set 8 true
  random := { key := Vector.replicate 8 0 }
  timing := Timing.standard

/-- The same machine with a wide pad, on which key forty is held beside the eighth. -/
def distinguishing : Machine Uniform WidePad where
  state := mistaking.state
  screen := ⟨false⟩
  keys := (KeyPad.released.set 8 true).set 40 true
  random := { key := Vector.replicate 8 0 }
  timing := Timing.standard

/-- The pads answer differently for key two hundred. Neither machine skips, and once the third key
is pressed both store it. -/
theorem sixteen_keys_mistaking :
    let session : List Command := [.step, .press 3, .step]
    let last := distinguishing.performAll session
    mistaking.EqualButKeys distinguishing ∧
      KeySource.pressed mistaking.keys 200 = true ∧
      KeySource.pressed distinguishing.keys 200 = false ∧
      mistaking.step.machine.state.pc.toNat = 0x202 ∧
      last.machine.state = (mistaking.performAll session).machine.state ∧
      last.machine.state.registers.get 1 = 3 := by
  intro session last
  have equal : mistaking.EqualButKeys distinguishing := ⟨rfl, rfl, rfl, rfl⟩
  have alike : ∀ count < session.length,
      AnswerAlike (mistaking.performAll (session.take count)).machine.keys
        (distinguishing.performAll (session.take count)).machine.keys := by
    decide +kernel
  obtain ⟨heard, instructions, -⟩ := sixteen_keys equal session alike
  obtain ⟨-, -, same⟩ := heard 3
  obtain ⟨skips, -⟩ := instructions mistaking ⟨rfl, rfl⟩
  have stays := (skips (by decide +kernel)).1 (by decide +kernel)
  have states : last.machine.state = (mistaking.performAll session).machine.state :=
    same.state.symm
  refine ⟨equal, by decide +kernel, by decide +kernel, stays.trans (by decide), states, ?_⟩
  rw [states]
  decide +kernel

end Machine

end SuperChip
