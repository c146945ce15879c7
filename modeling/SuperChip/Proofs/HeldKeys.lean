import SuperChip.Proofs.Bounds
import SuperChip.Proofs.Histories
import SuperChip.Proofs.Moments

/-!
# Held keys

A key is held from its last press until it is released, alone or with all others. Nothing else that
a host does to a machine touches the keys, be it a frame of instructions, a restored state or a
loaded image; and looking at a machine, as when its state is saved, is no command at all. A key of
the machine's pad goes by the low four bits of its number.

The main statement is `Machine.keys_follow_moves`, for every session from power on. It follows from
what one command does to the answer for a key, `Machine.pressed_perform`.
-/

namespace SuperChip

universe u v

namespace Command

/-- Whether a command releases all keys. -/
def releasesAll : Command → Bool
  | reset | releaseAll => true
  | _ => false

/-- Press a key, or release it. -/
def move (key : UInt8) : Bool → Command
  | true => press key
  | false => release key

/-- Whether a command presses a key or releases it, if it does one of them. The keys of the pad go
by the low four bits of their numbers. -/
def puts? (key : UInt8) : Command → Option Bool
  | press moved => if moved.toNat % 16 = key.toNat % 16 then some true else none
  | release moved => if moved.toNat % 16 = key.toNat % 16 then some false else none
  | _ => none

/-- The commands that have nothing to do with keys. -/
def SparesKeys : Command → Prop
  | step | runFrame | tick | load _ | loadFrom _ | restore _ => True
  | setRunning _ | toggleRunning | frameShown => True
  | press _ | release _ | releaseAll | reset => False

end Command

namespace Machine

section Spared

variable {δ : Type u} {κ : Type v}

variable [Screen δ]

/-- No step moves a key. -/
theorem keys_step [KeySource κ] (machine : Machine δ κ) :
    machine.step.machine.keys = machine.keys := by
  by_cases active : machine.Active
  · rw [step_of_active active]
    rfl
  · obtain ⟨status, still⟩ := step_of_not_active active
    rw [still]
    rfl

variable [KeyPanel κ]

/-- Steps and ticks leave the keys alone, however many there are. -/
theorem keys_after (machine : Machine δ κ) {commands : List Command}
    (timed : ∀ command ∈ commands, command = .step ∨ command = .tick) :
    (machine.after commands).keys = machine.keys := by
  induction commands generalizing machine with
  | nil => rfl
  | cons command rest continued =>
    rw [after_cons, continued _ fun later member => timed later (List.mem_cons_of_mem _ member)]
    rcases timed command List.mem_cons_self with rfl | rfl
    · exact machine.keys_step
    · rfl

/-- **Running, loading and restoring leave the keys alone.** -/
theorem keys_perform (machine : Machine δ κ) {command : Command} (spared : command.SparesKeys) :
    (machine.perform command).machine.keys = machine.keys := by
  cases command with
  | step => exact machine.keys_step
  | runFrame =>
    rw [← after_parts]
    exact machine.keys_after fun command part => mem_frameParts part
  | load image =>
    obtain ⟨memory, loaded⟩ := machine.exists_withMemory_load image
    exact congrArg (fun after => after.keys) loaded
  | loadFrom source =>
    obtain ⟨memory, loaded⟩ := machine.exists_withMemory_loadFrom source
    exact congrArg (fun after => after.keys) loaded
  | tick | restore state | setRunning running | toggleRunning | frameShown => rfl
  | press key | release key | releaseAll | reset => exact spared.elim

end Spared

variable {δ : Type u} [Screen δ]

/-- **What a command makes of a key.** -/
theorem pressed_perform (machine : Machine δ Keypad) (command : Command) (key : UInt8) :
    KeySource.pressed (machine.perform command).machine.keys key =
      if command.releasesAll then false
      else (command.puts? key).getD (KeySource.pressed machine.keys key) := by
  cases command with
  | reset | releaseAll => exact KeyPad.pressed_released key
  | press moved | release moved =>
    refine (KeyPad.pressed_set (by decide) machine.keys moved _ key).trans ?_
    simp only [Command.releasesAll, Command.puts?, Bool.false_eq_true, ↓reduceIte]
    split <;> rfl
  | _ => exact congrArg (KeySource.pressed · key) (machine.keys_perform trivial)

/-- A press or a release sets one key and does nothing else. -/
theorem perform_move (machine : Machine δ Keypad) (key : UInt8) (down : Bool) :
    machine.perform (.move key down) =
      { machine with keys := machine.keys.set key down }.answer .done := by
  cases down <;> rfl

/-- Moves of different keys change places. -/
theorem performAll_moves_comm (machine : Machine δ Keypad) {first second : UInt8}
    (down other : Bool) (different : first.toNat % 16 ≠ second.toNat % 16) :
    machine.performAll [.move first down, .move second other] =
      machine.performAll [.move second other, .move first down] := by
  simp only [performAll, List.foldl_cons, List.foldl_nil, extend, perform_move, answer,
    machine.keys.set_comm down other different]

/-- **A key follows its last move.** In every session from power on a key of the pad, asked for by
any number, is held exactly if, since the keys were last all released, one with the same low four
bits was pressed or released, and pressed last; power on and every reset release them all. Steps,
frames, ticks, loaded images and restored states leave the whole pad as it is, and presses and
releases of keys with different low bits may change places. -/
theorem keys_follow_moves (screen : δ) (keys : Keypad) (timing : Timing) (random : RandomStream)
    (commands : List Command) :
    (∀ key : UInt8,
      let machine := (boot screen keys timing random).machine
      KeySource.pressed (machine.performAll commands).machine.keys key = true ↔
        (History.putSince Command.releasesAll (Command.puts? key) commands).getLast? =
          some true) ∧
    (∀ (machine : Machine δ Keypad) (command : Command), command.SparesKeys →
      (machine.perform command).machine.keys = machine.keys) ∧
    ∀ (machine : Machine δ Keypad) (first second : UInt8) (down other : Bool),
      first.toNat % 16 ≠ second.toNat % 16 →
      machine.performAll [.move first down, .move second other] =
        machine.performAll [.move second other, .move first down] := by
  refine ⟨?_, fun machine command => machine.keys_perform, fun machine first second down other =>
    machine.performAll_moves_comm down other⟩
  intro key machine
  let shown (commands : List Command) : Bool :=
    KeySource.pressed (machine.performAll commands).machine.keys key
  have first : shown [] = false := KeyPad.pressed_released key
  have next (commands : List Command) (command : Command) : shown (commands ++ [command]) =
      if command.releasesAll then false else (command.puts? key).getD (shown commands) := by
    dsimp only [shown]
    rw [performAll_concat]
    exact pressed_perform _ command key
  exact History.on_iff_getLast?_putSince first next commands

/-- The pad comes with key five held, and is told of keys by numbers beyond fifteen. -/
theorem keys_follow_moves_fingering :
    let keys : Keypad := KeyPad.released.set 5 true
    let machine := (boot (⟨false⟩ : Uniform) keys Timing.standard
      { key := Vector.replicate 8 0 }).machine
    let session : List Command :=
      [.press 0x0B, .releaseAll, .press 0x3A, .load #[0xF0, 0x0A], .runFrame, .press 0x14,
        .release 0xC4, .restore State.initial]
    let last := (machine.performAll session).machine
    KeySource.pressed last.keys 0xFA = true ∧ KeySource.pressed last.keys 0x0B ≠ true ∧
      KeySource.pressed last.keys 0x04 ≠ true ∧ KeySource.pressed last.keys 0x05 ≠ true ∧
      Command.runFrame.SparesKeys ∧ (last.perform .runFrame).machine.keys = last.keys ∧
      (0x1A : UInt8).toNat % 16 ≠ (0x2B : UInt8).toNat % 16 ∧
      last.performAll [.release 0x1A, .press 0x2B] =
        last.performAll [.press 0x2B, .release 0x1A] := by
  intro keys machine session last
  obtain ⟨held, spared, moved⟩ := keys_follow_moves (⟨false⟩ : Uniform) keys Timing.standard
    { key := Vector.replicate 8 0 } session
  have different : (0x1A : UInt8).toNat % 16 ≠ (0x2B : UInt8).toNat % 16 := by decide
  have up (key : UInt8)
      (unpressed : (History.putSince Command.releasesAll (Command.puts? key) session).getLast? ≠
        some true) : KeySource.pressed last.keys key ≠ true :=
    fun pressed => unpressed ((held key).mp pressed)
  refine ⟨(held 0xFA).mpr rfl, up 0x0B ?_, up 0x04 ?_, up 0x05 ?_, trivial,
    spared last .runFrame trivial, different, moved last 0x1A 0x2B false true different⟩
  · exact nofun
  · exact nofun
  · exact nofun

end Machine

end SuperChip
