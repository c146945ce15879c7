import SuperChip.Machine.Step

/-!
# Sessions

Everything that a host can ask of a machine with a panel of keys, as data, so
that a whole session is a list of commands.
-/

namespace SuperChip

universe u v

/-- What a host can ask of a machine. -/
inductive Command where
  | step
  | runFrame
  | tick
  | reset
  | load (image : Array UInt8)
  | loadFrom (source : List Reading)
  | press (key : UInt8)
  | release (key : UInt8)
  | releaseAll
  | setRunning (running : Bool)
  | toggleRunning
  | frameShown
  | restore (state : State)

/-- What a command replies. -/
inductive Reply where
  | done
  | status (status : Status)
  | loading (result : Except RomError Unit)
  | running (running : Bool)

namespace Machine

variable {δ : Type u} {κ : Type v} [Screen δ] [KeyPanel κ]

/-- Carry out a command. -/
def perform (machine : Machine δ κ) : Command → Outcome δ κ Reply
  | .step =>
      let outcome := machine.step
      { outcome with reply := .status outcome.reply }
  | .runFrame =>
      let outcome := machine.runFrame
      { outcome with reply := .status outcome.reply }
  | .tick => machine.tick.answer .done
  | .reset => { machine.reset with reply := .done }
  | .load image =>
      let outcome := machine.load image
      { outcome with reply := .loading outcome.reply }
  | .loadFrom source =>
      let outcome := machine.loadFrom source
      { outcome with reply := .loading outcome.reply }
  | .press key => { machine with keys := KeyPanel.press machine.keys key }.answer .done
  | .release key => { machine with keys := KeyPanel.release machine.keys key }.answer .done
  | .releaseAll => { machine with keys := KeySource.releaseAll machine.keys }.answer .done
  | .setRunning running => (machine.setRunning running).answer .done
  | .toggleRunning =>
      let running := !machine.state.running
      (machine.setRunning running).answer (.running running)
  | .frameShown => machine.frameShown.answer .done
  | .restore state => (machine.restore state).answer .done

/-- A session with one more command at its end. -/
def extend (session : Outcome δ κ (Array Reply)) (command : Command) :
    Outcome δ κ (Array Reply) :=
  let last := session.machine.perform command
  { machine := last.machine
    reply := session.reply.push last.reply
    journal := session.journal ++ last.journal }

/-- Carry out commands one after the other, collecting their replies and events. -/
def performAll (machine : Machine δ κ) (commands : List Command) :
    Outcome δ κ (Array Reply) :=
  commands.foldl extend (machine.answer #[])

@[simp] theorem performAll_nil (machine : Machine δ κ) :
    machine.performAll [] = machine.answer #[] := rfl

/-- The last command of a session acts on what the earlier ones left. -/
theorem performAll_concat (machine : Machine δ κ) (commands : List Command)
    (command : Command) :
    machine.performAll (commands ++ [command]) =
      extend (machine.performAll commands) command := by
  simp only [performAll, List.foldl_append, List.foldl_cons, List.foldl_nil]

/-- What has been done before a session only stands in front of its replies and its events. -/
theorem foldl_extend (before : Outcome δ κ (Array Reply)) (commands : List Command) :
    commands.foldl extend before =
      { machine := (before.machine.performAll commands).machine
        reply := before.reply ++ (before.machine.performAll commands).reply
        journal := before.journal ++ (before.machine.performAll commands).journal } := by
  induction commands generalizing before with
  | nil =>
    simp only [List.foldl_nil, performAll_nil, answer, Array.append_empty]
  | cons command rest continued =>
    rw [performAll, List.foldl_cons, List.foldl_cons, continued, continued (extend _ command)]
    simp only [extend, answer, Array.append_assoc, Array.empty_append, Array.push_eq_append]

/-- The rest of a session acts on what its first command leaves. -/
theorem performAll_cons (machine : Machine δ κ) (command : Command) (rest : List Command) :
    machine.performAll (command :: rest) =
      let first := machine.perform command
      let later := first.machine.performAll rest
      { machine := later.machine
        reply := #[first.reply] ++ later.reply
        journal := first.journal ++ later.journal } := by
  rw [performAll, List.foldl_cons, foldl_extend]
  simp only [extend, answer, Array.empty_append, Array.push_eq_append]

end Machine

end SuperChip
