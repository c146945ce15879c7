import Mathlib.Data.List.Chain
import SuperChip.Proofs.Exits
import SuperChip.Proofs.RandomBytes
import SuperChip.Proofs.Subroutines

/-!
# Journals

A step that executes an instruction notes a trace of it, and after the trace at most one remark,
which depends on the word, the mode and the depth of the call stack. A reset and a loaded image are
noted too, and nothing else that a host does. So the journal of a session counts its instructions,
and as a switch is noted exactly when it changes the mode, the switches noted alternate.

`Machine.Remarks` is the table of the remarks, and `Machine.session_journal` says what the journal
of every session is made of.
-/

namespace SuperChip

universe u v

namespace Resolution

variable {mode : Resolution}

/-- A resolution that is not the high one is the low one, and the other way round. -/
theorem eq_low_of_ne (other : mode ≠ high) : mode = low := by
  cases mode with
  | low => rfl
  | high => exact absurd rfl other

theorem eq_high_of_ne (other : mode ≠ low) : mode = high := by
  cases mode with
  | low => exact absurd rfl other
  | high => rfl

end Resolution

namespace Event

/-- The mode that an event says was switched to. -/
def mode? : Event → Option Resolution
  | resolutionChanged mode => some mode
  | _ => none

end Event

namespace Operation

/-- Only a switch changes the mode. -/
theorem not_owns_resolution {operation : Operation} {state : State} {senses : Senses}
    (other : ∀ mode, operation ≠ setResolution mode) :
    ¬ operation.Owns state senses .resolution := by
  intro owned
  cases operation with
  | setResolution mode => exact other mode rfl
  | waitKey x => exact (eq_of_owns_waitKey owned).elim Component.noConfusion Component.noConfusion
  | _ => simp [Owns] at owned

/-- A switch is noted when it changes the mode, with the mode that it changes it to. -/
theorem mode_of_event? (operation : Operation) (state : State) (senses : Senses) :
    let noted := (operation.event? state).bind Event.mode?
    (state.execute operation senses).resolution = noted.getD state.resolution ∧
      ∀ mode, noted = some mode → state.resolution ≠ mode := by
  by_cases switch : ∃ mode, operation = setResolution mode
  · obtain ⟨mode, rfl⟩ := switch
    by_cases same : state.resolution = mode
    · have unnoted : (setResolution mode).event? state = none := if_pos same
      rw [unnoted]
      exact ⟨same.symm, fun mode noted => absurd noted.symm (Option.some_ne_none mode)⟩
    · have noted : (setResolution mode).event? state = some (.resolutionChanged mode) := if_neg same
      rw [noted]
      refine ⟨rfl, fun other switched => ?_⟩
      obtain rfl : mode = other := Option.some.inj switched
      exact same
  · have other (mode : Resolution) : operation ≠ setResolution mode :=
      fun same => switch ⟨mode, same⟩
    have silent : (operation.event? state).bind Event.mode? = none := by
      cases operation with
      | setResolution mode => exact absurd rfl (other mode)
      | scroll toward | call address =>
        dsimp only [event?]
        split <;> rfl
      | ret =>
        dsimp only [event?]
        split <;> rfl
      | _ => rfl
    rw [silent]
    exact ⟨State.agrees_execute _ _ _ (not_owns_resolution other),
      fun mode noted => absurd noted.symm (Option.some_ne_none mode)⟩

end Operation

namespace Machine

section Remarks

variable {δ : Type u} {κ : Type v} (machine : Machine δ κ)

/-- What is noted of an instruction before it runs. -/
def trace : Event :=
  .executing machine.state.pc machine.state.word machine.state.registers machine.state.index

/-- A machine executes what the word at its program counter decodes to. -/
theorem operation_of_wordNumber (word : Word) (here : machine.state.wordNumber = word.toNat) :
    machine.operation = Operation.decode word := by
  rw [← State.toNat_word] at here
  rw [operation, UInt16.toNat_inj.mp here]

/-- What else is noted of the instruction at the program counter, and at which level. -/
def Remarks (level : Level) (event : Event) : Prop :=
  let word := machine.state.wordNumber
  let mode := machine.state.resolution
  let place := machine.state.advance.pc - 2
  match event with
  | .exited code => level = .info ∧ Form.Exits code word
  | .resolutionChanged .low => level = .info ∧ word = 0x00FE ∧ mode = .high
  | .resolutionChanged .high => level = .info ∧ word = 0x00FF ∧ mode = .low
  | .scrollIgnored .right => level = .debug ∧ word = 0x00FB ∧ mode = .low
  | .scrollIgnored .left => level = .debug ∧ word = 0x00FC ∧ mode = .low
  | .unmapped unbound there =>
      level = .debug ∧ Form.Unbound word ∧ unbound.toNat = word ∧ there = place
  | .emptyReturn there =>
      level = .warn ∧ word = 0x00EE ∧ machine.state.callStack.depth = 0 ∧ there = place
  | .callRefused target there =>
      level = .warn ∧ Form.nnn 0x2 word ∧ machine.state.callStack.depth = 16 ∧
        target.toNat = word % 0x1000 ∧ there = place
  | .scrollIgnored (.down _) | .executing .. | .reset | .loaded _ => False

variable {machine} {event : Event}

/-- Whatever an operation notes stands in the table. -/
theorem remarks_of_event? (noted : machine.operation.event? machine.state.advance = some event) :
    machine.Remarks event.level event := by
  have encoded := machine.encodes_operation
  cases operation : machine.operation with
  | exit code =>
    rw [operation] at encoded noted
    obtain rfl := Option.some.inj noted
    exact ⟨rfl, .inl encoded⟩
  | halt =>
    rw [operation] at encoded noted
    obtain rfl := Option.some.inj noted
    exact ⟨rfl, .inr ⟨encoded, rfl⟩⟩
  | setResolution mode =>
    rw [operation] at encoded noted
    obtain ⟨changes, same⟩ := Option.ite_none_left_eq_some.mp noted
    obtain rfl := Option.some.inj same
    cases mode with
    | low => exact ⟨rfl, encoded, Resolution.eq_high_of_ne changes⟩
    | high => exact ⟨rfl, encoded, Resolution.eq_low_of_ne changes⟩
  | scroll toward =>
    rw [operation] at encoded noted
    obtain ⟨fails, same⟩ := Option.ite_none_left_eq_some.mp noted
    obtain rfl := Option.some.inj same
    cases toward with
    | down rows => exact absurd rfl fails
    | right | left =>
      exact ⟨rfl, encoded, Resolution.eq_low_of_ne fun high => fails (beq_iff_eq.mpr high)⟩
  | call address =>
    rw [operation] at encoded noted
    obtain ⟨full, same⟩ := Option.ite_none_left_eq_some.mp noted
    obtain rfl := Option.some.inj same
    rw [CallStack.isOk_push_iff] at full
    have depth := machine.state.callStack.depth_le
    exact ⟨rfl, encoded.1, Nat.le_antisymm depth (Nat.le_of_not_lt full), encoded.2, rfl⟩
  | ret =>
    rw [operation] at encoded noted
    obtain ⟨empty, same⟩ := Option.ite_none_left_eq_some.mp noted
    obtain rfl := Option.some.inj same
    exact ⟨rfl, encoded, (CallStack.pop?_eq_none_iff _).mp
      (Option.not_isSome_iff_eq_none.mp empty), rfl⟩
  | unknown word =>
    rw [operation] at encoded noted
    obtain rfl := Option.some.inj noted
    exact ⟨rfl, encoded.1, encoded.2, rfl⟩
  | _ =>
    rw [operation] at noted
    exact absurd noted.symm (Option.some_ne_none event)

/-- Whatever stands in the table is noted: there its word decides what the operation is. -/
theorem event?_of_remarks [Screen δ] [KeySource κ] {level : Level}
    (remarks : machine.Remarks level event) :
    machine.operation.event? machine.state.advance = some event ∧ event.level = level := by
  cases event with
  | exited code =>
    obtain ⟨rfl, exits⟩ := remarks
    have halted := machine.report_eq_halted_iff.mpr exits
    rw [← reply_execute_eq_report, reply_execute] at halted
    rcases Operation.exits_of_status halted with exit | ⟨halt, rfl⟩
    · rw [exit]
      exact ⟨rfl, rfl⟩
    · rw [halt]
      exact ⟨rfl, rfl⟩
  | resolutionChanged mode =>
    cases mode with
    | low =>
      obtain ⟨rfl, word, mode⟩ := remarks
      have changes : machine.state.advance.resolution ≠ .low :=
        fun low => Resolution.noConfusion (low.symm.trans mode)
      rw [machine.operation_of_wordNumber 0x00FE word]
      exact ⟨if_neg changes, rfl⟩
    | high =>
      obtain ⟨rfl, word, mode⟩ := remarks
      have changes : machine.state.advance.resolution ≠ .high :=
        fun high => Resolution.noConfusion (high.symm.trans mode)
      rw [machine.operation_of_wordNumber 0x00FF word]
      exact ⟨if_neg changes, rfl⟩
  | scrollIgnored toward =>
    cases toward with
    | down rows => exact remarks.elim
    | right =>
      obtain ⟨rfl, word, mode⟩ := remarks
      have fails : ¬ Scroll.right.worksIn machine.state.advance.resolution = true :=
        fun works => Resolution.noConfusion (mode.symm.trans (eq_of_beq works))
      rw [machine.operation_of_wordNumber 0x00FB word]
      exact ⟨if_neg fails, rfl⟩
    | left =>
      obtain ⟨rfl, word, mode⟩ := remarks
      have fails : ¬ Scroll.left.worksIn machine.state.advance.resolution = true :=
        fun works => Resolution.noConfusion (mode.symm.trans (eq_of_beq works))
      rw [machine.operation_of_wordNumber 0x00FC word]
      exact ⟨if_neg fails, rfl⟩
  | unmapped unbound there =>
    obtain ⟨rfl, form, word, rfl⟩ := remarks
    have reported := machine.report_of_unbound form
    rw [← reply_execute_eq_report, reply_execute, ← word, UInt16.ofNat_toNat] at reported
    rw [Operation.eq_unknown_of_status reported]
    exact ⟨rfl, rfl⟩
  | emptyReturn there =>
    obtain ⟨rfl, word, empty, rfl⟩ := remarks
    have nothing : machine.state.advance.callStack.pop? = none :=
      (CallStack.pop?_eq_none_iff _).mpr empty
    rw [machine.operation_of_wordNumber 0x00EE word]
    exact ⟨if_neg (Option.not_isSome_iff_eq_none.mpr nothing), rfl⟩
  | callRefused target there =>
    obtain ⟨rfl, form, full, address, rfl⟩ := remarks
    have refused : ¬ (machine.state.advance.callStack.push machine.state.advance.pc).isOk := by
      rw [CallStack.isOk_push_iff]
      exact Nat.not_lt.mpr (Nat.le_of_eq full.symm)
    have called : Word.nnn machine.state.word = target := by
      apply UInt16.toNat_inj.mp
      rw [Word.toNat_nnn, State.toNat_word, address]
    rw [← State.toNat_word] at form
    have decoded : machine.operation = .call (Word.nnn machine.state.word) :=
      Operation.decode_of_encodes ⟨form, Word.toNat_nnn _⟩
    rw [decoded, called]
    exact ⟨if_neg refused, rfl⟩
  | executing pc word registers index => exact remarks.elim
  | loaded size => exact remarks.elim
  | reset => exact remarks.elim

/-- No remark is a trace. -/
theorem not_remarks_trace : ¬ machine.Remarks .trace event := by
  intro remarks
  unfold Remarks at remarks
  split at remarks <;> simp at remarks

end Remarks

section Step

variable {δ : Type u} {κ : Type v} [Screen δ] [KeySource κ] (machine : Machine δ κ)

/-- A step that runs nothing says so, or finds an exit. -/
theorem stopped_or_exited_iff :
    machine.step.reply = .stopped ∨ machine.state.exitCode ≠ none ↔ ¬ machine.Active := by
  constructor
  · rintro (stopped | exited) active
    · rw [step_of_active active, reply_execute] at stopped
      exact Operation.status_ne_stopped _ _ stopped
    · exact exited active.1
  · intro idle
    by_cases unfinished : machine.state.exitCode = none
    · have paused : machine.state.running = false :=
        Bool.eq_false_iff.mpr fun running => idle ⟨unfinished, running⟩
      rw [step_of_paused unfinished paused]
      exact .inl rfl
    · exact .inr unfinished

/-- **What a step notes**: nothing, or its trace and what there is to remark. -/
theorem step_journal : ∃ remark : Option Event,
    machine.step.journal = (if machine.Active then #[machine.trace] ++ remark.toArray else #[]) ∧
    ∀ level event, remark = some event ∧ event.level = level ↔ machine.Remarks level event := by
  refine ⟨machine.operation.event? machine.state.advance, ?_, fun level event => ?_⟩
  · split
    · next active =>
      rw [step_of_active active, journal_execute]
      rfl
    · next idle =>
      obtain ⟨status, still⟩ := step_of_not_active idle
      rw [still]
      rfl
  · constructor
    · rintro ⟨noted, rfl⟩
      exact remarks_of_event? noted
    · exact event?_of_remarks

end Step

section Loading

variable {δ : Type u} {κ : Type v}

/-- What a command of the host other than a reset notes beside the instructions it runs: an image
that was loaded, or nothing. -/
structure NotesLoading (command : Command) (outcome : Outcome δ κ Reply) : Prop where
  loaded : outcome.reply = .loading (.ok ()) →
    ∃ image, command.brought? = some image ∧ outcome.journal = #[.loaded image.size]
  other : outcome.reply ≠ .loading (.ok ()) → outcome.journal = #[]

/-- Loading an image notes what a loading command notes. -/
theorem notesLoading_load (machine : Machine δ κ) (image : Array UInt8) {command : Command}
    (brings : command.brought? = some image) :
    NotesLoading command
      { machine.load image with reply := .loading (machine.load image).reply } := by
  by_cases fits : image.size ≤ Rom.capacity
  · rw [machine.load_of_le fits]
    exact ⟨fun _ => ⟨image, brings, rfl⟩, fun other => absurd rfl other⟩
  · rw [machine.load_of_lt (Nat.not_le.mp fits)]
    exact ⟨fun loaded => by simp [answer] at loaded, fun _ => rfl⟩

end Loading

variable {δ : Type u} {κ : Type v} [Screen δ] [KeyPanel κ] (machine : Machine δ κ)

/-- Beside its steps a host has noted only what its command amounts to. -/
theorem notesLoading_perform {command : Command} (notStep : command ≠ .step)
    (notFrame : command ≠ .runFrame) (notReset : command ≠ .reset) :
    NotesLoading command (machine.perform command) := by
  cases command with
  | step => exact absurd rfl notStep
  | runFrame => exact absurd rfl notFrame
  | reset => exact absurd rfl notReset
  | load image => exact machine.notesLoading_load image rfl
  | loadFrom source =>
    cases gathered : Reading.gather #[] source with
    | ok image =>
      simp only [perform, loadFrom, gathered]
      refine machine.notesLoading_load image ?_
      rw [Command.brought?, gathered]
      rfl
    | error error =>
      simp only [perform, loadFrom, gathered]
      exact ⟨fun loaded => by simp [answer] at loaded, fun _ => rfl⟩
  | _ => exact ⟨Reply.noConfusion, fun _ => rfl⟩

/-- A burst notes what its single steps note one by one. -/
theorem journal_frameParts (before : Outcome δ κ Status) (limit : Nat) :
    before.journal ++ (before.machine.performAll (before.machine.frameParts limit)).journal =
      (burst before limit).journal := by
  induction limit generalizing before with
  | zero => exact Array.append_empty
  | succ limit continued =>
    simp only [frameParts, burst]
    have stepped (rest : List Command) :
        (before.machine.performAll (.step :: rest)).journal =
          before.machine.step.journal ++ (before.machine.step.machine.performAll rest).journal := by
      rw [performAll_cons]
      rfl
    by_cases idle : before.machine.step.reply.isIdle = true
    · simp only [idle, Status.endsFrame_of_isIdle idle, ↓reduceIte, stepped, performAll_nil, answer,
        Array.append_empty]
    · by_cases ends : before.machine.step.reply.endsFrame = true
      · simp only [ends, idle, Bool.false_eq_true, ↓reduceIte, stepped]
        rfl
      · simp only [ends, idle, Bool.false_eq_true, ↓reduceIte, stepped]
        rw [← Array.append_assoc]
        exact continued
          { machine := before.machine.step.machine
            reply := before.machine.step.reply
            journal := before.journal ++ before.machine.step.journal }

/-- A frame notes what its steps note. -/
theorem journal_parts (command : Command) :
    (machine.performAll (machine.parts command)).journal = (machine.perform command).journal := by
  have single (other : Command) :
      (machine.performAll [other]).journal = (machine.perform other).journal := by
    rw [performAll_cons]
    exact Array.append_empty
  cases command with
  | runFrame =>
    have whole := journal_frameParts (machine.answer .running) machine.cyclesPerFrame
    rw [answer, Array.empty_append] at whole
    refine whole.trans ?_
    simp only [perform, runFrame]
    split <;> rfl
  | _ => exact single _

/-- Cutting a session into steps and ticks does not change its journal. -/
theorem journal_stepwise (commands : List Command) :
    (machine.performAll (machine.stepwise commands)).journal =
      (machine.performAll commands).journal := by
  induction commands generalizing machine with
  | nil => rfl
  | cons command rest continued =>
    rw [stepwise, performAll_append, performAll_cons]
    dsimp only
    rw [journal_parts, machine_performAll, after_parts, continued]

/-- What is noted at some time of a session. -/
def notesAt (commands : List Command) (time : Nat) : Array Event :=
  (machine.stepwise commands)[time]?.elim #[] fun command =>
    ((machine.moment commands time).perform command).journal

/-- What has been noted before some time of a session. -/
def notesBefore (commands : List Command) (time : Nat) : List Event :=
  (List.range time).flatMap fun earlier => (machine.notesAt commands earlier).toList

variable (commands : List Command)

/-- The notes of one more moment come behind those before it. -/
theorem notesBefore_succ (time : Nat) :
    machine.notesBefore commands (time + 1) =
      machine.notesBefore commands time ++ (machine.notesAt commands time).toList := by
  simp only [notesBefore, List.range_succ, List.flatMap_append, List.flatMap_singleton]

/-- The journal of the first commands of a session is made of the notes of their moments. -/
theorem journal_take (time : Nat) :
    (machine.performAll ((machine.stepwise commands).take time)).journal.toList =
      machine.notesBefore commands time := by
  induction time with
  | zero => rfl
  | succ time continued =>
    rw [notesBefore_succ, ← continued, notesAt, List.take_add_one]
    cases next : (machine.stepwise commands)[time]? with
    | none => simp only [Option.toList_none, List.append_nil, Option.elim_none, Array.toList_empty]
    | some command =>
      rw [Option.toList_some, performAll_concat, extend, machine_performAll, Option.elim_some,
        Array.toList_append]
      rfl

/-- **A session notes what its steps and the single acts of its host note**, one after the other. -/
theorem journal_performAll :
    (machine.performAll commands).journal.toList =
      machine.notesBefore commands (machine.stepwise commands).length := by
  rw [← journal_stepwise, ← journal_take, List.take_length]

variable {machine commands} {time : Nat}

/-- What a moment notes at which a word is executed is what the execution notes. -/
theorem notesAt_of_executes (executed : machine.ExecutesAt commands time fun _ => True) :
    machine.notesAt commands time = (machine.moment commands time).execute.journal := by
  rw [notesAt, executed.1, Option.elim_some]
  change (machine.moment commands time).step.journal = _
  rw [step_of_active executed.2.1]

/-- Where no instruction is executed, at most a reset or a loading is noted. -/
theorem notesAt_of_not_executes (unexecuted : ¬ machine.ExecutesAt commands time fun _ => True)
    {event : Event} (noted : event ∈ (machine.notesAt commands time).toList) :
    event = .reset ∨ ∃ size, event = .loaded size := by
  unfold notesAt at noted
  cases next : (machine.stepwise commands)[time]? with
  | none => simp [next] at noted
  | some command =>
    rw [next, Option.elim_some, Array.mem_toList_iff] at noted
    by_cases stepped : command = .step
    · subst stepped
      obtain ⟨status, still⟩ := step_of_not_active fun active => unexecuted ⟨next, active, trivial⟩
      change event ∈ (machine.moment commands time).step.journal at noted
      rw [still] at noted
      exact absurd noted (Array.not_mem_empty event)
    · by_cases reset : command = .reset
      · subst reset
        exact .inl (Array.mem_singleton.mp noted)
      · have single := ne_runFrame_of_mem_stepwise (List.mem_of_getElem? next)
        obtain ⟨loaded, other⟩ :=
          (machine.moment commands time).notesLoading_perform stepped single reset
        by_cases accepted :
            ((machine.moment commands time).perform command).reply = .loading (.ok ())
        · obtain ⟨image, -, journal⟩ := loaded accepted
          rw [journal] at noted
          exact .inr ⟨image.size, Array.mem_singleton.mp noted⟩
        · rw [other accepted] at noted
          exact absurd noted (Array.not_mem_empty event)

/-- One trace is noted where an instruction is executed, and none elsewhere. -/
theorem countP_notesAt :
    (machine.notesAt commands time).toList.countP (fun event => event.level = .trace) =
      if machine.ExecutesAt commands time (fun _ => True) then 1 else 0 := by
  split
  · next executed =>
    have remarks : ((machine.moment commands time).operation.event?
        (machine.moment commands time).state.advance).toList.countP
          (fun event => event.level = .trace) = 0 := by
      refine List.countP_eq_zero.mpr fun event noted => ?_
      have remarks := remarks_of_event? (Option.mem_toList.mp noted)
      intro traced
      rw [of_decide_eq_true traced] at remarks
      exact not_remarks_trace remarks
    rw [notesAt_of_executes executed, journal_execute, Array.toList_append, List.countP_append,
      Option.toList_toArray, remarks]
    rfl
  · next unexecuted =>
    refine List.countP_eq_zero.mpr fun event noted => ?_
    rcases notesAt_of_not_executes unexecuted noted with rfl | ⟨size, rfl⟩ <;>
      exact Bool.false_ne_true

/-- **The traces count the instructions.** -/
theorem countP_notesBefore (time : Nat) :
    (machine.notesBefore commands time).countP (fun event => event.level = .trace) =
      machine.executedBefore commands (fun _ => True) time := by
  induction time with
  | zero => rfl
  | succ time continued =>
    rw [notesBefore_succ, List.countP_append, continued, countP_notesAt, executedBefore_succ]

variable (machine) in
/-- The switches noted at some time are that to the new mode, if it is new. -/
theorem modes_notesAt (continuing : ∀ command ∈ commands, command.Continues) (time : Nat) :
    ∃ switch? : Option Resolution,
      (machine.notesAt commands time).toList.filterMap Event.mode? = switch?.toList ∧
      (machine.moment commands (time + 1)).state.resolution =
        switch?.getD (machine.moment commands time).state.resolution ∧
      ∀ mode, switch? = some mode → (machine.moment commands time).state.resolution ≠ mode := by
  by_cases executed : machine.ExecutesAt commands time fun _ => True
  · obtain ⟨changes, differs⟩ := Operation.mode_of_event?
      (machine.moment commands time).operation (machine.moment commands time).state.advance
      (machine.moment commands time).senses
    refine ⟨_, ?_, ?_, differs⟩
    · -- The trace is no switch, so only the remark counts.
      have joined (noted : Option Event) :
          noted.toList.filterMap Event.mode? = (noted.bind Event.mode?).toList := by
        cases noted with
        | none => rfl
        | some event => cases mode : event.mode? <;> simp [mode]
      rw [notesAt_of_executes executed, journal_execute, Array.toList_append,
        List.filterMap_append, Option.toList_toArray, joined]
      rfl
    · rw [executed.moment_succ]
      exact changes
  · refine ⟨none, ?_, ?_, fun mode noted => absurd noted.symm (Option.some_ne_none mode)⟩
    · refine List.filterMap_eq_nil_iff.mpr fun event noted => ?_
      rcases notesAt_of_not_executes executed noted with rfl | ⟨size, rfl⟩ <;> rfl
    · refine (rests_moment_succ (fun command next => ?_) executed).resolution
      exact forall_mem_stepwise trivial trivial continuing command (List.mem_of_getElem? next)

variable (machine) in
/-- **The switches alternate**, and the last of them is to the current mode. -/
theorem isChain_modes (continuing : ∀ command ∈ commands, command.Continues) (time : Nat) :
    let switches := (machine.notesBefore commands time).filterMap Event.mode?
    List.IsChain (· ≠ ·) (machine.state.resolution :: switches) ∧
      switches.getLastD machine.state.resolution =
        (machine.moment commands time).state.resolution := by
  intro switches
  induction time with
  | zero => exact ⟨.singleton _, rfl⟩
  | succ time continued =>
    obtain ⟨chain, last⟩ := continued
    obtain ⟨switch?, noted, changes, differs⟩ := machine.modes_notesAt continuing time
    dsimp only [switches]
    rw [notesBefore_succ, List.filterMap_append, noted, changes]
    cases switch? with
    | none =>
      rw [Option.toList_none, List.append_nil]
      exact ⟨chain, last⟩
    | some mode =>
      rw [Option.toList_some, List.getLastD_concat]
      refine ⟨?_, rfl⟩
      refine List.isChain_append.mpr ⟨chain, .singleton mode, ?_⟩
      intro before final after first
      rw [List.getLast?_cons, ← List.getLastD_eq_getLast?] at final
      obtain rfl := Option.some.inj final
      obtain rfl := Option.some.inj first
      rw [last]
      exact differs mode rfl

variable (machine commands) in
/-- **What the journal of a session is made of.** A step that reports a pause, or that finds an
exit, notes nothing. Any other step notes its trace, with the program counter, the word and what it
stands for, the registers and the index before it, and after the trace at most one remark, as the
table has it. A reset is noted, and an image that was loaded; a failed loading is not, nor is
anything else that a host does. A frame adds nothing to what its steps note, so the journal of a
session is that of its moments, and holds as many traces as instructions were executed. Without
reset and restore the switches noted alternate, from the other mode than the first on, and the last
of them is to the mode that the session leaves. -/
theorem session_journal :
    (∀ here : Machine δ κ,
      let silent := here.step.reply = .stopped ∨ here.state.exitCode ≠ none
      (silent → here.step.journal = #[]) ∧
      (¬ silent → ∃ remark : Option Event,
        here.step.journal = #[here.trace] ++ remark.toArray ∧
        ∀ level event,
          remark = some event ∧ event.level = level ↔ here.Remarks level event) ∧
      here.trace.level = .trace ∧
      here.trace.message =
        Numeral.hex 3 here.state.pc.toNat ++ ": " ++ Numeral.hex 4 here.state.word.toNat ++ " " ++
          Event.padded 16 here.operation.assembly ++ " v" ++
          Event.bytesText here.state.registers.toList ++ " i" ++
          Numeral.hex 3 here.state.index.toNat) ∧
    (∀ here : Machine δ κ,
      (here.perform .reset).journal = #[.reset] ∧ Event.reset.level = .info ∧
      (∀ size, (Event.loaded size).level = .info) ∧
      ∀ command : Command, command ≠ .step → command ≠ .runFrame → command ≠ .reset →
        NotesLoading command (here.perform command)) ∧
    let journal := (machine.performAll commands).journal.toList
    journal = machine.notesBefore commands (machine.stepwise commands).length ∧
    journal.countP (fun event => event.level = .trace) =
      machine.executedBefore commands (fun _ => True) (machine.stepwise commands).length ∧
    ((∀ command ∈ commands, command.Continues) →
      let switches := journal.filterMap Event.mode?
      List.IsChain (· ≠ ·) (machine.state.resolution :: switches) ∧
        switches.getLastD machine.state.resolution =
          (machine.performAll commands).machine.state.resolution) := by
  refine ⟨fun here => ?_, fun here => ?_, ?_⟩
  · intro silent
    obtain ⟨remark, journal, table⟩ := here.step_journal
    refine ⟨fun quiet => ?_, fun loud => ⟨remark, ?_, table⟩, rfl, rfl⟩
    · rw [journal, if_neg (here.stopped_or_exited_iff.mp quiet)]
    · have active := Classical.not_not.mp (mt here.stopped_or_exited_iff.mpr loud)
      rw [journal, if_pos active]
  · exact ⟨rfl, rfl, fun _ => rfl, fun _ => here.notesLoading_perform⟩
  · intro journal
    have moments : journal = machine.notesBefore commands (machine.stepwise commands).length :=
      machine.journal_performAll commands
    refine ⟨moments, ?_, fun continuing => ?_⟩
    · rw [moments, countP_notesBefore]
    · intro switches
      have alternating := machine.isChain_modes continuing (machine.stepwise commands).length
      rw [← moments, moment_length] at alternating
      exact alternating

/-- A machine that goes to the high resolution, comes to a word that asks for nothing, and goes
back. -/
def toggling : Machine Uniform Keypad where
  state :=
    { State.initial with
      memory := Memory.blank.writeList Address.programStart [0x00, 0xFF, 0x80, 0x08, 0x00, 0xFE] }
  screen := ⟨false⟩
  keys := KeyPad.released
  random := { key := Vector.replicate 8 0 }
  timing := Timing.standard

/-- Its journal: three traces, each with a remark, and two switches. -/
theorem session_journal_toggling :
    let session : List Command := [.step, .tick, .step, .step]
    let left := toggling.performAll session
    (∀ command ∈ session, command.Continues) ∧
      left.journal.size = 6 ∧
      left.journal.toList.countP (fun event => event.level = .trace) = 3 ∧
      left.journal.toList.filterMap Event.mode? = [.high, .low] ∧
      left.machine.state.resolution = .low := by
  intro session left
  have continuing : ∀ command ∈ session, command.Continues := by simp [session, Command.Continues]
  obtain ⟨-, -, -, traces, alternates⟩ := session_journal toggling session
  obtain ⟨-, last⟩ := alternates continuing
  have switches : left.journal.toList.filterMap Event.mode? = [.high, .low] := by decide +kernel
  have executed : toggling.executedBefore session (fun _ => True)
      (toggling.stepwise session).length = 3 := by decide +kernel
  rw [switches, List.getLastD_cons, List.getLastD_cons, List.getLastD_nil] at last
  refine ⟨continuing, by decide +kernel, traces.trans executed, switches, ?_⟩
  rw [← last]

end Machine

end SuperChip
