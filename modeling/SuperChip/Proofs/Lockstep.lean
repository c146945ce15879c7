import SuperChip.Proofs.Moments

/-!
# Machines in lockstep

Two machines, possibly with different peripherals, go in lockstep under a relation if whatever is
done to both gets the same reply, notes the same events and leaves them related. It is enough to
look at one step and one tick: with what a host does at once all single commands follow
(`Machine.Lockstep.perform`), and from these whole sessions (`Machine.matches_performAll`).

Some machines go in lockstep only as far as a view of the events shows, and only while the first
of them executes no instruction of some form. This is the general case, in which frames are taken
apart into their steps (`Machine.LockstepUnless.runFrame`, `Machine.matchesUpTo_performAll`); the
other one follows from it.
-/

namespace SuperChip

universe u v w t r a

/-- What a host does at once, without letting the machine run and without loading it. -/
def Command.ActsAtOnce : Command → Prop
  | reset | restore _ | frameShown | setRunning _ | toggleRunning => True
  | press _ | release _ | releaseAll => True
  | step | runFrame | tick | load _ | loadFrom _ => False

namespace Machine

section Avoidance

variable {δ : Type u} {κ : Type v} [Screen δ] [KeyPanel κ] {form : Nat → Prop}

/-- Along some single commands no instruction of a form is executed. -/
def Avoids (form : Nat → Prop) (machine : Machine δ κ) : List Command → Prop
  | [] => True
  | command :: rest =>
      (command = .step → machine.Active → ¬ form machine.state.wordNumber) ∧
        Avoids form (machine.perform command).machine rest

/-- A session avoids a form when its first half does, and its second half does from the machine that
the first half leaves. -/
theorem avoids_append {machine : Machine δ κ} {first second : List Command} :
    machine.Avoids form (first ++ second) ↔
      machine.Avoids form first ∧ (machine.after first).Avoids form second := by
  induction first generalizing machine with
  | nil => exact (iff_of_eq (true_and _)).symm
  | cons command rest continued => exact (and_congr_right' continued).trans and_assoc.symm

/-- A session avoids a form if none of its steps, in whatever state it finds the machine, executes a
word of the form. -/
theorem avoids_of_forall {machine : Machine δ κ} {commands : List Command}
    (unexecuted : ∀ time, commands[time]? = some .step →
      (machine.after (commands.take time)).Active →
        ¬ form (machine.after (commands.take time)).state.wordNumber) :
    machine.Avoids form commands := by
  induction commands generalizing machine with
  | nil => trivial
  | cons command rest continued =>
    refine ⟨?_, continued fun time => unexecuted (time + 1)⟩
    rintro rfl active
    exact unexecuted 0 rfl active

/-- A session that never executes a form avoids it all along. -/
theorem avoids_stepwise {machine : Machine δ κ} {commands : List Command}
    (unexecuted : ∀ time, ¬ machine.ExecutesAt commands time form) :
    machine.Avoids form (machine.stepwise commands) :=
  avoids_of_forall fun time stepped active here => unexecuted time ⟨stepped, active, here⟩

theorem avoids_false (machine : Machine δ κ) (commands : List Command) :
    machine.Avoids (fun _ => False) commands :=
  avoids_of_forall fun _ _ _ => not_false

/-- What a frame avoids, its first step avoids, and so do the later ones if it goes on. -/
theorem avoids_frameParts_succ {machine : Machine δ κ} {limit : Nat}
    (avoids : machine.Avoids form (machine.frameParts (limit + 1))) :
    (machine.Active → ¬ form machine.state.wordNumber) ∧
      (machine.step.reply.endsFrame = false →
        machine.step.machine.Avoids form (machine.step.machine.frameParts limit)) := by
  simp only [frameParts] at avoids
  split at avoids
  · next idle =>
    refine ⟨avoids.1 rfl, fun moving => ?_⟩
    exact absurd (Status.endsFrame_of_isIdle idle) (Bool.eq_false_iff.mp moving)
  · split at avoids
    · next ends => exact ⟨avoids.1 rfl, fun moving => absurd ends (Bool.eq_false_iff.mp moving)⟩
    · exact ⟨avoids.1 rfl, fun _ => avoids.2⟩

end Avoidance

variable {δ : Type u} {κ : Type v} {ε : Type w} {π : Type t} {ρ : Type r} {α : Type a}

/-- Two outcomes that differ at most in the machines that they leave, which are related, and in
what a view of the events does not show. -/
structure MatchesUpTo (view : Event → α) (related : Machine δ κ → Machine ε π → Prop)
    (first : Outcome δ κ ρ) (second : Outcome ε π ρ) : Prop where
  machine : related first.machine second.machine
  reply : first.reply = second.reply
  journal : first.journal.map view = second.journal.map view

/-- Two outcomes that differ at most in the machines that they leave, which are related. -/
structure Matches (related : Machine δ κ → Machine ε π → Prop) (first : Outcome δ κ ρ)
    (second : Outcome ε π ρ) : Prop where
  machine : related first.machine second.machine
  reply : first.reply = second.reply
  journal : first.journal = second.journal

section Outcomes

variable {related : Machine δ κ → Machine ε π → Prop} {view : Event → α}

theorem MatchesUpTo.answer {first : Machine δ κ} {second : Machine ε π}
    (alike : related first second) (reply : ρ) :
    MatchesUpTo view related (first.answer reply) (second.answer reply) :=
  ⟨alike, rfl, rfl⟩

theorem Matches.answer {first : Machine δ κ} {second : Machine ε π}
    (alike : related first second) (reply : ρ) :
    Matches related (first.answer reply) (second.answer reply) :=
  ⟨alike, rfl, rfl⟩

/-- Up to the identity on statuses, matching is equality of the replies. -/
theorem matchesUpTo_id_iff {first : Outcome δ κ ρ} {second : Outcome ε π ρ} :
    MatchesUpTo id related first second ↔ Matches related first second := by
  constructor
  · rintro ⟨machine, reply, journal⟩
    rw [Array.map_id, Array.map_id] at journal
    exact ⟨machine, reply, journal⟩
  · rintro ⟨machine, reply, journal⟩
    exact ⟨machine, reply, congrArg (Array.map id) journal⟩

end Outcomes

/-- Steps of machines of which both run or neither does match if what they execute does. -/
theorem matchesUpTo_step [Screen δ] [KeySource κ] [Screen ε] [KeySource π] {view : Event → α}
    {related : Machine δ κ → Machine ε π → Prop} {first : Machine δ κ} {second : Machine ε π}
    (alike : related first second) (exitCode : first.state.exitCode = second.state.exitCode)
    (running : first.state.running = second.state.running)
    (executed : first.Active → MatchesUpTo view related first.execute second.execute) :
    MatchesUpTo view related first.step second.step := by
  cases exited : first.state.exitCode with
  | some code =>
    rw [step_of_exited exited, step_of_exited (exitCode.symm.trans exited)]
    exact .answer alike _
  | none =>
    have unfinished := exitCode.symm.trans exited
    cases ran : first.state.running with
    | false =>
      rw [step_of_paused exited ran, step_of_paused unfinished (running.symm.trans ran)]
      exact .answer alike _
    | true =>
      rw [step_of_running exited ran, step_of_running unfinished (running.symm.trans ran)]
      exact executed ⟨exited, ran⟩

/-- Under the relation two machines cannot be told apart by stepping and ticking them, as far as
a view of the events goes, while the first executes no instruction of a form. -/
structure LockstepUnless [Screen δ] [KeySource κ] [Screen ε] [KeySource π] (form : Nat → Prop)
    (view : Event → α) (related : Machine δ κ → Machine ε π → Prop) : Prop where
  step {first : Machine δ κ} {second : Machine ε π} : related first second →
    (first.Active → ¬ form first.state.wordNumber) →
      MatchesUpTo view related first.step second.step
  tick {first : Machine δ κ} {second : Machine ε π} :
    related first second → related first.tick second.tick
  cycles {first : Machine δ κ} {second : Machine ε π} :
    related first second → first.cyclesPerFrame = second.cyclesPerFrame

/-- Under the relation two machines cannot be told apart by stepping and ticking them. -/
structure Lockstep [Screen δ] [KeySource κ] [Screen ε] [KeySource π]
    (related : Machine δ κ → Machine ε π → Prop) : Prop where
  step {first : Machine δ κ} {second : Machine ε π} :
    related first second → Matches related first.step second.step
  tick {first : Machine δ κ} {second : Machine ε π} :
    related first second → related first.tick second.tick
  cycles {first : Machine δ κ} {second : Machine ε π} :
    related first second → first.cyclesPerFrame = second.cyclesPerFrame

variable [Screen δ] [KeyPanel κ] [Screen ε] [KeyPanel π] {form : Nat → Prop} {view : Event → α}
  {related : Machine δ κ → Machine ε π → Prop}

section Frames

/-- Two bursts of steps match for as long as the first one avoids the excepted form. -/
theorem LockstepUnless.burst (lockstep : LockstepUnless form view related)
    {first : Outcome δ κ Status} {second : Outcome ε π Status}
    (alike : MatchesUpTo view related first second) {limit : Nat}
    (avoids : first.machine.Avoids form (first.machine.frameParts limit)) :
    MatchesUpTo view related (burst first limit) (burst second limit) := by
  induction limit generalizing first second with
  | zero => exact alike
  | succ limit continued =>
    obtain ⟨begun, later⟩ := avoids_frameParts_succ avoids
    have stepped := lockstep.step alike.machine begun
    have joined : (first.journal ++ first.machine.step.journal).map view =
        (second.journal ++ second.machine.step.journal).map view := by
      rw [Array.map_append, Array.map_append, alike.journal, stepped.journal]
    simp only [Machine.burst, ← stepped.reply]
    split
    · exact ⟨stepped.machine, rfl, joined⟩
    · next moving =>
      refine continued ⟨stepped.machine, rfl, joined⟩ ?_
      exact later (Bool.eq_false_iff.mpr moving)

/-- **Frames keep machines in lockstep**, if they avoid the form. -/
theorem LockstepUnless.runFrame (lockstep : LockstepUnless form view related)
    {first : Machine δ κ} {second : Machine ε π} (alike : related first second)
    (avoids : first.Avoids form (first.parts .runFrame)) :
    MatchesUpTo view related first.runFrame second.runFrame := by
  have ran := lockstep.burst (MatchesUpTo.answer alike Status.running) avoids
  simp only [Machine.runFrame, ← lockstep.cycles alike, ← ran.reply]
  split
  · exact ran
  · exact ⟨lockstep.tick ran.machine, rfl, ran.journal⟩

/-- Machines that are in lockstep are so with no form excepted. -/
theorem Lockstep.unless (lockstep : Lockstep related) :
    LockstepUnless (fun _ => False) id related where
  step alike _ := matchesUpTo_id_iff.mpr (lockstep.step alike)
  tick := lockstep.tick
  cycles := lockstep.cycles

end Frames

/-- So do the other commands by which machines run, and loading from a source if loading does. -/
theorem LockstepUnless.perform (lockstep : LockstepUnless form view related)
    {first : Machine δ κ} {second : Machine ε π} (alike : related first second) {command : Command}
    (avoids : first.Avoids form (first.parts command))
    (loads : ∀ image, MatchesUpTo view related (first.load image) (second.load image))
    (acts : command.ActsAtOnce →
      MatchesUpTo view related (first.perform command) (second.perform command)) :
    MatchesUpTo view related (first.perform command) (second.perform command) := by
  cases command with
  | step =>
    have stepped := lockstep.step alike (avoids.1 rfl)
    exact ⟨stepped.machine, congrArg Reply.status stepped.reply, stepped.journal⟩
  | runFrame =>
    have ran := lockstep.runFrame alike avoids
    exact ⟨ran.machine, congrArg Reply.status ran.reply, ran.journal⟩
  | tick => exact .answer (lockstep.tick alike) _
  | load image =>
    have loaded := loads image
    exact ⟨loaded.machine, congrArg Reply.loading loaded.reply, loaded.journal⟩
  | loadFrom source =>
    have loaded : MatchesUpTo view related (first.loadFrom source) (second.loadFrom source) := by
      unfold loadFrom
      split
      · exact loads _
      · exact .answer alike _
    exact ⟨loaded.machine, congrArg Reply.loading loaded.reply, loaded.journal⟩
  | _ => exact acts trivial

/-- Two machines in lockstep answer every command alike, if they do so for loading and for the
commands that act at once. -/
theorem Lockstep.perform (lockstep : Lockstep related) {first : Machine δ κ}
    {second : Machine ε π} (alike : related first second) {command : Command}
    (loads : ∀ image, Matches related (first.load image) (second.load image))
    (acts : command.ActsAtOnce →
      Matches related (first.perform command) (second.perform command)) :
    Matches related (first.perform command) (second.perform command) :=
  matchesUpTo_id_iff.mp <| lockstep.unless.perform alike (avoids_false first _)
    (fun image => matchesUpTo_id_iff.mpr (loads image))
    fun atOnce => matchesUpTo_id_iff.mpr (acts atOnce)

/-- **So do sessions**, if each of their commands does where it avoids the form. -/
theorem matchesUpTo_performAll {commands : List Command}
    (single : ∀ command ∈ commands, ∀ {first : Machine δ κ} {second : Machine ε π},
      related first second → first.Avoids form (first.parts command) →
        MatchesUpTo view related (first.perform command) (second.perform command))
    {first : Machine δ κ} {second : Machine ε π} (alike : related first second)
    (avoids : first.Avoids form (first.stepwise commands)) :
    MatchesUpTo view related (first.performAll commands) (second.performAll commands) := by
  induction commands generalizing first second with
  | nil => exact .answer alike #[]
  | cons command rest continued =>
    rw [stepwise, avoids_append, after_parts] at avoids
    have performed := single command List.mem_cons_self alike avoids.1
    have finished := continued
      (fun other member => single other (List.mem_cons_of_mem command member))
      performed.machine avoids.2
    rw [performAll_cons, performAll_cons]
    refine ⟨finished.machine, ?_, ?_⟩
    · simp only [performed.reply, finished.reply]
    · simp only [Array.map_append, performed.journal, finished.journal]

/-- If two machines answer each command of a session alike, they answer the whole session alike. -/
theorem matches_performAll (commands : List Command)
    (single : ∀ command ∈ commands, ∀ {first : Machine δ κ} {second : Machine ε π},
      related first second → Matches related (first.perform command) (second.perform command))
    {first : Machine δ κ} {second : Machine ε π} (alike : related first second) :
    Matches related (first.performAll commands) (second.performAll commands) :=
  matchesUpTo_id_iff.mp <| matchesUpTo_performAll
    (fun command member _ _ related _ => matchesUpTo_id_iff.mpr (single command member related))
    alike (avoids_false first _)

end Machine

end SuperChip
