import SuperChip.Proofs.Perception
import SuperChip.Proofs.Timers

/-!
# Interleavings

Time and keys pass beside the program. As long as the program uses no timer while time passes and
asks for no key while keys move, it makes no difference when between its steps these events happen:
the steps report the same, the same is noted, and the same machine is left.

One step and one event change places by `Machine.step_perform`; `Machine.reported_perform` moves an
event behind any number of steps, and `Machine.interleaving_irrelevant` is the statement about
arbitrary interleavings.
-/

namespace SuperChip

universe u v

namespace Reply

/-- The status that a reply reports, if it reports one. -/
def status? : Reply → Option Status
  | status reported => some reported
  | _ => none

end Reply

/-- A session takes some steps and lets events happen in between, in their order. -/
inductive Interleaves : Nat → List Command → List Command → Prop where
  | nil : Interleaves 0 [] []
  | step {count : Nat} {events session : List Command} :
      Interleaves count events session → Interleaves (count + 1) events (.step :: session)
  | event {count : Nat} {events session : List Command} (event : Command) :
      Interleaves count events session → Interleaves count (event :: events) (event :: session)

namespace Machine

variable {δ : Type u} {κ : Type v} [Screen δ] [KeyPanel κ]

/-- What a session leaves, the statuses that it reports, and what it notes. -/
def reported (machine : Machine δ κ) (commands : List Command) : Outcome δ κ (List Status) :=
  let session := machine.performAll commands
  { machine := session.machine
    reply := session.reply.toList.filterMap Reply.status?
    journal := session.journal }

/-- The machine after a reported session is the one that its commands lead to. -/
theorem machine_reported (machine : Machine δ κ) (commands : List Command) :
    (machine.reported commands).machine = machine.after commands :=
  machine.machine_performAll commands

/-- A session reports what its first command does and then what the rest does from there. -/
theorem reported_cons (machine : Machine δ κ) (command : Command) (rest : List Command) :
    machine.reported (command :: rest) =
      let first := machine.perform command
      let later := first.machine.reported rest
      { machine := later.machine
        reply := (Reply.status? first.reply).toList ++ later.reply
        journal := first.journal ++ later.journal } := by
  simp only [reported, performAll_cons, Array.toList_append, List.filterMap_append]
  cases (machine.perform command).reply <;> rfl

/-- A step always reports its status. -/
theorem reported_step (machine : Machine δ κ) (rest : List Command) :
    machine.reported (.step :: rest) =
      let later := machine.step.machine.reported rest
      { machine := later.machine
        reply := machine.step.reply :: later.reply
        journal := machine.step.journal ++ later.journal } :=
  reported_cons machine .step rest

/-- An event reports no status and notes nothing. -/
theorem reported_event (machine : Machine δ κ) {event : Command} (happens : event.IsEvent)
    (rest : List Command) :
    machine.reported (event :: rest) = (machine.perform event).machine.reported rest := by
  rw [reported_cons]
  cases event with
  | tick | press key | release key | releaseAll =>
    simp only [perform, answer, Reply.status?, Option.toList_none, List.nil_append,
      Array.empty_append]
  | _ => exact happens.elim

section Steps

variable {machine : Machine δ κ} {count : Nat} {event : Command}

/-- What a session executes after its first step is what the rest executes from there. -/
theorem executesAt_step_cons {rest : List Command} {time : Nat} {form : Nat → Prop} :
    machine.ExecutesAt (.step :: rest) (time + 1) form ↔
      machine.step.machine.ExecutesAt rest time form :=
  Iff.rfl

theorem not_executesAt_nil {time : Nat} {form : Nat → Prop} : ¬ machine.ExecutesAt [] time form := by
  rintro ⟨next, -⟩
  exact absurd next (by simp [stepwise])

/-- No step ahead is concerned by an event. -/
def Indifferent (machine : Machine δ κ) (count : Nat) (event : Command) : Prop :=
  ∀ time, ¬ machine.ExecutesAt (List.replicate count .step) time event.Concerns

/-- An event that concerns none of the steps ahead concerns none of those after the first. -/
theorem Indifferent.step (indifferent : machine.Indifferent (count + 1) event) :
    machine.step.machine.Indifferent count event :=
  fun time => indifferent (time + 1)

/-- Such an event may happen before the first step or after it. -/
theorem Indifferent.step_perform (indifferent : machine.Indifferent (count + 1) event)
    (happens : event.IsEvent) :
    (machine.perform event).machine.step =
      { machine.step with machine := (machine.step.machine.perform event).machine } :=
  Machine.step_perform happens fun active concerned => indifferent 0 ⟨rfl, active, concerned⟩

/-- An event that no step ahead is concerned by does not change what they execute. -/
theorem Indifferent.executesAt_perform (indifferent : machine.Indifferent count event)
    (happens : event.IsEvent) (time : Nat) (form : Nat → Prop) :
    (machine.perform event).machine.ExecutesAt (List.replicate count .step) time form ↔
      machine.ExecutesAt (List.replicate count .step) time form := by
  induction count generalizing machine time with
  | zero => exact iff_of_false not_executesAt_nil not_executesAt_nil
  | succ count continued =>
    cases time with
    | zero =>
      cases event with
      | tick | press key | release key | releaseAll => exact Iff.rfl
      | _ => exact happens.elim
    | succ time =>
      rw [List.replicate_succ, executesAt_step_cons, executesAt_step_cons,
        indifferent.step_perform happens]
      exact continued indifferent.step time

/-- **An event slides behind steps** that it does not concern. -/
theorem Indifferent.reported_perform (indifferent : machine.Indifferent count event)
    (happens : event.IsEvent) (rest : List Command) :
    (machine.perform event).machine.reported (List.replicate count .step ++ rest) =
      machine.reported (List.replicate count .step ++ event :: rest) := by
  induction count generalizing machine with
  | zero => exact (machine.reported_event happens rest).symm
  | succ count continued =>
    rw [List.replicate_succ, List.cons_append, List.cons_append, reported_step, reported_step,
      indifferent.step_perform happens]
    simp only [continued indifferent.step]

/-- So it does not matter when between the steps the events happen. -/
theorem reported_interleaved {events session : List Command}
    (interleaved : Interleaves count events session) (happen : ∀ event ∈ events, event.IsEvent)
    (indifferent : ∀ event ∈ events, machine.Indifferent count event) :
    machine.reported session = machine.reported (List.replicate count .step ++ events) := by
  induction interleaved generalizing machine with
  | nil => rfl
  | @step count events session _ continued =>
    have later : machine.step.machine.reported session =
        machine.step.machine.reported (List.replicate count .step ++ events) :=
      continued happen fun event member => (indifferent event member).step
    rw [List.replicate_succ, List.cons_append, reported_step, reported_step, later]
  | @event count events session event _ continued =>
    have happens := happen event List.mem_cons_self
    have unnoticed := indifferent event List.mem_cons_self
    have rest : (machine.perform event).machine.reported session =
        (machine.perform event).machine.reported (List.replicate count .step ++ events) :=
      continued (fun other member => happen other (List.mem_cons_of_mem event member))
        fun other member time executed =>
          indifferent other (List.mem_cons_of_mem event member) time
            ((unnoticed.executesAt_perform happens time _).mp executed)
    rw [machine.reported_event happens, rest, unnoticed.reported_perform happens]

end Steps

section Timers

variable {machine : Machine δ κ} {timer : Timer}

/-- Steps that do not set a timer leave it. -/
theorem value_after_steps {count : Nat}
    (unset : ∀ time, ¬ machine.ExecutesAt (List.replicate count .step) time timer.SetBy) :
    timer.value (machine.after (List.replicate count .step)).state =
      timer.value machine.state := by
  induction count generalizing machine with
  | zero => rfl
  | succ count continued =>
    have first : timer.value machine.step.machine.state = timer.value machine.state :=
      Timer.value_step_of_not_setBy fun active set => unset 0 ⟨rfl, active, set⟩
    exact (continued fun time => unset (time + 1)).trans first

/-- Events leave a timer but for their ticks, each of which takes one from it. -/
theorem toNat_value_after_events {events : List Command}
    (happen : ∀ event ∈ events, event.IsEvent) :
    (timer.value (machine.after events).state).toNat =
      (timer.value machine.state).toNat - events.countP Command.isTick := by
  induction events generalizing machine with
  | nil => rfl
  | cons event rest continued =>
    have happens := happen event List.mem_cons_self
    have first : (timer.value (machine.perform event).machine.state).toNat =
        (timer.value machine.state).toNat - [event].countP Command.isTick := by
      cases event with
      | tick | press key | release key | releaseAll =>
        exact timer.toNat_value_perform machine trivial Command.noConfusion Command.noConfusion
      | _ => exact happens.elim
    have later : (timer.value ((machine.perform event).machine.after rest).state).toNat =
        (timer.value (machine.perform event).machine.state).toNat -
          rest.countP Command.isTick :=
      continued fun other member => happen other (List.mem_cons_of_mem event member)
    rw [after_cons, later, first, Nat.sub_sub, ← List.countP_append, List.singleton_append]

end Timers

/-- A word that does not use the timers sets neither of them. -/
theorem not_setBy_of_not_usesTimers {timer : Timer} {word : Nat}
    (unused : ¬ Form.UsesTimers word) : ¬ timer.SetBy word := by
  intro set
  cases timer with
  | delay => exact unused (.inr (.inl set))
  | sound => exact unused (.inr (.inr set))

/-- **Interleavings make no difference.** Take any steps of a machine and any ticks, presses and
releases. If the steps, run by themselves, execute no instruction that uses the timers where there
is a tick, and none that asks for keys where a key moves, then every session that interleaves the
two reports the same statuses, notes the same events and leaves the same machine. Ticks take from a
timer what they would have taken without the steps. -/
theorem interleaving_irrelevant (machine : Machine δ κ) {count : Nat}
    {events session : List Command} (interleaved : Interleaves count events session)
    (happen : ∀ event ∈ events, event.IsEvent)
    (indifferent : ∀ event ∈ events, machine.Indifferent count event) :
    machine.reported session = machine.reported (List.replicate count .step ++ events) ∧
    ∀ timer : Timer,
      .tick ∈ events ∨
        (∀ time, ¬ machine.ExecutesAt (List.replicate count .step) time timer.SetBy) →
      (timer.value (machine.reported session).machine.state).toNat =
        (timer.value machine.state).toNat - events.countP Command.isTick := by
  have same := reported_interleaved interleaved happen indifferent
  refine ⟨same, ?_⟩
  intro timer untouched
  have unset (time : Nat) :
      ¬ machine.ExecutesAt (List.replicate count .step) time timer.SetBy := by
    rcases untouched with ticked | unset
    · rintro ⟨next, active, set⟩
      refine indifferent .tick ticked time ⟨next, active, ?_⟩
      exact Classical.byContradiction fun unused => not_setBy_of_not_usesTimers unused set
    · exact unset time
  rw [same, machine_reported, after_append, toNat_value_after_events happen,
    value_after_steps unset]

/-- A machine about to compute, with five ticks left on its delay timer. -/
def computing : Machine Uniform Keypad :=
  { comparing with
    state :=
      { State.initial with
        memory := Memory.blank.writeList Address.programStart [0x60, 0x05, 0x70, 0x01]
        delay := 5 } }

/-- A tick and a press may come before, between or after the two instructions. -/
theorem interleaving_irrelevant_computing :
    Interleaves 2 [.tick, .press 3] [.tick, .step, .press 3, .step] ∧
      computing.reported [.tick, .step, .press 3, .step] =
        computing.reported [.step, .step, .tick, .press 3] ∧
      (computing.reported [.tick, .step, .press 3, .step]).machine.state.delay.toNat = 4 := by
  have interleaved : Interleaves 2 [.tick, .press 3] [.tick, .step, .press 3, .step] :=
    .event .tick (.step (.event (.press 3) (.step .nil)))
  have unconcerned (time : Nat) :
      ¬ computing.ExecutesAt [.step, .step] time Form.UsesTimers ∧
        ¬ computing.ExecutesAt [.step, .step] time Form.AsksKeys := by
    match time with
    | 0 | 1 => decide +kernel
    | time + 2 =>
      rw [executesAt_step_cons, executesAt_step_cons, executesAt_step_cons, executesAt_step_cons]
      exact ⟨not_executesAt_nil, not_executesAt_nil⟩
  have indifferent : ∀ event ∈ [.tick, .press 3], computing.Indifferent 2 event := by
    intro event member time
    obtain rfl | rfl : event = .tick ∨ event = .press 3 := by simpa using member
    · exact (unconcerned time).1
    · exact (unconcerned time).2
  obtain ⟨same, timers⟩ := interleaving_irrelevant computing interleaved
    (List.forall_mem_cons.mpr ⟨trivial, List.forall_mem_singleton.mpr trivial⟩) indifferent
  exact ⟨interleaved, same, (timers .delay (.inl List.mem_cons_self)).trans (by decide)⟩

end Machine

end SuperChip
