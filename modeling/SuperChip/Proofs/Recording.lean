import SuperChip.Proofs.ScreenIndependence

/-!
# Recording the screen

What a session asks of its screen is read off the same session on a screen that remembers the
calls it receives (`Machine.sessionCalls`). The main statement is `Machine.matches_recording`, that
recording changes nothing else: replies, events, states and what the screen shows stay the same.
-/

namespace SuperChip

universe u v

namespace Machine

variable {δ : Type u} {κ : Type v}

/-- The machine with a screen that remembers from now on what it is asked. -/
def recording (machine : Machine δ κ) : Machine (Recorded δ) κ :=
  machine.withScreen { screen := machine.screen }

/-- The machine on the screen that a recorded one wraps. -/
def unrecorded (machine : Machine (Recorded δ) κ) : Machine δ κ :=
  machine.withScreen machine.screen.screen

/-- The second machine records its screen and otherwise is the first. -/
def Records (first : Machine δ κ) (second : Machine (Recorded δ) κ) : Prop :=
  first = second.unrecorded

/-- A machine is recorded by another that has the same parts and whose recorder holds its screen. -/
theorem records_of_eq {first : Machine δ κ} {second : Machine (Recorded δ) κ}
    (state : first.state = second.state) (screen : first.screen = second.screen.screen)
    (keys : first.keys = second.keys) (random : first.random = second.random)
    (timing : first.timing = second.timing) : Records first second := by
  rw [Records, unrecorded, withScreen, ← state, ← screen, ← keys, ← random, ← timing]

/-- Recording does not show when an image is loaded. -/
theorem matches_load_unrecorded (recorded : Machine (Recorded δ) κ) (image : Array UInt8) :
    Matches Records (recorded.unrecorded.load image) (recorded.load image) := by
  have same : recorded.unrecorded.state = recorded.state := rfl
  unfold load
  rw [same]
  cases recorded.state.load image with
  | ok state => exact ⟨rfl, rfl, rfl⟩
  | error error => exact ⟨rfl, rfl, rfl⟩

variable [Screen δ] [KeyPanel κ]

/-- The calls that a session makes on the screen, as a recorded screen remembers them. -/
def sessionCalls (machine : Machine δ κ) (commands : List Command) : List ScreenCall :=
  (machine.recording.performAll commands).machine.screen.calls.toList

/-- Recording does not show in a step. -/
theorem matches_step_unrecorded (recorded : Machine (Recorded δ) κ) :
    Matches Records recorded.unrecorded.step recorded.step := by
  let screen := recorded.screen.screen
  have agree : recorded.AgreesThroughout screen := by
    intro done _ cell _
    have wrapped := (ScreenCall.applyAll_recorded done recorded.screen).1
    exact congrArg (Screen.lit · cell) wrapped
  have calls : recorded.unrecorded.screenCalls = recorded.screenCalls :=
    screenCalls_withScreen agree
  obtain ⟨state, reply⟩ := step_withScreen calls
  obtain ⟨journal, keys, random, timing⟩ := recorded.journal_step_withScreen screen
  have painted : recorded.unrecorded.step.machine.screen = recorded.step.machine.screen.screen := by
    rw [screen_step, screen_step, calls]
    exact (ScreenCall.applyAll_recorded recorded.screenCalls recorded.screen).1.symm
  exact ⟨records_of_eq state painted keys random timing, reply, journal⟩

/-- A machine and its recorded twin are in lockstep. -/
theorem lockstep_records : Lockstep (Records (δ := δ) (κ := κ)) where
  step {_} {recorded} records := by
    subst records
    exact recorded.matches_step_unrecorded
  tick {_} {recorded} records := by
    subst records
    rfl
  cycles {_} {recorded} records := by
    subst records
    rfl

/-- **Recording the screen changes nothing else**, whatever a host does. -/
theorem matches_recording (machine : Machine δ κ) (commands : List Command) :
    Matches Records (machine.performAll commands) (machine.recording.performAll commands) := by
  refine matches_performAll commands ?_ rfl
  intro command _ first recorded records
  have loads (image : Array UInt8) :
      Matches Records (first.load image) (recorded.load image) := by
    subst records
    exact recorded.matches_load_unrecorded image
  refine lockstep_records.perform records loads fun acts => ?_
  subst records
  cases command with
  | step | runFrame | tick | load image | loadFrom source => exact acts.elim
  | _ => exact ⟨rfl, rfl, rfl⟩

end Machine

end SuperChip
