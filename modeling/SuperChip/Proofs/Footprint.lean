import SuperChip.Proofs.ControlFlow
import SuperChip.Proofs.Strokes

/-!
# The footprint of a step

Which components of the state a step may change, read off the word at the
program counter, and what a step does to the peripherals. The table
`Component.ChangedBy` is the whole footprint on the state: the instructions
listed for a component are the only ones that change it.
-/

namespace SuperChip

universe u v

namespace Form

/-- The words that add, subtract or shift registers, which set the flag. -/
def Flags (word : Nat) : Prop :=
  xy 0x8 0x4 word ∨ xy 0x8 0x5 word ∨ xy 0x8 0x6 word ∨ xy 0x8 0x7 word ∨ xy 0x8 0xE word

/-- The words that compute a register from two. -/
def Computes (word : Nat) : Prop :=
  xy 0x8 0x0 word ∨ xy 0x8 0x1 word ∨ xy 0x8 0x2 word ∨ xy 0x8 0x3 word ∨ Flags word

/-- Words that set the flag compute. -/
theorem computes_of_flags {word : Nat} (flags : Flags word) : Computes word :=
  .inr (.inr (.inr (.inr flags)))

/-- Words of arithmetic on two registers compute. -/
theorem computes_of_digit {kind : Arithmetic} {word : Nat} (form : xy 0x8 kind.digit word) :
    Computes word := by
  cases kind with
  | move => exact .inl form
  | or => exact .inr (.inl form)
  | and => exact .inr (.inr (.inl form))
  | xor => exact .inr (.inr (.inr (.inl form)))
  | add => exact computes_of_flags (.inl form)
  | sub => exact computes_of_flags (.inr (.inl form))
  | subNegated => exact computes_of_flags (.inr (.inr (.inr (.inl form))))

/-- Words of arithmetic with a flag set the flag. -/
theorem flags_of_digit {kind : Arithmetic} {word : Nat} (form : xy 0x8 kind.digit word)
    (flags : kind.hasFlag = true) : Flags word := by
  cases kind with
  | add => exact .inl form
  | sub => exact .inr (.inl form)
  | subNegated => exact .inr (.inr (.inr (.inl form)))
  | move | or | and | xor => exact Bool.noConfusion flags

/-- The words that touch the picture in a mode: a clear, a scroll that works there, a sprite. -/
def Paints (mode : Resolution) (word : Nat) : Prop :=
  word = 0x00E0 ∨ n 0x00C word ∨ nnn 0xD word ∨
    ((word = 0x00FB ∨ word = 0x00FC) ∧ mode = .high)

/-- The words that scroll in a mode: down in both, sideways in the high resolution only. -/
def Scrolls (mode : Resolution) (word : Nat) : Prop :=
  n 0x00C word ∨ ((word = 0x00FB ∨ word = 0x00FC) ∧ mode = .high)

/-- Words that scroll in a mode paint in it. -/
theorem paints_of_scrolls {mode : Resolution} {word : Nat} (scrolls : Scrolls mode word) :
    Paints mode word := by
  rcases scrolls with down | sideways
  · exact .inr (.inl down)
  · exact .inr (.inr (.inr sideways))

end Form

/-- The instructions that may change a component of a machine's state. -/
def Component.ChangedBy {δ : Type u} {κ : Type v} [KeySource κ] (component : Component)
    (machine : Machine δ κ) (word : Nat) : Prop :=
  match component with
  | memory => Form.x 0xF 0x33 word ∨ Form.x 0xF 0x55 word
  | register k =>
      (k.val = word / 0x100 % 0x10 ∧
        (Form.nnn 0x6 word ∨ Form.nnn 0x7 word ∨ Form.Computes word ∨ Form.nnn 0xC word ∨
          Form.x 0xF 0x07 word ∨ (Form.x 0xF 0x0A word ∧ ¬ machine.NoKeyHeld))) ∨
      (k.val ≤ word / 0x100 % 0x10 ∧ (Form.x 0xF 0x65 word ∨ Form.x 0xF 0x85 word)) ∨
      (k = Register.flag ∧ (Form.Flags word ∨ Form.nnn 0xD word ∨ Form.x 0xF 0x1E word))
  | index =>
      Form.nnn 0xA word ∨ Form.x 0xF 0x1E word ∨ Form.x 0xF 0x29 word ∨ Form.x 0xF 0x30 word
  | pc => True
  | callStack => word = 0x00EE ∨ Form.nnn 0x2 word
  | rpl => Form.x 0xF 0x75 word
  | delay => Form.x 0xF 0x15 word
  | sound => Form.x 0xF 0x18 word
  | resolution => word = 0x00FE ∨ word = 0x00FF
  | redraw => Form.Paints machine.state.resolution word
  | running | exitCode => Form.n 0x001 word ∨ word = 0x00FD

namespace Operation

/-- No operation reports that the machine is paused. -/
theorem status_ne_stopped (operation : Operation) (senses : Senses) :
    operation.status senses ≠ .stopped := by
  cases operation with
  | waitKey x =>
    dsimp only [status]
    split <;> simp
  | _ => exact Status.noConfusion

/-- Only a word that asks for nothing is reported as such. -/
theorem eq_unknown_of_status {operation : Operation} {senses : Senses} {word : Word}
    (unmapped : operation.status senses = .unmapped word) : operation = .unknown word := by
  cases operation with
  | unknown other => exact congrArg unknown (Status.unmapped.inj unmapped)
  | waitKey x =>
    dsimp only [status] at unmapped
    split at unmapped <;> simp at unmapped
  | _ => exact Status.noConfusion unmapped

/-- Just the words `CXKK` take a byte from the stream. -/
theorem isRandom_iff {operation : Operation} {word : Nat} (encoded : operation.Encodes word) :
    operation.isRandom = true ↔ Form.nnn 0xC word := by
  cases operation with
  | random x kk =>
    obtain ⟨form, -⟩ := encoded
    exact iff_of_true rfl form
  | skip choice | setResolution choice | scroll choice | glyph choice x =>
    refine iff_of_false Bool.noConfusion ?_
    cases choice <;>
    · dsimp only [Encodes] at encoded
      omega
  | system address =>
    obtain ⟨form, -⟩ := encoded
    have digit := form.1
    exact iff_of_false Bool.noConfusion (by omega)
  | unknown word =>
    obtain ⟨unbound, -⟩ := encoded
    unfold Form.Unbound at unbound
    exact iff_of_false Bool.noConfusion (by omega)
  | _ =>
    refine iff_of_false Bool.noConfusion ?_
    dsimp only [Encodes] at encoded
    omega

/-- A scroll works in a mode just when its word scrolls in it. -/
theorem worksIn_iff {toward : Scroll} {mode : Resolution} {word : Nat}
    (encoded : (scroll toward).Encodes word) :
    toward.worksIn mode = true ↔ Form.Scrolls mode word := by
  cases toward with
  | down rows => exact iff_of_true rfl (.inl encoded.1)
  | right =>
    dsimp only [Encodes] at encoded
    constructor
    · intro works
      exact .inr ⟨.inl encoded, eq_of_beq works⟩
    · rintro (down | ⟨-, high⟩)
      · omega
      · exact beq_iff_eq.mpr high
  | left =>
    dsimp only [Encodes] at encoded
    constructor
    · intro works
      exact .inr ⟨.inr encoded, eq_of_beq works⟩
    · rintro (down | ⟨-, high⟩)
      · omega
      · exact beq_iff_eq.mpr high

/-- Only the operations that paint call the screen. -/
theorem calls_of_not_paints {δ : Type u} [Screen δ] {operation : Operation} {word : Nat}
    (encoded : operation.Encodes word) (state : State) (screen : δ)
    (unpainted : ¬ Form.Paints state.resolution word) : operation.calls state screen = [] := by
  cases operation with
  | clear => exact absurd (.inl encoded) unpainted
  | draw x y n => exact absurd (.inr (.inr (.inl encoded.1))) unpainted
  | scroll toward =>
    have idle : toward.worksIn state.resolution = false :=
      Bool.eq_false_iff.mpr fun works =>
        unpainted (Form.paints_of_scrolls ((worksIn_iff encoded).mp works))
    have still : (scroll toward).strokes state = [] := by
      rw [strokes, Scroll.moves_of_not_works idle, List.map_nil]
    exact congrArg (Stroke.calls screen) still
  | _ => rfl

/-- Only they change it. -/
theorem screen_paint {δ : Type u} [Screen δ] {operation : Operation} {word : Nat}
    (encoded : operation.Encodes word) (state : State) (screen : δ)
    (unpainted : ¬ Form.Paints state.resolution word) :
    (operation.paint state screen).screen = screen := by
  rw [screen_paint_eq, calls_of_not_paints encoded state screen unpainted]
  rfl

end Operation

namespace State

/-- No operation takes back that the picture was touched. -/
theorem redraw_execute_of_redraw (state : State) (operation : Operation) (senses : Senses)
    (touched : state.redraw = true) : (state.execute operation senses).redraw = true := by
  by_cases owned : operation.Owns state senses .redraw
  · cases operation with
    | clear | draw x y n => rfl
    | scroll toward =>
      simp only [execute, owned.2, ↓reduceIte]
      rfl
    | waitKey x => rcases Operation.eq_of_owns_waitKey owned with same | same <;> cases same
    | _ => simp [Operation.Owns] at owned
  · have kept : (state.execute operation senses).redraw = state.redraw :=
      agrees_execute state operation senses owned
    exact kept.trans touched

end State

namespace Machine

variable {δ : Type u} {κ : Type v} [KeySource κ]

/-- What one instruction may change of a machine. -/
structure Footprint (before after : Machine δ κ) : Prop where
  state (component : Component) : ¬ component.Agrees after.state before.state →
    component.ChangedBy before before.state.wordNumber
  redraw : before.state.redraw = true → after.state.redraw = true
  screen : after.screen ≠ before.screen →
    Form.Paints before.state.resolution before.state.wordNumber
  random : after.random =
    if Form.nnn 0xC before.state.wordNumber then before.random.advance else before.random
  keys : after.keys = before.keys
  timing : after.timing = before.timing

variable [Screen δ] (machine : Machine δ κ)

/-- What the operation of a word owns, the word changes. -/
theorem changedBy_of_owns {operation : Operation} {component : Component}
    {word : Nat} (encoded : operation.Encodes word)
    (owned : operation.Owns machine.state.advance machine.senses component) :
    component.ChangedBy machine word := by
  -- A word whose target is the flag register has two reasons to change it; the owner picks one.
  cases operation with
  | exit code =>
    rcases owned with rfl | rfl <;> exact .inl encoded.1
  | halt =>
    rcases owned with rfl | rfl <;> exact .inr encoded
  | clear =>
    obtain rfl := owned
    exact .inl encoded
  | scroll toward =>
    obtain ⟨rfl, works⟩ := owned
    exact Form.paints_of_scrolls ((Operation.worksIn_iff encoded).mp works)
  | setResolution mode =>
    obtain rfl := owned
    cases mode with
    | low => exact .inl encoded
    | high => exact .inr encoded
  | system address | jump address | jumpOffset address | skip condition =>
    obtain rfl := owned
    trivial
  | call address =>
    rcases owned with rfl | rfl
    · trivial
    · exact .inr encoded.1
  | ret =>
    rcases owned with rfl | rfl
    · trivial
    · exact .inl encoded
  | loadByte x kk =>
    obtain rfl := owned
    exact .inl ⟨encoded.2.1, .inl encoded.1⟩
  | addByte x kk =>
    obtain rfl := owned
    exact .inl ⟨encoded.2.1, .inr (.inl encoded.1)⟩
  | arithmetic kind x y =>
    obtain ⟨form, place, -⟩ := encoded
    rcases owned with rfl | ⟨rfl, flags⟩
    · exact .inl ⟨place, .inr (.inr (.inl (Form.computes_of_digit form)))⟩
    · exact .inr (.inr ⟨rfl, .inl (Form.flags_of_digit form flags)⟩)
  | shiftRight x =>
    obtain ⟨form, place⟩ := encoded
    have flags : Form.Flags word := .inr (.inr (.inl form))
    rcases owned with rfl | rfl
    · exact .inl ⟨place, .inr (.inr (.inl (Form.computes_of_flags flags)))⟩
    · exact .inr (.inr ⟨rfl, .inl flags⟩)
  | shiftLeft x =>
    obtain ⟨form, place⟩ := encoded
    have flags : Form.Flags word := .inr (.inr (.inr (.inr form)))
    rcases owned with rfl | rfl
    · exact .inl ⟨place, .inr (.inr (.inl (Form.computes_of_flags flags)))⟩
    · exact .inr (.inr ⟨rfl, .inl flags⟩)
  | random x kk =>
    obtain rfl := owned
    exact .inl ⟨encoded.2.1, .inr (.inr (.inr (.inl encoded.1)))⟩
  | loadDelay x =>
    obtain rfl := owned
    exact .inl ⟨encoded.2, .inr (.inr (.inr (.inr (.inl encoded.1))))⟩
  | draw x y n =>
    rcases owned with rfl | rfl
    · exact .inr (.inr (.inl encoded.1))
    · exact .inr (.inr ⟨rfl, .inr (.inl encoded.1)⟩)
  | waitKey x =>
    simp only [Operation.Owns, lowestHeld?_senses] at owned
    split at owned
    · next pressed =>
      obtain rfl := owned
      exact .inl ⟨encoded.2, .inr (.inr (.inr (.inr (.inr ⟨encoded.1, pressed⟩))))⟩
    · obtain rfl := owned
      trivial
  | setDelay x | setSound x | storeRpl x =>
    obtain rfl := owned
    exact encoded.1
  | loadIndex address =>
    obtain rfl := owned
    exact .inl encoded.1
  | glyph font x =>
    obtain rfl := owned
    cases font with
    | small => exact .inr (.inr (.inl encoded.1))
    | large => exact .inr (.inr (.inr encoded.1))
  | addIndex x =>
    rcases owned with rfl | rfl
    · exact .inr (.inl encoded.1)
    · exact .inr (.inr ⟨rfl, .inr (.inr encoded.1)⟩)
  | bcd x =>
    obtain rfl := owned
    exact .inl encoded.1
  | storeRegisters x =>
    obtain rfl := owned
    exact .inr encoded.1
  | loadRegisters x =>
    obtain ⟨k, rfl, within⟩ := owned
    exact .inr (.inl ⟨encoded.2 ▸ within, .inl encoded.1⟩)
  | loadRpl x =>
    obtain ⟨k, rfl, within⟩ := owned
    exact .inr (.inl ⟨encoded.2 ▸ within, .inr encoded.1⟩)
  | unknown unbound => exact owned.elim

/-- An instruction stays within the footprint of its word. -/
theorem footprint_execute : machine.Footprint machine.execute.machine where
  state component changed := by
    by_cases counter : component = .pc
    · subst counter
      trivial
    · by_cases owned : machine.operation.Owns machine.state.advance machine.senses component
      · exact machine.changedBy_of_owns machine.encodes_operation owned
      · rw [state_execute] at changed
        exact absurd ((State.agrees_execute _ _ _ owned).trans
          (machine.state.agrees_advance counter)) changed
  redraw touched := by
    rw [state_execute]
    exact State.redraw_execute_of_redraw _ _ _ touched
  screen changed := by
    by_cases paints : Form.Paints machine.state.resolution machine.state.wordNumber
    · exact paints
    · rw [screen_execute] at changed
      exact absurd (Operation.screen_paint machine.encodes_operation machine.state.advance _
        paints) changed
  random := by
    rw [random_execute]
    simp only [Operation.isRandom_iff machine.encodes_operation]
  keys := rfl
  timing := rfl

/-- A word that asks for nothing moves the program counter and nothing else. -/
theorem machine_execute_of_unbound (unbound : Form.Unbound machine.state.wordNumber) :
    machine.execute.machine = { machine with state := machine.state.advance } := by
  have unmapped := machine.report_of_unbound unbound
  rw [← reply_execute_eq_report, reply_execute] at unmapped
  have unknown := Operation.eq_unknown_of_status unmapped
  simp only [execute, unknown]
  rfl

/-- **The footprint of a step.** After an exit, and when it reports a pause, a step changes and
notes nothing. Any other step changes at most what the instruction at the program counter owns;
a word that asks for nothing only moves the program counter. -/
theorem step_footprint :
    (∀ code, machine.state.exitCode = some code →
      machine.step = machine.answer (.halted code)) ∧
    (machine.step.reply = .stopped → machine.step = machine.answer .stopped) ∧
    (machine.state.exitCode = none → machine.state.running = true →
      machine.Footprint machine.step.machine ∧
      (Form.Unbound machine.state.wordNumber →
        machine.step.machine = { machine with state := machine.state.advance })) := by
  refine ⟨fun code exited => step_of_exited exited, ?_, ?_⟩
  · intro stopped
    cases exited : machine.state.exitCode with
    | some code =>
      rw [step_of_exited exited] at stopped
      exact absurd stopped (by simp [answer])
    | none =>
      cases running : machine.state.running with
      | false => exact step_of_paused exited running
      | true =>
        rw [step_of_running exited running, reply_execute] at stopped
        exact absurd stopped (Operation.status_ne_stopped _ _)
  · intro unfinished running
    rw [step_of_running unfinished running]
    exact ⟨machine.footprint_execute, machine.machine_execute_of_unbound⟩

/-- A machine in low resolution that is told to scroll right. -/
def scrolling : Machine Uniform Keypad :=
  { comparing with
    state :=
      { State.initial with
        memory := Memory.blank.writeList Address.programStart [0x00, 0xFB] } }

/-- In low resolution the scroll only moves the program counter; paused, or after an exit, the
machine does not even do that. -/
theorem step_footprint_scrolling :
    scrolling.state.exitCode = none ∧ scrolling.state.running = true ∧
      (∀ component : Component, component ≠ .pc →
        component.Agrees scrolling.step.machine.state scrolling.state) ∧
      scrolling.step.machine.screen = scrolling.screen ∧
      (scrolling.setRunning false).step = (scrolling.setRunning false).answer .stopped ∧
      ({ scrolling with state := scrolling.state.exit 3 } : Machine Uniform Keypad).step.reply =
        .halted 3 := by
  obtain ⟨-, -, executed⟩ := step_footprint scrolling
  obtain ⟨-, paused, -⟩ := step_footprint (scrolling.setRunning false)
  obtain ⟨exited, -, -⟩ :=
    step_footprint ({ scrolling with state := scrolling.state.exit 3 } : Machine Uniform Keypad)
  obtain ⟨footprint, -⟩ := executed rfl rfl
  have word : scrolling.state.wordNumber = 0x00FB := by decide +kernel
  have mode : scrolling.state.resolution = .low := rfl
  refine ⟨rfl, rfl, ?_, ?_, paused rfl, ?_⟩
  · intro component counter
    have unowned : ¬ component.ChangedBy scrolling scrolling.state.wordNumber := by
      rw [word]
      cases component with
      | pc => exact absurd rfl counter
      | _ =>
        simp [Component.ChangedBy, Form.n, Form.nnn, Form.x, Form.xy, Form.Computes, Form.Flags,
          Form.Paints, mode]
    exact Classical.byContradiction fun differs => unowned (footprint.state component differs)
  · have unpainted : ¬ Form.Paints scrolling.state.resolution scrolling.state.wordNumber := by
      rw [word, mode]
      simp [Form.Paints, Form.n, Form.nnn]
    exact Classical.byContradiction fun differs => unpainted (footprint.screen differs)
  · rw [exited 3 rfl]
    rfl

end Machine

end SuperChip
