import SuperChip.Proofs.Execution
import SuperChip.Screen.Recorded

/-!
# Control flow

Where control goes after an instruction and what a step reports, both read off
the word at the program counter, the registers, the call stack and the keys as
they are before the step. A machine whose sums are checked does the same, but
for `FX1E` where the index and the register need more than sixteen bits: from
such a step it does not come back.
-/

namespace SuperChip

universe u v

namespace Form

/-- Two skips with the same operands whose conditions are opposite: `3XKK` and `4XKK`, `5XY*`
and `9XY*`, `EX9E` and `EXA1`. -/
def Opposite (first second : Nat) : Prop :=
  (nnn 0x3 first ∧ nnn 0x4 second ∧ first % 0x1000 = second % 0x1000) ∨
  (nnn 0x5 first ∧ nnn 0x9 second ∧ first / 0x10 % 0x100 = second / 0x10 % 0x100) ∨
  (x 0xE 0x9E first ∧ x 0xE 0xA1 second ∧ first / 0x100 = second / 0x100)

instance (first second : Nat) : Decidable (Opposite first second) :=
  inferInstanceAs (Decidable (_ ∨ _))

/-- The skips that depend on a condition. -/
def Conditional (word : Nat) : Prop :=
  nnn 0x3 word ∨ nnn 0x4 word ∨ nnn 0x5 word ∨ nnn 0x9 word ∨ x 0xE 0x9E word ∨
    x 0xE 0xA1 word

/-- The words after which control falls through. -/
def Plain (word : Nat) : Prop :=
  ¬ nnn 0x1 word ∧ ¬ nnn 0x2 word ∧ ¬ nnn 0xB word ∧ word ≠ 0x00EE ∧ ¬ Routine word ∧
    ¬ Conditional word ∧ ¬ x 0xF 0x0A word

/-- The words that ask for an operation which runs on, and neither exits nor waits. -/
def Quiet (word : Nat) : Prop :=
  ¬ n 0x001 word ∧ word ≠ 0x00FD ∧ ¬ x 0xF 0x0A word ∧ ¬ Unbound word

/-- Opposite skips are both conditional. -/
theorem conditional_of_opposite {first second : Nat} (opposite : Opposite first second) :
    Conditional first ∧ Conditional second := by
  unfold Opposite at opposite
  unfold Conditional
  omega

end Form

namespace Operation

/-- The operations that never send control anywhere. -/
def FallsThrough : Operation → Prop
  | system _ | jump _ | jumpOffset _ | call _ | ret | skip _ | waitKey _ => False
  | _ => True

/-- The operations that report nothing but that they ran. -/
def RunsOn : Operation → Prop
  | exit _ | halt | waitKey _ | unknown _ => False
  | _ => True

variable {operation : Operation} {word : Nat}

/-- The words of an operation that falls through are plain. -/
theorem plain_of_encodes (encoded : operation.Encodes word) (falls : operation.FallsThrough) :
    Form.Plain word := by
  unfold Form.Plain Form.Conditional Form.Routine
  cases operation with
  | system address | jump address | jumpOffset address | call address => exact falls.elim
  | ret => exact falls.elim
  | skip condition => exact falls.elim
  | waitKey x => exact falls.elim
  | scroll choice | setResolution choice | glyph choice x =>
    cases choice <;>
    · dsimp only [Encodes] at encoded
      omega
  | unknown word =>
    obtain ⟨unbound, -⟩ := encoded
    unfold Form.Unbound at unbound
    omega
  | _ =>
    dsimp only [Encodes] at encoded
    omega

/-- The words of an operation that only runs on are quiet. -/
theorem quiet_of_encodes (encoded : operation.Encodes word) (runs : operation.RunsOn) :
    Form.Quiet word := by
  unfold Form.Quiet Form.Unbound
  cases operation with
  | exit code | unknown word => exact runs.elim
  | halt => exact runs.elim
  | waitKey x => exact runs.elim
  | scroll choice | setResolution choice | glyph choice x | skip choice =>
    cases choice <;>
    · dsimp only [Encodes] at encoded
      omega
  | system address =>
    obtain ⟨form, -⟩ := encoded
    unfold Form.Routine at form
    omega
  | arithmetic kind x y =>
    obtain ⟨form, -⟩ := encoded
    cases kind <;>
    · dsimp only [Arithmetic.digit] at form
      omega
  | _ =>
    dsimp only [Encodes] at encoded
    omega

end Operation

namespace State

/-- The register that the second digit of a word names. -/
def vx (state : State) (word : Nat) : UInt8 :=
  state.registers.get (Fin.ofNat 16 (word / 0x100))

/-- The register that the third digit of a word names. -/
def vy (state : State) (word : Nat) : UInt8 :=
  state.registers.get (Fin.ofNat 16 (word / 0x10))

/-- The first register of a word depends on the registers and the second digit only. -/
theorem vx_congr {first second : State} {here there : Nat}
    (registers : first.registers = second.registers)
    (same : here / 0x100 % 0x10 = there / 0x100 % 0x10) : first.vx here = second.vx there := by
  rw [vx, vx, registers]
  exact congrArg second.registers.get (Fin.ext same)

/-- The second register of a word depends on the registers and the third digit only. -/
theorem vy_congr {first second : State} {here there : Nat}
    (registers : first.registers = second.registers)
    (same : here / 0x10 % 0x10 = there / 0x10 % 0x10) : first.vy here = second.vy there := by
  rw [vy, vy, registers]
  exact congrArg second.registers.get (Fin.ext same)

/-- The register that an operation reads is the one that its word names. -/
theorem get_eq_vx (state : State) {x : Register} {word : Nat}
    (place : x.val = word / 0x100 % 0x10) : state.registers.get x = state.vx word :=
  congrArg state.registers.get (Fin.ext place)

/-- The second register that an operation reads is the one that its word names. -/
theorem get_eq_vy (state : State) {y : Register} {word : Nat}
    (place : y.val = word / 0x10 % 0x10) : state.registers.get y = state.vy word :=
  congrArg state.registers.get (Fin.ext place)

end State

namespace Machine

/-- A running machine makes a sum that leaves sixteen bits just when it runs `FX1E` on an index
that the register takes there. -/
theorem overflows_iff {δ : Type u} {κ : Type v} {machine : Machine δ κ}
    (unfinished : machine.state.exitCode = none) (running : machine.state.running = true) :
    machine.overflows = true ↔
      Form.x 0xF 0x1E machine.state.wordNumber ∧
        0x10000 ≤ machine.state.index.toNat +
          (machine.state.vx machine.state.wordNumber).toNat := by
  have encoded := machine.encodes_operation
  have active : machine.overflows = machine.operation.overflows machine.state.advance := by
    simp only [overflows, unfinished, running, Option.isNone_none, Bool.and_true, Bool.true_and]
  rw [active, Operation.overflows_iff encoded]
  constructor
  · rintro ⟨x, adds, leaves⟩
    rw [adds] at encoded
    obtain ⟨form, place⟩ := encoded
    rw [← machine.state.get_eq_vx place]
    exact ⟨form, of_decide_eq_true leaves⟩
  · rintro ⟨form, leaves⟩
    rw [← State.toNat_word] at form leaves
    refine ⟨Word.x machine.state.word, Operation.decode_of_encodes ⟨form, rfl⟩, decide_eq_true ?_⟩
    exact leaves

variable {δ : Type u} {κ : Type v} [KeySource κ]

/-- Whether a value names one of the sixteen keys and this key is held. -/
def HoldsKey (machine : Machine δ κ) (key : UInt8) : Prop :=
  key.toNat < 16 ∧ KeySource.pressed machine.keys key = true

/-- Whether none of the sixteen keys is held. -/
def NoKeyHeld (machine : Machine δ κ) : Prop :=
  ∀ key : Fin 16, KeySource.pressed machine.keys (UInt8.ofNat key.val) = false

/-- Whether a word is a conditional skip whose condition holds. -/
def SkipHolds (machine : Machine δ κ) (word : Nat) : Prop :=
  (Form.nnn 0x3 word ∧ (machine.state.vx word).toNat = word % 0x100) ∨
  (Form.nnn 0x4 word ∧ (machine.state.vx word).toNat ≠ word % 0x100) ∨
  (Form.nnn 0x5 word ∧ machine.state.vx word = machine.state.vy word) ∨
  (Form.nnn 0x9 word ∧ machine.state.vx word ≠ machine.state.vy word) ∨
  (Form.x 0xE 0x9E word ∧ machine.HoldsKey (machine.state.vx word)) ∨
  (Form.x 0xE 0xA1 word ∧ ¬ machine.HoldsKey (machine.state.vx word))

instance (machine : Machine δ κ) (key : UInt8) : Decidable (machine.HoldsKey key) :=
  inferInstanceAs (Decidable (_ ∧ _))

instance (machine : Machine δ κ) : Decidable machine.NoKeyHeld :=
  inferInstanceAs (Decidable (∀ _ : Fin 16, _))

instance (machine : Machine δ κ) (word : Nat) : Decidable (machine.SkipHolds word) :=
  inferInstanceAs (Decidable (_ ∨ _))

/-- Where control goes from here. -/
def successor (machine : Machine δ κ) : Nat :=
  let word := machine.state.wordNumber
  let pc := machine.state.pc.toNat
  if Form.nnn 0x1 word ∨ (Form.nnn 0x2 word ∧ machine.state.callStack.depth < 16) then
    word % 0x1000
  else if Form.nnn 0xB word then
    (word % 0x1000 + (machine.state.registers.get Register.zero).toNat) % 0x1000
  else if word = 0x00EE then
    match machine.state.callStack.toList.getLast? with
    | some address => address.toNat % 0x1000
    | none => (pc + 2) % 0x1000
  else if Form.Routine word ∨ machine.SkipHolds word then
    (pc + 4) % 0x1000
  else if Form.x 0xF 0x0A word ∧ machine.NoKeyHeld then
    pc % 0x1000
  else
    (pc + 2) % 0x1000

/-- What the instruction here reports. -/
def report (machine : Machine δ κ) : Status :=
  let word := machine.state.wordNumber
  if Form.n 0x001 word then
    .halted (UInt8.ofNat (word % 0x10))
  else if word = 0x00FD then
    .halted 0
  else if Form.x 0xF 0x0A word ∧ machine.NoKeyHeld then
    .waitingForKey
  else if Form.Unbound word then
    .unmapped (UInt16.ofNat word)
  else
    .running

section Words

variable (machine : Machine δ κ) {word : Nat}

/-- Only conditional skips have a condition that holds. -/
theorem conditional_of_skipHolds (holds : machine.SkipHolds word) : Form.Conditional word := by
  rcases holds with ⟨form, -⟩ | ⟨form, -⟩ | ⟨form, -⟩ | ⟨form, -⟩ | ⟨form, -⟩ | ⟨form, -⟩
  · exact .inl form
  · exact .inr (.inl form)
  · exact .inr (.inr (.inl form))
  · exact .inr (.inr (.inr (.inl form)))
  · exact .inr (.inr (.inr (.inr (.inl form))))
  · exact .inr (.inr (.inr (.inr (.inr form))))

/-- Calls and the words of the last family pass over nothing. -/
theorem not_routine_or_skipHolds (digit : Form.nnn 0x2 word ∨ Form.nnn 0xF word) :
    ¬ (Form.Routine word ∨ machine.SkipHolds word) := by
  rintro (routine | holds)
  · have low := routine.1
    omega
  · have conditional := machine.conditional_of_skipHolds holds
    unfold Form.Conditional at conditional
    omega

/-- The condition of `3XKK`. -/
theorem skipHolds_equalByte (form : Form.nnn 0x3 word) :
    machine.SkipHolds word ↔ (machine.state.vx word).toNat = word % 0x100 := by
  have digit : word / 0x1000 = 0x3 := form
  simp [SkipHolds, Form.nnn, Form.x, digit]

/-- The condition of `4XKK`. -/
theorem skipHolds_notEqualByte (form : Form.nnn 0x4 word) :
    machine.SkipHolds word ↔ (machine.state.vx word).toNat ≠ word % 0x100 := by
  have digit : word / 0x1000 = 0x4 := form
  simp [SkipHolds, Form.nnn, Form.x, digit]

/-- The condition of `5XY*`. -/
theorem skipHolds_equalRegister (form : Form.nnn 0x5 word) :
    machine.SkipHolds word ↔ machine.state.vx word = machine.state.vy word := by
  have digit : word / 0x1000 = 0x5 := form
  simp [SkipHolds, Form.nnn, Form.x, digit]

/-- The condition of `9XY*`. -/
theorem skipHolds_notEqualRegister (form : Form.nnn 0x9 word) :
    machine.SkipHolds word ↔ machine.state.vx word ≠ machine.state.vy word := by
  have digit : word / 0x1000 = 0x9 := form
  simp [SkipHolds, Form.nnn, Form.x, digit]

/-- The condition of `EX9E`. -/
theorem skipHolds_pressed (form : Form.x 0xE 0x9E word) :
    machine.SkipHolds word ↔ machine.HoldsKey (machine.state.vx word) := by
  obtain ⟨digit, low⟩ := form
  simp [SkipHolds, Form.nnn, Form.x, digit, low]

/-- The condition of `EXA1`. -/
theorem skipHolds_notPressed (form : Form.x 0xE 0xA1 word) :
    machine.SkipHolds word ↔ ¬ machine.HoldsKey (machine.state.vx word) := by
  obtain ⟨digit, low⟩ := form
  simp [SkipHolds, Form.nnn, Form.x, digit, low]

end Words

section Here

variable (machine : Machine δ κ)

/-- After `1NNN` control is at the address of the word. -/
theorem successor_of_jump (form : Form.nnn 0x1 machine.state.wordNumber) :
    machine.successor = machine.state.wordNumber % 0x1000 :=
  if_pos (.inl form)

/-- After `BNNN` control is at the sum of address and register zero, round the end of memory. -/
theorem successor_of_jumpOffset (form : Form.nnn 0xB machine.state.wordNumber) :
    machine.successor = (machine.state.wordNumber % 0x1000 +
      (machine.state.registers.get Register.zero).toNat) % 0x1000 := by
  unfold successor
  dsimp only
  rw [if_neg (by omega), if_pos form]

/-- After `00EE` control is at the address saved last, or past the instruction if none is saved. -/
theorem successor_of_ret (form : machine.state.wordNumber = 0x00EE) :
    machine.successor =
      match machine.state.callStack.toList.getLast? with
      | some address => address.toNat % 0x1000
      | none => (machine.state.pc.toNat + 2) % 0x1000 := by
  unfold successor
  dsimp only
  rw [if_neg (by omega), if_neg (by omega), if_pos form]

/-- Words that do not name or keep an address skip, wait or fall through. -/
theorem successor_of_relative (notJump : ¬ Form.nnn 0x1 machine.state.wordNumber)
    (notCall : Form.nnn 0x2 machine.state.wordNumber → 16 ≤ machine.state.callStack.depth)
    (notOffset : ¬ Form.nnn 0xB machine.state.wordNumber)
    (notRet : machine.state.wordNumber ≠ 0x00EE) :
    machine.successor =
      if Form.Routine machine.state.wordNumber ∨
          machine.SkipHolds machine.state.wordNumber then
        (machine.state.pc.toNat + 4) % 0x1000
      else if Form.x 0xF 0x0A machine.state.wordNumber ∧ machine.NoKeyHeld then
        machine.state.pc.toNat % 0x1000
      else
        (machine.state.pc.toNat + 2) % 0x1000 := by
  unfold successor
  dsimp only
  rw [if_neg (by omega), if_neg notOffset, if_neg notRet]

/-- After `2NNN` control is at the address of the word, or past the instruction if the stack is
full. -/
theorem successor_of_call (form : Form.nnn 0x2 machine.state.wordNumber) :
    machine.successor =
      if machine.state.callStack.depth < 16 then machine.state.wordNumber % 0x1000
      else (machine.state.pc.toNat + 2) % 0x1000 := by
  by_cases room : machine.state.callStack.depth < 16
  · rw [if_pos room]
    exact if_pos (.inr ⟨form, room⟩)
  · have stays := machine.not_routine_or_skipHolds (.inl form)
    rw [successor_of_relative machine (by omega) (by omega) (by omega) (by omega), if_neg stays,
      if_neg (by omega), if_neg room]

/-- A routine is passed over together with the instruction after it. -/
theorem successor_of_routine (form : Form.Routine machine.state.wordNumber) :
    machine.successor = (machine.state.pc.toNat + 4) % 0x1000 := by
  have digit := form.1
  have notRet : machine.state.wordNumber ≠ 0x00EE := by
    unfold Form.Routine at form
    omega
  rw [successor_of_relative machine (by omega) (by omega) (by omega) notRet, if_pos (.inl form)]

/-- A skip passes over the next instruction where its condition holds. -/
theorem successor_of_conditional (form : Form.Conditional machine.state.wordNumber) :
    machine.successor =
      if machine.SkipHolds machine.state.wordNumber then (machine.state.pc.toNat + 4) % 0x1000
      else (machine.state.pc.toNat + 2) % 0x1000 := by
  have notRoutine : ¬ Form.Routine machine.state.wordNumber := by
    unfold Form.Routine
    unfold Form.Conditional at form
    omega
  unfold Form.Conditional at form
  rw [successor_of_relative machine (by omega) (by omega) (by omega) (by omega)]
  by_cases holds : machine.SkipHolds machine.state.wordNumber
  · rw [if_pos (.inr holds), if_pos holds]
  · rw [if_neg (not_or.mpr ⟨notRoutine, holds⟩), if_neg (by omega), if_neg holds]

/-- A wait stays where it is until a key is held. -/
theorem successor_of_wait (form : Form.x 0xF 0x0A machine.state.wordNumber) :
    machine.successor =
      if machine.NoKeyHeld then machine.state.pc.toNat % 0x1000
      else (machine.state.pc.toNat + 2) % 0x1000 := by
  have stays := machine.not_routine_or_skipHolds (.inr form.1)
  rw [successor_of_relative machine (by omega) (by omega) (by omega) (by omega), if_neg stays]
  by_cases waits : machine.NoKeyHeld
  · rw [if_pos ⟨form, waits⟩, if_pos waits]
  · rw [if_neg fun wait => waits wait.2, if_neg waits]

/-- After a plain word control falls through. -/
theorem successor_of_plain (plain : Form.Plain machine.state.wordNumber) :
    machine.successor = (machine.state.pc.toNat + 2) % 0x1000 := by
  obtain ⟨notJump, notCall, notOffset, notRet, notRoutine, notConditional, notWait⟩ := plain
  have stays : ¬ machine.SkipHolds machine.state.wordNumber :=
    fun holds => notConditional (machine.conditional_of_skipHolds holds)
  rw [successor_of_relative machine notJump (fun form => absurd form notCall) notOffset notRet,
    if_neg (not_or.mpr ⟨notRoutine, stays⟩), if_neg fun wait => notWait wait.1]

/-- A quiet word reports that it ran. -/
theorem report_of_quiet (quiet : Form.Quiet machine.state.wordNumber) :
    machine.report = .running := by
  obtain ⟨notExit, notHalt, notWait, bound⟩ := quiet
  unfold report
  dsimp only
  rw [if_neg notExit, if_neg notHalt, if_neg fun wait => notWait wait.1, if_neg bound]

/-- A wait reports that it waits, unless a key is held. -/
theorem report_of_wait (form : Form.x 0xF 0x0A machine.state.wordNumber) :
    machine.report = if machine.NoKeyHeld then .waitingForKey else .running := by
  have bound : ¬ Form.Unbound machine.state.wordNumber := by
    unfold Form.Unbound
    omega
  unfold report
  dsimp only
  rw [if_neg (by omega), if_neg (by omega), if_neg bound]
  by_cases waits : machine.NoKeyHeld
  · rw [if_pos ⟨form, waits⟩, if_pos waits]
  · rw [if_neg fun wait => waits wait.2, if_neg waits]

/-- A word that asks for nothing reports itself. -/
theorem report_of_unbound (form : Form.Unbound machine.state.wordNumber) :
    machine.report = .unmapped (UInt16.ofNat machine.state.wordNumber) := by
  have family : ¬ Form.n 0x001 machine.state.wordNumber ∧ machine.state.wordNumber ≠ 0x00FD ∧
      ¬ Form.x 0xF 0x0A machine.state.wordNumber := by
    unfold Form.Unbound at form
    omega
  obtain ⟨notExit, notHalt, notWait⟩ := family
  unfold report
  dsimp only
  rw [if_neg notExit, if_neg notHalt, if_neg fun wait => notWait wait.1, if_pos form]

end Here

section Execute

variable [Screen δ] (machine : Machine δ κ)

/-- A lowest key is perceived unless no key is held. -/
theorem lowestHeld?_senses : machine.senses.lowestHeld?.isSome = true ↔ ¬ machine.NoKeyHeld := by
  rw [← Option.ne_none_iff_isSome, Ne, Senses.lowestHeld?_eq_none_iff]
  rfl

/-- A value is perceived as held just when it names a key that is held. -/
theorem holds_senses (key : UInt8) : machine.senses.holds key = true ↔ machine.HoldsKey key := by
  unfold Senses.holds HoldsKey
  split
  · next known =>
    have same : UInt8.ofNat key.toNat = key := UInt8.ofNat_toNat
    simp only [senses, held, same, known, true_and]
  · next unknown => simp only [unknown, Bool.false_eq_true, false_and]

/-- The condition that an operation tests is the condition of its word. -/
theorem met_iff_skipHolds {condition : Condition} {word : Nat}
    (encoded : (Operation.skip condition).Encodes word) :
    condition.met machine.state.advance machine.senses = true ↔ machine.SkipHolds word := by
  have registers : machine.state.advance.registers = machine.state.registers := rfl
  cases condition with
  | equalByte x kk =>
    obtain ⟨form, place, value⟩ := encoded
    rw [skipHolds_equalByte machine form]
    simp only [Condition.met, registers, State.get_eq_vx _ place, beq_iff_eq,
      ← UInt8.toNat_inj, value]
  | notEqualByte x kk =>
    obtain ⟨form, place, value⟩ := encoded
    rw [skipHolds_notEqualByte machine form]
    simp only [Condition.met, registers, State.get_eq_vx _ place, bne_iff_ne, ne_eq,
      ← UInt8.toNat_inj, value]
  | equalRegister x y =>
    obtain ⟨form, placeX, placeY⟩ := encoded
    rw [skipHolds_equalRegister machine form]
    simp only [Condition.met, registers, State.get_eq_vx _ placeX, State.get_eq_vy _ placeY,
      beq_iff_eq]
  | notEqualRegister x y =>
    obtain ⟨form, placeX, placeY⟩ := encoded
    rw [skipHolds_notEqualRegister machine form]
    simp only [Condition.met, registers, State.get_eq_vx _ placeX, State.get_eq_vy _ placeY,
      bne_iff_ne]
  | pressed x =>
    obtain ⟨form, place⟩ := encoded
    rw [skipHolds_pressed machine form]
    simp only [Condition.met, registers, State.get_eq_vx _ place, holds_senses]
  | notPressed x =>
    obtain ⟨form, place⟩ := encoded
    rw [skipHolds_notPressed machine form]
    simp only [Condition.met, registers, State.get_eq_vx _ place, Bool.not_eq_true',
      ← Bool.not_eq_true, holds_senses]

/-- From past an instruction, two further is four further than the instruction. -/
theorem toNat_masked_add_two_advance (state : State) :
    (Address.masked (state.advance.pc + 2)).toNat = (state.pc.toNat + 4) % 0x1000 := by
  have past := State.toNat_pc_advance state
  simp only [Address.toNat_masked, UInt16.toNat_add, UInt16.reduceToNat]
  omega

/-- From past an instruction, two back is the instruction again. -/
theorem toNat_masked_sub_two_advance (state : State) :
    (Address.masked (state.advance.pc - 2)).toNat = state.pc.toNat % 0x1000 := by
  have past := State.toNat_pc_advance state
  simp only [Address.toNat_masked, UInt16.toNat_sub, UInt16.reduceToNat]
  omega

/-- The words of a skip are conditional. -/
theorem conditional_of_encodes {condition : Condition} {word : Nat}
    (encoded : (Operation.skip condition).Encodes word) : Form.Conditional word := by
  unfold Form.Conditional
  cases condition with
  | equalByte x kk | notEqualByte x kk | equalRegister x y | notEqualRegister x y | pressed x
  | notPressed x =>
    dsimp only [Operation.Encodes] at encoded
    omega

/-- **Control goes to the successor.** -/
theorem toNat_pc_execute : machine.execute.machine.state.pc.toNat = machine.successor := by
  have encoded := machine.encodes_operation
  have falls := State.toNat_pc_advance machine.state
  have callStack : machine.state.advance.callStack = machine.state.callStack := rfl
  rw [state_execute, State.pc_execute]
  -- Seven operations may choose where control goes; the word alone shows that the others do not.
  cases operation : machine.operation with
  | system address =>
    rw [operation] at encoded
    change (Address.masked (machine.state.advance.pc + 2)).toNat = machine.successor
    rw [toNat_masked_add_two_advance, successor_of_routine machine encoded.1]
  | jump address =>
    rw [operation] at encoded
    obtain ⟨form, value⟩ := encoded
    change (Address.masked address).toNat = machine.successor
    rw [Address.toNat_masked, value, successor_of_jump machine form, Nat.mod_mod]
  | jumpOffset address =>
    rw [operation] at encoded
    obtain ⟨form, value⟩ := encoded
    change (Address.masked (address +
      (machine.state.registers.get Register.zero).toUInt16)).toNat = machine.successor
    rw [Address.toNat_masked, UInt16.toNat_add, UInt8.toNat_toUInt16, value,
      successor_of_jumpOffset machine form]
    omega
  | call address =>
    rw [operation] at encoded
    obtain ⟨form, value⟩ := encoded
    rw [successor_of_call machine form]
    dsimp only [Operation.target?]
    simp only [CallStack.isOk_push_iff, callStack]
    split
    · next room =>
      change (Address.masked address).toNat = machine.state.wordNumber % 0x1000
      rw [Address.toNat_masked, value, Nat.mod_mod]
    · next full => exact falls
  | ret =>
    rw [operation] at encoded
    rw [successor_of_ret machine encoded]
    dsimp only [Operation.target?]
    rw [CallStack.map_fst_pop?, callStack]
    cases machine.state.callStack.toList.getLast? with
    | none => exact falls
    | some address => exact Address.toNat_masked address
  | skip condition =>
    rw [operation] at encoded
    rw [successor_of_conditional machine (conditional_of_encodes encoded)]
    dsimp only [Operation.target?]
    simp only [machine.met_iff_skipHolds encoded]
    split
    · next skips => exact toNat_masked_add_two_advance machine.state
    · next stays => exact falls
  | waitKey x =>
    rw [operation] at encoded
    rw [successor_of_wait machine encoded.1]
    dsimp only [Operation.target?]
    simp only [lowestHeld?_senses]
    by_cases waits : machine.NoKeyHeld
    · rw [if_neg (not_not_intro waits), if_pos waits]
      exact toNat_masked_sub_two_advance machine.state
    · rw [if_pos waits, if_neg waits]
      exact falls
  | _ =>
    rw [operation] at encoded
    have plain := Operation.plain_of_encodes encoded trivial
    rw [successor_of_plain machine plain]
    exact falls

/-- **A step reports by the word alone, but for a key wait.** -/
theorem reply_execute_eq_report : machine.execute.reply = machine.report := by
  have encoded := machine.encodes_operation
  rw [reply_execute]
  cases operation : machine.operation with
  | exit code =>
    rw [operation] at encoded
    obtain ⟨form, value⟩ := encoded
    have same : code = UInt8.ofNat (machine.state.wordNumber % 0x10) := by
      rw [← value, UInt8.ofNat_toNat]
    change Status.halted code = machine.report
    rw [report, if_pos form, same]
  | halt =>
    rw [operation] at encoded
    have form : machine.state.wordNumber = 0x00FD := encoded
    change Status.halted 0 = machine.report
    rw [report, if_neg (by omega), if_pos form]
  | waitKey x =>
    rw [operation] at encoded
    rw [report_of_wait machine encoded.1]
    dsimp only [Operation.status]
    simp only [lowestHeld?_senses, ite_not]
  | unknown word =>
    rw [operation] at encoded
    obtain ⟨form, value⟩ := encoded
    have same : word = UInt16.ofNat machine.state.wordNumber := by
      rw [← value, UInt16.ofNat_toNat]
    change Status.unmapped word = machine.report
    rw [report_of_unbound machine form, same]
  | _ =>
    rw [operation] at encoded
    exact (report_of_quiet machine (Operation.quiet_of_encodes encoded trivial)).symm

end Execute

/-- Of two opposite skips on the same registers and keys exactly one condition holds. -/
theorem skipHolds_iff_not (machine : Machine δ κ) (memory : Memory) {first second : Nat}
    (opposite : Form.Opposite first second) :
    machine.SkipHolds first ↔ ¬ (machine.withMemory memory).SkipHolds second := by
  have samePlace : second / 0x100 % 0x10 = first / 0x100 % 0x10 := by
    rcases opposite with ⟨-, -, same⟩ | ⟨-, -, same⟩ | ⟨-, -, same⟩ <;> omega
  have sameX : (machine.withMemory memory).state.vx second = machine.state.vx first :=
    State.vx_congr rfl samePlace
  have sameKeys (key : UInt8) : (machine.withMemory memory).HoldsKey key ↔ machine.HoldsKey key :=
    Iff.rfl
  rcases opposite with ⟨here, there, same⟩ | ⟨here, there, same⟩ | ⟨here, there, same⟩
  · have sameByte : second % 0x100 = first % 0x100 := by omega
    rw [skipHolds_equalByte machine here, skipHolds_notEqualByte _ there, sameX, sameByte,
      Classical.not_not]
  · have sameY : (machine.withMemory memory).state.vy second = machine.state.vy first :=
      State.vy_congr rfl (by omega)
    rw [skipHolds_equalRegister machine here, skipHolds_notEqualRegister _ there, sameX, sameY,
      Classical.not_not]
  · rw [skipHolds_pressed machine here, skipHolds_notPressed _ there, sameX, sameKeys,
      Classical.not_not]

section Step

variable [Screen δ]

/-- Whether a step of the machine passes over the instruction after the one it runs. -/
def Skips (machine : Machine δ κ) : Prop :=
  machine.step.machine.state.pc.toNat = (machine.state.pc.toNat + 4) % 0x1000

/-- A running machine skips just when the condition of its word holds. -/
theorem skips_iff {machine : Machine δ κ} (unfinished : machine.state.exitCode = none)
    (running : machine.state.running = true)
    (conditional : Form.Conditional machine.state.wordNumber) :
    machine.Skips ↔ machine.SkipHolds machine.state.wordNumber := by
  have apart : (machine.state.pc.toNat + 2) % 0x1000 ≠ (machine.state.pc.toNat + 4) % 0x1000 := by
    omega
  rw [Skips, step_of_running unfinished running, toNat_pc_execute,
    successor_of_conditional machine conditional]
  split
  · next skips => exact iff_of_true rfl skips
  · next stays => exact iff_of_false apart stays

/-- A machine about to compare register zero with five by a word that starts in the last byte of
memory and ends in the first. -/
def comparing : Machine Uniform Keypad where
  state :=
    { State.initial with
      memory := Memory.blank.writeList Address.last [0x30, 0x05]
      pc := Address.last }
  screen := ⟨false⟩
  keys := KeyPad.released
  random := { key := Vector.replicate 8 0 }
  timing := Timing.standard

/-- A machine whose host has put back the largest index that there is, about to add one to it. -/
def exceeding : Machine Uniform Keypad :=
  { comparing with
    state :=
      { State.initial with
        memory := Memory.blank.writeList Address.programStart [0xF0, 0x1E]
        registers := Table.put State.initial.registers Register.zero 1
        index := 0xFFFF } }

end Step

end Machine

end SuperChip
