import SuperChip.Proofs.Moments
import SuperChip.Screen.Recorded

/-!
# Places in diagnostics

A diagnostic names the place of its instruction as two bytes before the program counter, which
has already moved past the instruction and wrapped at the end of memory. Going back does not
wrap there but at the end of the sixteen-bit numbers. So the place is the address of the
instruction, as the trace of the step prints it, everywhere but in the last two bytes of memory;
there only its low twelve bits are right. `Machine.diagnostic_place` says so for every step.
-/

namespace SuperChip

universe u v

namespace Event

/-- The place that a diagnostic names as that of its instruction. -/
def place? : Event → Option Address
  | unmapped _ place | emptyReturn place | callRefused _ place => some place
  | _ => none

/-- A diagnostic ends with its place. -/
theorem message_of_place? {event : Event} {place : Address}
    (named : event.place? = some place) :
    ∃ lead, event.message = lead ++ addressText place := by
  cases event with
  | unmapped word other =>
    obtain rfl := Option.some.inj named
    exact ⟨"unmapped opcode 0x" ++ Numeral.hex 4 word.toNat ++ " at ", rfl⟩
  | emptyReturn other =>
    obtain rfl := Option.some.inj named
    exact ⟨"return with an empty stack at ", rfl⟩
  | callRefused target other =>
    obtain rfl := Option.some.inj named
    exact ⟨"stack overflow calling " ++ addressText target ++ " from ", rfl⟩
  | _ => simp [place?] at named

/-- The numeral of an address determines it. -/
theorem addressText_inj {first second : Address} :
    addressText first = addressText second ↔ first = second := by
  constructor
  · intro same
    have digits := congrArg String.toList same
    simp only [addressText, Numeral.hex, String.toList_append, String.toList_ofList,
      List.append_cancel_left_eq] at digits
    have numbers := congrArg Numeral.hexValue digits
    rw [Numeral.hexValue_paddedHexDigits, Numeral.hexValue_paddedHexDigits] at numbers
    exact UInt16.toNat_inj.mp numbers
  · intro same
    rw [same]

end Event

namespace Operation

/-- Every place in a diagnostic is two bytes before the program counter. -/
theorem place_of_event? {operation : Operation} {state : State} {event : Event} {place : Address}
    (noted : operation.event? state = some event) (named : event.place? = some place) :
    place = state.pc - 2 := by
  cases operation with
  | exit code | halt =>
    obtain rfl := Option.some.inj noted
    exact absurd named.symm (Option.some_ne_none place)
  | setResolution mode | scroll toward =>
    dsimp only [event?] at noted
    split at noted
    · exact absurd noted.symm (Option.some_ne_none event)
    · obtain rfl := Option.some.inj noted
      exact absurd named.symm (Option.some_ne_none place)
  | call address | ret =>
    dsimp only [event?] at noted
    split at noted
    · exact absurd noted.symm (Option.some_ne_none event)
    · obtain rfl := Option.some.inj noted
      exact (Option.some.inj named).symm
  | unknown word =>
    obtain rfl := Option.some.inj noted
    exact (Option.some.inj named).symm
  | _ => exact absurd noted.symm (Option.some_ne_none event)

end Operation

namespace State

/-- Two bytes before the advanced program counter is where it was, but for the last two bytes of
memory, where the difference wraps at sixteen bits. -/
theorem toNat_pc_advance_sub_two (state : State) (known : state.pc.toNat ≤ 0xFFF) :
    (state.advance.pc - 2).toNat =
      if state.pc.toNat < 0xFFE then state.pc.toNat else 0xF000 + state.pc.toNat := by
  have past := toNat_pc_advance state
  rw [UInt16.toNat_sub, past]
  simp only [UInt16.reduceToNat]
  split <;> omega

end State

namespace Machine

section Step

variable {δ : Type u} {κ : Type v} [Screen δ] [KeySource κ] (machine : Machine δ κ)

/-- A step notes its trace first, and a diagnostic after it. -/
theorem journal_of_place? {event : Event} {place : Address}
    (noted : event ∈ machine.step.journal) (named : event.place? = some place) :
    machine.step.journal =
        #[.executing machine.state.pc machine.state.word machine.state.registers
          machine.state.index, event] ∧
      place = machine.state.advance.pc - 2 := by
  by_cases active : machine.Active
  · rw [step_of_active active, journal_execute] at noted ⊢
    rcases Array.mem_append.mp noted with traced | diagnosed
    · obtain rfl := Array.mem_singleton.mp traced
      exact absurd named.symm (Option.some_ne_none place)
    · have only := Option.mem_toArray.mp diagnosed
      rw [only]
      exact ⟨rfl, Operation.place_of_event? only named⟩
  · obtain ⟨status, still⟩ := step_of_not_active active
    rw [still] at noted
    exact absurd noted (Array.not_mem_empty event)

/-- **Where diagnostics point.** At most one diagnostic of a step names a place, after the trace
that starts with the program counter. The low twelve bits of the place are the program counter.
All of it is, in the record and in its text, exactly outside the last two bytes of memory. -/
theorem diagnostic_place (known : machine.state.pc.toNat ≤ 0xFFF) {event : Event}
    (noted : event ∈ machine.step.journal) {place : Address}
    (named : event.place? = some place) :
    let trace := Event.executing machine.state.pc machine.state.word machine.state.registers
      machine.state.index
    machine.step.journal = #[trace, event] ∧
      (∃ rest, trace.message = Numeral.hex 3 machine.state.pc.toNat ++ rest) ∧
      (∃ lead, event.message = lead ++ Event.addressText place) ∧
      Address.masked place = machine.state.pc ∧
      (place = machine.state.pc ↔ machine.state.pc.toNat < 0xFFE) ∧
      (Event.addressText place = "0x" ++ Numeral.hex 3 machine.state.pc.toNat ↔
        machine.state.pc.toNat < 0xFFE) := by
  obtain ⟨journal, behind⟩ := machine.journal_of_place? noted named
  have value := machine.state.toNat_pc_advance_sub_two known
  rw [← behind] at value
  have exact_iff : place = machine.state.pc ↔ machine.state.pc.toNat < 0xFFE := by
    rw [← UInt16.toNat_inj, value]
    split <;> omega
  refine ⟨journal, ?_, Event.message_of_place? named, ?_, exact_iff, ?_⟩
  · dsimp only [Event.message]
    simp only [String.append_assoc]
    exact ⟨_, rfl⟩
  · apply UInt16.toNat_inj.mp
    rw [Address.toNat_masked, value]
    split <;> omega
  · rw [← exact_iff, ← Event.addressText_inj]
    rfl

end Step

/-- A machine about to return with nothing to return to. -/
def returning : Machine Uniform Keypad where
  state :=
    { State.initial with
      memory := Memory.blank.writeList Address.programStart [0x00, 0xEE] }
  screen := ⟨false⟩
  keys := KeyPad.released
  random := { key := Vector.replicate 8 0 }
  timing := Timing.standard

/-- At the start of a program the diagnostic names the place of its instruction. -/
theorem diagnostic_place_returning :
    returning.state.pc.toNat ≤ 0xFFF ∧
      .emptyReturn 0x200 ∈ returning.step.journal ∧
      Event.addressText 0x200 = "0x" ++ Numeral.hex 3 returning.state.pc.toNat := by
  have known : returning.state.pc.toNat ≤ 0xFFF := by decide
  have noted : .emptyReturn 0x200 ∈ returning.step.journal := by decide +kernel
  obtain ⟨-, -, -, -, -, text⟩ := returning.diagnostic_place known noted rfl
  exact ⟨known, noted, text.mpr (by decide)⟩

/-- A machine at the last two bytes of memory, which ask for nothing. -/
def atLastWord : Machine Uniform Keypad :=
  { returning with
    state :=
      { State.initial with
        memory := Memory.blank.writeList 0xFFE [0x80, 0x08]
        pc := 0xFFE } }

/-- At the end of memory the diagnostic names a place that is no address of memory, so not every
diagnostic names the address that its instruction was fetched from. -/
theorem diagnostic_past_memory :
    atLastWord.state.pc.toNat ≤ 0xFFF ∧
      .unmapped 0x8008 0xFFFE ∈ atLastWord.step.journal ∧
      (Event.unmapped 0x8008 0xFFFE).message = "unmapped opcode 0x8008 at 0xFFFE" ∧
      "0x" ++ Numeral.hex 3 atLastWord.state.pc.toNat = "0xFFE" ∧
      ¬ ∀ machine : Machine Uniform Keypad, machine.state.pc.toNat ≤ 0xFFF →
        ∀ event ∈ machine.step.journal, ∀ place, event.place? = some place →
          place = machine.state.pc := by
  have known : atLastWord.state.pc.toNat ≤ 0xFFF := by decide
  have noted : .unmapped 0x8008 0xFFFE ∈ atLastWord.step.journal := by decide +kernel
  refine ⟨known, noted, by decide +kernel, by decide +kernel, ?_⟩
  intro always
  have same := always atLastWord known _ noted 0xFFFE rfl
  exact absurd same (by decide)

end Machine

end SuperChip
