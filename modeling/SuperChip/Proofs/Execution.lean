import SuperChip.Proofs.Encoding
import SuperChip.Proofs.Ownership

/-!
# Running one instruction

A machine that is running reads the word at its program counter, moves past it,
and hands the operation to the effects. This module takes the parts of that
outcome apart, with the word read as two bytes of memory and every operation
tied to its word by the instruction table. The table also shows that a single
kind of instruction can make a sum that leaves sixteen bits
(`Operation.overflows_iff`).
-/

namespace SuperChip

universe u v

namespace Address

/-- The byte of memory that a number names. -/
theorem cell_ofNat (number : Nat) : cell (UInt16.ofNat number) = Fin.ofNat 4096 number := by
  apply Fin.ext
  rw [val_cell, UInt16.toNat_ofNat', Fin.val_ofNat]
  omega

/-- The byte of memory some way past an address. -/
theorem cell_add_ofNat (address : Address) (offset : Nat) :
    cell (address + UInt16.ofNat offset) = Fin.ofNat 4096 (address.toNat + offset) := by
  apply Fin.ext
  rw [val_cell, UInt16.toNat_add, UInt16.toNat_ofNat', Fin.val_ofNat]
  omega

end Address

namespace State

/-- The number of the word at the program counter, from its two bytes in memory. -/
def wordNumber (state : State) : Nat :=
  256 * (state.memory.bytes.get (Fin.ofNat 4096 state.pc.toNat)).toNat +
    (state.memory.bytes.get (Fin.ofNat 4096 (state.pc.toNat + 1))).toNat

/-- The word at the program counter is made of two bytes of memory, whatever address it is. -/
theorem toNat_word (state : State) : state.word.toNat = state.wordNumber := by
  have here : Address.cell state.pc = Fin.ofNat 4096 state.pc.toNat := rfl
  have next : Address.cell (state.pc + 1) = Fin.ofNat 4096 (state.pc.toNat + 1) :=
    Address.cell_add_ofNat state.pc 1
  rw [word, Word.toNat_ofBytes, Memory.read, Memory.read, here, next, wordNumber]

/-- Past an instruction the program counter is two further, round the end of memory. -/
theorem toNat_pc_advance (state : State) :
    state.advance.pc.toNat = (state.pc.toNat + 2) % 0x1000 := by
  simp only [advance, jump, Address.toNat_masked, UInt16.toNat_add, UInt16.reduceToNat]
  omega

/-- Moving past an instruction is felt in the program counter only. -/
theorem agrees_advance (state : State) {component : Component} (other : component ≠ .pc) :
    component.Agrees state.advance state :=
  agrees_jump state _ other

end State

namespace Operation

/-- Of the operations that words ask for only an addition to the index can leave sixteen bits: an
indexed jump starts from an address inside memory. -/
theorem overflows_iff {operation : Operation} {word : Nat} (encoded : operation.Encodes word)
    (state : State) :
    operation.overflows state = true ↔
      ∃ x, operation = addIndex x ∧
        Address.overflows state.index (state.registers.get x) = true := by
  cases operation with
  | addIndex x =>
    exact ⟨fun leaves => ⟨x, rfl, leaves⟩, fun ⟨_, same, leaves⟩ => by cases same; exact leaves⟩
  | jumpOffset address =>
    obtain ⟨-, place⟩ := encoded
    have inside : address.toNat ≤ 0xFFF := by omega
    refine iff_of_false ?_ fun ⟨_, other, _⟩ => nomatch other
    change ¬ Address.overflows address _ = true
    rw [Address.overflows_eq_false_of_le inside]
    exact Bool.false_ne_true
  | _ => exact iff_of_false Bool.false_ne_true fun ⟨_, other, _⟩ => nomatch other

end Operation

namespace Memory

/-- The byte that a number names, counted on from the first byte past the last. -/
def byteAt (memory : Memory) (number : Nat) : UInt8 :=
  memory.bytes.get (Fin.ofNat 4096 number)

/-- A byte some way past an address, counted by a number. -/
theorem read_add_ofNat (memory : Memory) (address : Address) (offset : Nat) :
    memory.read (address + UInt16.ofNat offset) = memory.byteAt (address.toNat + offset) :=
  congrArg memory.bytes.get (Address.cell_add_ofNat address offset)

end Memory

namespace Machine

variable {δ : Type u} {κ : Type v}

/-- The operation at the program counter stands for the word there. -/
theorem encodes_operation (machine : Machine δ κ) :
    machine.operation.Encodes machine.state.wordNumber := by
  rw [← State.toNat_word]
  exact Operation.encodes_decode machine.state.word

/-- The same machine with other memory. -/
def withMemory (machine : Machine δ κ) (memory : Memory) : Machine δ κ :=
  { machine with state := { machine.state with memory := memory } }

variable [Screen δ] [KeySource κ]

/-- What the instruction at the program counter perceives. -/
def senses (machine : Machine δ κ) : Senses where
  held := machine.held
  random := machine.random
  collision := (machine.operation.paint machine.state.advance machine.screen).collision

/-- The state after an instruction is what its operation makes of the state past it. -/
theorem state_execute (machine : Machine δ κ) :
    machine.execute.machine.state =
      machine.state.advance.execute machine.operation machine.senses := rfl

/-- The screen after an instruction is what its operation paints. -/
theorem screen_execute (machine : Machine δ κ) :
    machine.execute.machine.screen =
      (machine.operation.paint machine.state.advance machine.screen).screen := rfl

/-- An instruction takes one byte from the stream, or none. -/
theorem random_execute (machine : Machine δ κ) :
    machine.execute.machine.random =
      if machine.operation.isRandom then machine.random.advance else machine.random := rfl

/-- The reply to an instruction is the status of its operation. -/
theorem reply_execute (machine : Machine δ κ) :
    machine.execute.reply = machine.operation.status machine.senses := rfl

/-- An instruction notes itself, as it is before it runs, and then what its operation notes. -/
theorem journal_execute (machine : Machine δ κ) :
    machine.execute.journal =
      #[.executing machine.state.pc machine.state.word machine.state.registers
        machine.state.index] ++ (machine.operation.event? machine.state.advance).toArray := rfl

/-- The same machine with its program counter past the instruction. -/
def past (machine : Machine δ κ) : Machine δ κ :=
  { machine with state := machine.state.advance }

/-- What an operation makes of a machine. -/
def carryOut (machine : Machine δ κ) (operation : Operation) : Machine δ κ :=
  let drawing := operation.paint machine.state machine.screen
  let senses : Senses :=
    { held := machine.held
      random := machine.random
      collision := drawing.collision }
  { machine with
    state := machine.state.execute operation senses
    screen := drawing.screen
    random := if operation.isRandom then machine.random.advance else machine.random }

/-- Operations one after the other. -/
def carryOutAll (machine : Machine δ κ) (operations : List Operation) : Machine δ κ :=
  operations.foldl carryOut machine

/-- Running an instruction is moving past it and carrying out its operation. -/
theorem machine_execute (machine : Machine δ κ) :
    machine.execute.machine = machine.past.carryOut machine.operation := rfl

/-- A component that an operation does not own, whatever it perceives, stays. -/
theorem agrees_carryOut (machine : Machine δ κ) {operation : Operation} {component : Component}
    (foreign : ∀ senses, ¬ operation.Owns machine.state senses component) :
    component.Agrees (machine.carryOut operation).state machine.state :=
  State.agrees_execute _ _ _ (foreign _)

end Machine

end SuperChip
