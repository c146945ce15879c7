import SuperChip.Proofs.Carries
import SuperChip.Proofs.Listings

/-!
# Unambiguous disassembly

No two operations are written the same. This holds beyond the registers of the machine: the
registers of an `Operation Nat` have numbers of any size, and its text, too, can be read back
(`Operation.read_line`), first the mnemonic and then the kinds and numbers of the operands. The
operations of the machine are among these, with the same texts (`Operation.assembly_map_number`).

The main statement is `Machine.disassembly_unambiguous`. So two words with the same text ask for the
same operation, and differ at most in digits that it does not read (`Form.alike_of_encodes`).
-/

namespace SuperChip

universe u v

variable {ρ σ : Type} [Numbered ρ] [Numbered σ]

/-- No part of the line of a conditional skip contains a blank. -/
theorem Condition.unbroken_line (condition : Condition ρ) : condition.line.Unbroken := by
  cases condition
  all_goals
    simp only [line, AssemblyLine.unbroken_iff, List.forall_mem_cons, List.not_mem_nil,
      Operand.ofRegister, Operand.blank_not_mem_register, Operand.blank_not_mem_byte,
      false_implies, implies_true, not_false_eq_true, and_true]
    decide

/-- No part of the line of a scroll contains a blank. -/
theorem Scroll.unbroken_line (toward : Scroll) : toward.line.Unbroken := by
  cases toward with
  | down rows =>
    rw [line, AssemblyLine.unbroken_iff, List.forall_mem_singleton]
    exact ⟨by decide, Operand.blank_not_mem_count rows⟩
  | right | left => exact ⟨by decide, List.forall_mem_nil _⟩

namespace Operation

/-- No part of the line of an operation contains a blank. -/
theorem unbroken_line (operation : Operation ρ) : operation.line.Unbroken := by
  cases operation
  case scroll toward => exact toward.unbroken_line
  case skip condition => exact condition.unbroken_line
  case setResolution mode =>
    cases mode <;> exact AssemblyLine.unbroken_iff.mpr ⟨by decide, List.forall_mem_nil _⟩
  all_goals
    simp only [line, AssemblyLine.unbroken_iff, List.forall_mem_cons, List.not_mem_nil,
      Operand.ofRegister, Operand.blank_not_mem_register, Operand.blank_not_mem_byte,
      Operand.blank_not_mem_address, Operand.blank_not_mem_word, Operand.blank_not_mem_count,
      false_implies, implies_true, not_false_eq_true, and_true, true_and]
  case arithmetic kind x y => cases kind <;> decide
  case glyph font x => cases font <;> decide
  all_goals decide

/-- Read the operands behind `LD`. -/
def readLoad : List Token → Option (Operation Nat)
  | [.register x, .hexadecimal kk] => some (loadByte x (UInt8.ofNat kk))
  | [.register x, .register y] => some (arithmetic .move x y)
  | [.register x, .part ['K']] => some (waitKey x)
  | [.register x, .part ['D', 'T']] => some (loadDelay x)
  | [.register x, .part ['[', 'I', ']']] => some (loadRegisters x)
  | [.register x, .part ['R']] => some (loadRpl x)
  | [.part ['D', 'T'], .register x] => some (setDelay x)
  | [.part ['S', 'T'], .register x] => some (setSound x)
  | [.part ['I'], .hexadecimal address] => some (loadIndex (UInt16.ofNat address))
  | [.part ['F'], .register x] => some (glyph .small x)
  | [.part ['H', 'F'], .register x] => some (glyph .large x)
  | [.part ['B'], .register x] => some (bcd x)
  | [.part ['[', 'I', ']'], .register x] => some (storeRegisters x)
  | [.part ['R'], .register x] => some (storeRpl x)
  | _ => none

/-- Read a mnemonic with its operands. -/
def read (mnemonic : String) (operands : List Token) : Option (Operation Nat) :=
  match mnemonic, operands with
  | "EXIT", [.decimal code] => some (exit (UInt8.ofNat code))
  | "EXIT", [] => some halt
  | "CLS", [] => some clear
  | "SCD", [.decimal rows] => some (scroll (.down (UInt8.ofNat rows)))
  | "SCR", [] => some (scroll .right)
  | "SCL", [] => some (scroll .left)
  | "LOW", [] => some (setResolution .low)
  | "HIGH", [] => some (setResolution .high)
  | "SYS", [.hexadecimal address] => some (system (UInt16.ofNat address))
  | "JP", [.hexadecimal address] => some (jump (UInt16.ofNat address))
  | "JP", [.register _, .hexadecimal address] => some (jumpOffset (UInt16.ofNat address))
  | "CALL", [.hexadecimal address] => some (call (UInt16.ofNat address))
  | "RET", [] => some ret
  | "SE", [.register x, .hexadecimal kk] => some (skip (.equalByte x (UInt8.ofNat kk)))
  | "SE", [.register x, .register y] => some (skip (.equalRegister x y))
  | "SNE", [.register x, .hexadecimal kk] => some (skip (.notEqualByte x (UInt8.ofNat kk)))
  | "SNE", [.register x, .register y] => some (skip (.notEqualRegister x y))
  | "SKP", [.register x] => some (skip (.pressed x))
  | "SKNP", [.register x] => some (skip (.notPressed x))
  | "LD", operands => readLoad operands
  | "ADD", [.register x, .hexadecimal kk] => some (addByte x (UInt8.ofNat kk))
  | "ADD", [.register x, .register y] => some (arithmetic .add x y)
  | "ADD", [.part _, .register x] => some (addIndex x)
  | "OR", [.register x, .register y] => some (arithmetic .or x y)
  | "AND", [.register x, .register y] => some (arithmetic .and x y)
  | "XOR", [.register x, .register y] => some (arithmetic .xor x y)
  | "SUB", [.register x, .register y] => some (arithmetic .sub x y)
  | "SUBN", [.register x, .register y] => some (arithmetic .subNegated x y)
  | "SHR", [.register x] => some (shiftRight x)
  | "SHL", [.register x] => some (shiftLeft x)
  | "RND", [.register x, .hexadecimal kk] => some (random x (UInt8.ofNat kk))
  | "DRW", [.register x, .register y, .decimal n] => some (draw x y (UInt8.ofNat n))
  | "DW", [.hexadecimal word] => some (unknown (UInt16.ofNat word))
  | _, _ => none

/-- A scroll is read back. -/
theorem read_scroll (toward : Scroll) :
    read toward.line.mnemonic toward.line.tokens = some (scroll toward) := by
  cases toward with
  | down rows =>
    rw [Scroll.line, AssemblyLine.tokens, List.map_singleton, Operand.token_count]
    exact congrArg (fun rows => some (scroll (.down rows))) UInt8.ofNat_toNat
  | right => rfl
  | left => rfl

/-- A conditional skip is read back with the numbers of its registers. -/
theorem read_skip (condition : Condition ρ) :
    read condition.line.mnemonic condition.line.tokens =
      some (skip (condition.map Numbered.number)) := by
  cases condition
  all_goals
    simp only [Condition.line, AssemblyLine.tokens, List.map_cons, List.map_nil,
      Operand.ofRegister, Operand.token_register, Operand.token_byte]
  case equalByte x kk =>
    exact congrArg (fun kk => some (skip (.equalByte (Numbered.number x) kk))) UInt8.ofNat_toNat
  case notEqualByte x kk =>
    exact congrArg (fun kk => some (skip (.notEqualByte (Numbered.number x) kk)))
      UInt8.ofNat_toNat
  all_goals rfl

/-- Each mnemonic of an operation on two registers is read back. -/
theorem read_arithmetic (kind : Arithmetic) (x y : Nat) :
    read kind.mnemonic [.register x, .register y] = some (arithmetic kind x y) := by
  cases kind <;> rfl

/-- **Reading back.** An operation is recovered from the mnemonic and the operands of its line, with
the numbers of its registers. -/
theorem read_line (operation : Operation ρ) :
    read operation.line.mnemonic operation.line.tokens = some (operation.map Numbered.number) := by
  have byte (value : UInt8) : UInt8.ofNat value.toNat = value := UInt8.ofNat_toNat
  have word (value : UInt16) : UInt16.ofNat value.toNat = value := UInt16.ofNat_toNat
  cases operation
  case scroll toward => exact read_scroll toward
  case skip condition => exact read_skip condition
  case setResolution mode => cases mode <;> rfl
  -- The operands become tokens; only immediates are still to be cut down to their size.
  all_goals
    simp only [line, AssemblyLine.tokens, List.map_cons, List.map_nil, Operand.ofRegister,
      Operand.token_register, Operand.token_byte, Operand.token_address, Operand.token_word,
      Operand.token_count]
  case arithmetic kind x y => exact read_arithmetic kind (Numbered.number x) (Numbered.number y)
  case glyph font x => cases font <;> rfl
  case exit code => exact congrArg (some ∘ exit) (byte code)
  case system address => exact congrArg (some ∘ system) (word address)
  case jump address => exact congrArg (some ∘ jump) (word address)
  case jumpOffset address => exact congrArg (some ∘ jumpOffset) (word address)
  case call address => exact congrArg (some ∘ call) (word address)
  case loadByte x kk => exact congrArg (some ∘ loadByte (Numbered.number x)) (byte kk)
  case addByte x kk => exact congrArg (some ∘ addByte (Numbered.number x)) (byte kk)
  case random x kk => exact congrArg (some ∘ random (Numbered.number x)) (byte kk)
  case draw x y n =>
    exact congrArg (some ∘ draw (Numbered.number x) (Numbered.number y)) (byte n)
  case loadIndex address => exact congrArg (some ∘ loadIndex) (word address)
  case unknown value => exact congrArg (some ∘ unknown) (word value)
  all_goals rfl

/-- The text of an operation determines it up to the type of its registers, and their numbers. -/
theorem map_number_eq_of_assembly_eq {first : Operation ρ} {second : Operation σ}
    (same : first.assembly = second.assembly) :
    first.map Numbered.number = second.map Numbered.number := by
  obtain ⟨mnemonics, tokens⟩ :=
    AssemblyLine.tokens_eq_of_text_eq first.unbroken_line second.unbroken_line same
  apply Option.some.inj
  calc some (first.map Numbered.number)
    _ = read first.line.mnemonic first.line.tokens := first.read_line.symm
    _ = read second.line.mnemonic second.line.tokens := by rw [mnemonics, tokens]
    _ = some (second.map Numbered.number) := second.read_line

/-- **No two operations are written the same**, whatever the type of their registers. -/
theorem assembly_injective : Function.Injective (assembly : Operation ρ → String) := by
  intro first second same
  rw [← first.map_ofNumber_map_number, map_number_eq_of_assembly_eq same,
    second.map_ofNumber_map_number]

/-- An operation is written like the one with the numbers of its registers. -/
theorem assembly_map_number (operation : Operation ρ) :
    (operation.map Numbered.number).assembly = operation.assembly := by
  cases operation with
  | skip condition => cases condition <;> rfl
  | setResolution mode => cases mode <;> rfl
  | _ => rfl

end Operation

namespace Form

/-- Two words that differ at most in digits which are not read: the last digit of `5XYN` and
`9XYN`, and the third digit of `8XY6` and `8XYE`. -/
def Alike (first second : Nat) : Prop :=
  first = second ∨
  (first / 0x10 = second / 0x10 ∧ (nnn 0x5 first ∨ nnn 0x9 first)) ∨
  (first / 0x100 = second / 0x100 ∧ first % 0x10 = second % 0x10 ∧
    (xy 0x8 0x6 first ∨ xy 0x8 0xE first))

/-- The words of one skip are the same but for a digit that it does not read. -/
theorem alike_of_encodes_skip {condition : Condition} {first second : Nat}
    (left : (Operation.skip condition).Encodes first)
    (right : (Operation.skip condition).Encodes second) : Alike first second := by
  cases condition
  all_goals dsimp only [Operation.Encodes] at left right
  case equalRegister x y => exact .inr (.inl ⟨by omega, .inl left.1⟩)
  case notEqualRegister x y => exact .inr (.inl ⟨by omega, .inr left.1⟩)
  all_goals exact .inl (by omega)

/-- An operation says everything about its words but the digits that are not read. -/
theorem alike_of_encodes {operation : Operation} {first second : Nat}
    (left : operation.Encodes first) (right : operation.Encodes second) : Alike first second := by
  cases operation with
  | skip condition => exact alike_of_encodes_skip left right
  | shiftRight x =>
    dsimp only [Operation.Encodes] at left right
    exact .inr (.inr ⟨by omega, by omega, .inl left.1⟩)
  | shiftLeft x =>
    dsimp only [Operation.Encodes] at left right
    exact .inr (.inr ⟨by omega, by omega, .inr left.1⟩)
  | system address =>
    obtain ⟨⟨form, -⟩, field⟩ := left
    obtain ⟨⟨other, -⟩, same⟩ := right
    exact .inl (by omega)
  | unknown word =>
    obtain ⟨-, rfl⟩ := left
    exact .inl right.2
  | setResolution choice | scroll choice | glyph choice x =>
    cases choice
    all_goals
      dsimp only [Operation.Encodes] at left right
      exact .inl (by omega)
  | _ =>
    dsimp only [Operation.Encodes] at left right
    exact .inl (by omega)

end Form

namespace Operation

section Words

variable {first second : Word}

/-- Two words ask for the same operation just when they differ at most in digits that are not
read. -/
theorem decode_eq_iff_alike :
    decode first = decode second ↔ Form.Alike first.toNat second.toNat := by
  have x := Word.val_x first
  have y := Word.val_y first
  constructor
  · intro same
    exact Form.alike_of_encodes (encodes_decode first) (same ▸ encodes_decode second)
  · rintro (equal | ⟨digits, skips⟩ | ⟨digits, last, shifts⟩)
    · rw [UInt16.toNat_inj.mp equal]
    -- The digits that are read are the same, so what the first word asks for the second does too.
    · rcases skips with five | nine
      · have here : decode first = skip (.equalRegister (Word.x first) (Word.y first)) :=
          decode_of_encodes ⟨five, rfl, rfl⟩
        exact here.trans (Eq.symm (decode_of_encodes ⟨by omega, by omega, by omega⟩))
      · have here : decode first = skip (.notEqualRegister (Word.x first) (Word.y first)) :=
          decode_of_encodes ⟨nine, rfl, rfl⟩
        exact here.trans (Eq.symm (decode_of_encodes ⟨by omega, by omega, by omega⟩))
    · rcases shifts with six | fourteen
      · have here : decode first = shiftRight (Word.x first) := decode_of_encodes ⟨six, rfl⟩
        exact here.trans (Eq.symm (decode_of_encodes ⟨by omega, by omega⟩))
      · have here : decode first = shiftLeft (Word.x first) := decode_of_encodes ⟨fourteen, rfl⟩
        exact here.trans (Eq.symm (decode_of_encodes ⟨by omega, by omega⟩))

end Words

/-- Any other mnemonic than `DW` has two characters at least, and does not start with it. -/
theorem eq_unknown_or (operation : Operation) :
    (∃ word, operation = unknown word) ∨
      2 ≤ operation.line.mnemonic.toList.length ∧
        ¬ "DW".toList <+: operation.line.mnemonic.toList := by
  cases operation with
  | unknown word => exact .inl ⟨word, rfl⟩
  | skip choice | setResolution choice | scroll choice | arithmetic choice x y =>
    cases choice <;>
    · simp only [line, Condition.line, Scroll.line, Arithmetic.mnemonic]
      exact .inr (by decide)
  | _ =>
    simp only [line]
    exact .inr (by decide)

/-- A text starts with `DW` just when it is the text of an unknown word. -/
theorem dw_prefix_iff (operation : Operation) :
    "DW".toList <+: operation.assembly.toList ↔ ∃ word, operation = unknown word := by
  constructor
  · intro starts
    -- `D` and `W` both lie within the mnemonic, so the operands cannot supply them.
    rcases operation.eq_unknown_or with unknown | ⟨long, other⟩
    · exact unknown
    · exact absurd ((operation.line.prefix_text_iff "DW".toList long).mp starts) other
  · rintro ⟨word, rfl⟩
    exact (unknown word).line.mnemonic_prefix_text

end Operation

namespace Machine

section Step

variable {δ : Type u} {κ : Type v} [Screen δ] [KeySource κ]

/-- A step reports a word that asks for nothing just when that is what the word is written as. -/
theorem step_unmapped_iff {machine : Machine δ κ} (active : machine.Active) :
    (∃ word, machine.step.reply = .unmapped word) ↔
      "DW".toList <+: machine.operation.assembly.toList := by
  rw [step_of_active active, reply_execute, Operation.dw_prefix_iff]
  constructor
  · rintro ⟨word, unmapped⟩
    exact ⟨word, Operation.eq_unknown_of_status unmapped⟩
  · rintro ⟨word, unknown⟩
    exact ⟨word, by rw [unknown]; rfl⟩

/-- **Disassembly is unambiguous.** No two operations have the same text, whatever the numbers of
their registers. So words have the same text just when they differ at most in digits that are not
read; then they ask for the same operation, which does the same to every machine. The text of the
word at the program counter starts with `DW` just when the step that runs it reports a word that
asks for nothing. -/
theorem disassembly_unambiguous :
    Function.Injective (Operation.assembly : Operation Nat → String) ∧
    (∀ operation : Operation, (operation.map Fin.val).assembly = operation.assembly ∧
      (operation.map Fin.val).map Register.ofNumber = operation) ∧
    Function.Injective (Operation.assembly : Operation → String) ∧
    (∀ first second : Word,
      ((Operation.decode first).assembly = (Operation.decode second).assembly ↔
        Form.Alike first.toNat second.toNat) ∧
      ((Operation.decode first).assembly = (Operation.decode second).assembly →
        Operation.decode first = Operation.decode second ∧
        ∀ machine : Machine δ κ,
          machine.carryOut (Operation.decode first) = machine.carryOut (Operation.decode second) ∧
          ∀ senses,
            (Operation.decode first).status senses = (Operation.decode second).status senses)) ∧
    ∀ machine : Machine δ κ, machine.Active →
      ((∃ word, machine.step.reply = .unmapped word) ↔
        "DW".toList <+: (Operation.decode machine.state.word).assembly.toList) := by
  refine ⟨Operation.assembly_injective, ?_, Operation.assembly_injective, ?_,
    fun machine active => step_unmapped_iff active⟩
  · exact fun operation => ⟨operation.assembly_map_number, operation.map_ofNumber_map_number⟩
  · intro first second
    refine ⟨Operation.assembly_injective.eq_iff.trans Operation.decode_eq_iff_alike, ?_⟩
    intro same
    have decoded := Operation.assembly_injective same
    refine ⟨decoded, fun machine => ?_⟩
    rw [decoded]
    exact ⟨rfl, fun _ => rfl⟩

end Step

/-- A machine about to pass over a word that asks for nothing. -/
def passing : Machine Uniform Keypad :=
  { scrolling with
    state :=
      { State.initial with
        memory := Memory.blank.writeList Address.programStart [0x80, 0x08] } }

/-- The last digit of a skip on two registers is not read, and the word `8008` is unknown. -/
theorem disassembly_unambiguous_passing :
    (Operation.decode 0x5120).assembly = (Operation.decode 0x512F).assembly ∧
      Operation.decode 0x5120 = Operation.decode 0x512F ∧ Form.Alike 0x5120 0x512F ∧
      passing.Active ∧ passing.step.reply = .unmapped 0x8008 ∧
      "DW".toList <+: (Operation.decode passing.state.word).assembly.toList := by
  obtain ⟨-, -, -, words, steps⟩ := disassembly_unambiguous (δ := Uniform) (κ := Keypad)
  have same : (Operation.decode 0x5120).assembly = (Operation.decode 0x512F).assembly := by
    decide +kernel
  have unmapped : passing.step.reply = .unmapped 0x8008 := by decide +kernel
  obtain ⟨alike, decoded⟩ := words 0x5120 0x512F
  exact ⟨same, (decoded same).1, alike.mp same, by decide, unmapped,
    (steps passing (by decide)).mp ⟨_, unmapped⟩⟩

end Machine

end SuperChip
