import SuperChip.Operation.Decode
import SuperChip.Text.Numeral

/-!
# Assembly text

The conventional listing of an operation: a mnemonic, and after a blank its
operands separated by commas.  Registers are written by their numbers, which
have one digit on the machine, immediate bytes, addresses and whole words in
hexadecimal with two, three and four digits at least, and counts in decimal.
-/

namespace SuperChip

/-- An operand as a listing shows it. -/
inductive Operand where
  /-- A register by its number, whether or not the machine has one of that number. -/
  | register (number : Nat)
  | byte (value : UInt8)
  | address (value : Address)
  | word (value : Word)
  | count (value : UInt8)
  /-- A part of the machine, by its name in listings. -/
  | part (name : String)
  deriving DecidableEq, Repr

namespace Operand

/-- How an operand is written. -/
def text : Operand → String
  | register number => "V" ++ Numeral.hex 1 number
  | byte value => "0x" ++ Numeral.hex 2 value.toNat
  | address value => "0x" ++ Numeral.hex 3 value.toNat
  | word value => "0x" ++ Numeral.hex 4 value.toNat
  | count value => Numeral.decimal value.toNat
  | part name => name

/-- Operands after the first, each behind a comma. -/
def trailing : List Operand → String
  | [] => ""
  | operand :: rest => ", " ++ operand.text ++ trailing rest

end Operand

/-- A mnemonic with its operands. -/
structure AssemblyLine where
  mnemonic : String
  operands : List Operand
  deriving DecidableEq, Repr

namespace AssemblyLine

/-- How a line is written. -/
def text (line : AssemblyLine) : String :=
  match line.operands with
  | [] => line.mnemonic
  | first :: rest => line.mnemonic ++ " " ++ first.text ++ Operand.trailing rest

end AssemblyLine

section Registers

variable {ρ : Type} [Numbered ρ]

/-- The operand that names a register. -/
def Operand.ofRegister (x : ρ) : Operand :=
  .register (Numbered.number x)

namespace Condition

/-- The line of a conditional skip. -/
def line : Condition ρ → AssemblyLine
  | equalByte x kk => ⟨"SE", [.ofRegister x, .byte kk]⟩
  | notEqualByte x kk => ⟨"SNE", [.ofRegister x, .byte kk]⟩
  | equalRegister x y => ⟨"SE", [.ofRegister x, .ofRegister y]⟩
  | notEqualRegister x y => ⟨"SNE", [.ofRegister x, .ofRegister y]⟩
  | pressed x => ⟨"SKP", [.ofRegister x]⟩
  | notPressed x => ⟨"SKNP", [.ofRegister x]⟩

end Condition

namespace Scroll

/-- The line of a scroll. -/
def line : Scroll → AssemblyLine
  | down rows => ⟨"SCD", [.count rows]⟩
  | right => ⟨"SCR", []⟩
  | left => ⟨"SCL", []⟩

end Scroll

namespace Arithmetic

/-- The mnemonic of an operation on two registers. -/
def mnemonic : Arithmetic → String
  | move => "LD"
  | or => "OR"
  | and => "AND"
  | xor => "XOR"
  | add => "ADD"
  | sub => "SUB"
  | subNegated => "SUBN"

end Arithmetic

namespace Font

/-- The name of a font in listings. -/
def part : Font → String
  | small => "F"
  | large => "HF"

end Font

namespace Operation

/-- The line of an operation. -/
def line : Operation ρ → AssemblyLine
  | exit code => ⟨"EXIT", [.count code]⟩
  | halt => ⟨"EXIT", []⟩
  | clear => ⟨"CLS", []⟩
  | scroll toward => toward.line
  | setResolution .low => ⟨"LOW", []⟩
  | setResolution .high => ⟨"HIGH", []⟩
  | system address => ⟨"SYS", [.address address]⟩
  | jump address => ⟨"JP", [.address address]⟩
  | jumpOffset address => ⟨"JP", [.register 0, .address address]⟩
  | call address => ⟨"CALL", [.address address]⟩
  | ret => ⟨"RET", []⟩
  | skip condition => condition.line
  | loadByte x kk => ⟨"LD", [.ofRegister x, .byte kk]⟩
  | addByte x kk => ⟨"ADD", [.ofRegister x, .byte kk]⟩
  | arithmetic kind x y => ⟨kind.mnemonic, [.ofRegister x, .ofRegister y]⟩
  | shiftRight x => ⟨"SHR", [.ofRegister x]⟩
  | shiftLeft x => ⟨"SHL", [.ofRegister x]⟩
  | random x kk => ⟨"RND", [.ofRegister x, .byte kk]⟩
  | draw x y n => ⟨"DRW", [.ofRegister x, .ofRegister y, .count n]⟩
  | waitKey x => ⟨"LD", [.ofRegister x, .part "K"]⟩
  | loadDelay x => ⟨"LD", [.ofRegister x, .part "DT"]⟩
  | setDelay x => ⟨"LD", [.part "DT", .ofRegister x]⟩
  | setSound x => ⟨"LD", [.part "ST", .ofRegister x]⟩
  | loadIndex address => ⟨"LD", [.part "I", .address address]⟩
  | addIndex x => ⟨"ADD", [.part "I", .ofRegister x]⟩
  | glyph font x => ⟨"LD", [.part font.part, .ofRegister x]⟩
  | bcd x => ⟨"LD", [.part "B", .ofRegister x]⟩
  | storeRegisters x => ⟨"LD", [.part "[I]", .ofRegister x]⟩
  | loadRegisters x => ⟨"LD", [.ofRegister x, .part "[I]"]⟩
  | storeRpl x => ⟨"LD", [.part "R", .ofRegister x]⟩
  | loadRpl x => ⟨"LD", [.ofRegister x, .part "R"]⟩
  | unknown word => ⟨"DW", [.word word]⟩

/-- The assembly text of an operation. -/
def assembly (operation : Operation ρ) : String :=
  operation.line.text

end Operation

end Registers

/-- The assembly text of each word of a byte sequence. -/
def disassemble (bytes : List UInt8) : List String :=
  (wordsOfBytes bytes).map fun word => (Operation.decode word).assembly

end SuperChip
