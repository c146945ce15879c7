import SuperChip.Font
import SuperChip.Resolution

/-!
# Operations

The operations of the machine with their operands.  Several families differ
only in one choice and share a constructor: the conditional skips, the scrolls,
and the arithmetic on two registers.

Operations are written over a type of registers.  What a word decodes to has
the sixteen registers of the machine, which is what `Operation` alone means;
an `Operation Nat` may name a register by any number at all.
-/

namespace SuperChip

/-- A type of registers, each known by a number and found again by it. -/
class Numbered (ρ : Type) where
  /-- The number by which listings name a register. -/
  number : ρ → Nat
  /-- The register of a number, and any register for a number that is none's. -/
  ofNumber : Nat → ρ
  ofNumber_number (x : ρ) : ofNumber (number x) = x

/-- The machine's registers are known by their places. -/
instance : Numbered Register where
  number := Fin.val
  ofNumber := Register.ofNumber
  ofNumber_number := Register.ofNumber_val

/-- A number is known by itself. -/
instance : Numbered Nat where
  number number := number
  ofNumber number := number
  ofNumber_number _ := rfl

/-- What a conditional skip tests. -/
inductive Condition (ρ : Type := Register) where
  | equalByte (x : ρ) (kk : UInt8)
  | notEqualByte (x : ρ) (kk : UInt8)
  | equalRegister (x y : ρ)
  | notEqualRegister (x y : ρ)
  | pressed (x : ρ)
  | notPressed (x : ρ)
  deriving DecidableEq, Repr

/-- Where a scroll moves the picture. -/
inductive Scroll where
  | down (rows : UInt8)
  | right
  | left
  deriving DecidableEq, Repr

/-- What is computed from two registers. -/
inductive Arithmetic where
  | move
  | or
  | and
  | xor
  | add
  | sub
  | subNegated
  deriving DecidableEq, Repr

/-- Everything an instruction word can ask for. -/
inductive Operation (ρ : Type := Register) where
  | exit (code : UInt8)
  /-- Stop with exit code zero. -/
  | halt
  | clear
  | scroll (toward : Scroll)
  | setResolution (mode : Resolution)
  /-- A machine code routine, passed over together with the instruction after it. -/
  | system (address : Address)
  | jump (address : Address)
  /-- Jump to an address plus register zero. -/
  | jumpOffset (address : Address)
  | call (address : Address)
  | ret
  | skip (condition : Condition ρ)
  | loadByte (x : ρ) (kk : UInt8)
  /-- Add without touching the flag. -/
  | addByte (x : ρ) (kk : UInt8)
  | arithmetic (kind : Arithmetic) (x y : ρ)
  | shiftRight (x : ρ)
  | shiftLeft (x : ρ)
  /-- A random byte, masked. -/
  | random (x : ρ) (kk : UInt8)
  | draw (x y : ρ) (n : UInt8)
  | waitKey (x : ρ)
  | loadDelay (x : ρ)
  | setDelay (x : ρ)
  | setSound (x : ρ)
  | loadIndex (address : Address)
  | addIndex (x : ρ)
  /-- Point the index at a digit of a font. -/
  | glyph (font : Font) (x : ρ)
  | bcd (x : ρ)
  | storeRegisters (x : ρ)
  | loadRegisters (x : ρ)
  | storeRpl (x : ρ)
  | loadRpl (x : ρ)
  /-- A word that asks for nothing. -/
  | unknown (word : Word)
  deriving DecidableEq, Repr

variable {ρ σ : Type}

namespace Condition

/-- The same test on other registers. -/
def map (rename : ρ → σ) : Condition ρ → Condition σ
  | equalByte x kk => equalByte (rename x) kk
  | notEqualByte x kk => notEqualByte (rename x) kk
  | equalRegister x y => equalRegister (rename x) (rename y)
  | notEqualRegister x y => notEqualRegister (rename x) (rename y)
  | pressed x => pressed (rename x)
  | notPressed x => notPressed (rename x)

/-- A condition is found again by the numbers of its registers. -/
theorem map_ofNumber_map_number [Numbered ρ] (condition : Condition ρ) :
    (condition.map Numbered.number).map Numbered.ofNumber = condition := by
  cases condition <;> simp only [map, Numbered.ofNumber_number]

end Condition

namespace Operation

/-- The same operation on other registers. -/
def map (rename : ρ → σ) : Operation ρ → Operation σ
  | exit code => exit code
  | halt => halt
  | clear => clear
  | scroll toward => scroll toward
  | setResolution mode => setResolution mode
  | system address => system address
  | jump address => jump address
  | jumpOffset address => jumpOffset address
  | call address => call address
  | ret => ret
  | skip condition => skip (condition.map rename)
  | loadByte x kk => loadByte (rename x) kk
  | addByte x kk => addByte (rename x) kk
  | arithmetic kind x y => arithmetic kind (rename x) (rename y)
  | shiftRight x => shiftRight (rename x)
  | shiftLeft x => shiftLeft (rename x)
  | random x kk => random (rename x) kk
  | draw x y n => draw (rename x) (rename y) n
  | waitKey x => waitKey (rename x)
  | loadDelay x => loadDelay (rename x)
  | setDelay x => setDelay (rename x)
  | setSound x => setSound (rename x)
  | loadIndex address => loadIndex address
  | addIndex x => addIndex (rename x)
  | glyph font x => glyph font (rename x)
  | bcd x => bcd (rename x)
  | storeRegisters x => storeRegisters (rename x)
  | loadRegisters x => loadRegisters (rename x)
  | storeRpl x => storeRpl (rename x)
  | loadRpl x => loadRpl (rename x)
  | unknown word => unknown word

/-- An operation is found again by the numbers of its registers. -/
theorem map_ofNumber_map_number [Numbered ρ] (operation : Operation ρ) :
    (operation.map Numbered.number).map Numbered.ofNumber = operation := by
  cases operation <;>
    simp only [map, Numbered.ofNumber_number, Condition.map_ofNumber_map_number]

/-- Whether the operation takes a byte from the random stream. -/
def isRandom : Operation → Bool
  | random _ _ => true
  | _ => false

end Operation

end SuperChip
