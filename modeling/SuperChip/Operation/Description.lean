import SuperChip.Operation.Basic
import SuperChip.Text.Numeral

/-!
# Descriptions

The long form of an operation, for inspection: a full name with its operands in
decimal, either bare in parentheses or labelled between braces.
-/

namespace SuperChip

/-- A name with its operands. -/
inductive Description where
  | bare (name : String)
  | single (name : String) (value : Nat)
  | labelled (name : String) (first : String × Nat) (rest : List (String × Nat))
  deriving DecidableEq, Repr

namespace Description

/-- A label with its value. -/
def field (operand : String × Nat) : String :=
  operand.1 ++ ": " ++ Numeral.decimal operand.2

/-- Fields after the first, each behind a comma. -/
def trailing : List (String × Nat) → String
  | [] => ""
  | operand :: rest => ", " ++ field operand ++ trailing rest

/-- How a description is written. -/
def text : Description → String
  | bare name => name
  | single name value => name ++ "(" ++ Numeral.decimal value ++ ")"
  | labelled name first rest =>
      name ++ " \x7b " ++ field first ++ trailing rest ++ " \x7d"

section Registers

variable {ρ : Type} [Numbered ρ]

/-- A description with one register. -/
def ofRegister (name : String) (x : ρ) : Description :=
  labelled name ("x", Numbered.number x) []

/-- A description with a register and a byte. -/
def ofRegisterByte (name : String) (x : ρ) (kk : UInt8) : Description :=
  labelled name ("x", Numbered.number x) [("kk", kk.toNat)]

/-- A description with two registers. -/
def ofRegisters (name : String) (x y : ρ) : Description :=
  labelled name ("x", Numbered.number x) [("y", Numbered.number y)]

end Registers

end Description

namespace Condition

/-- The long form of a conditional skip. -/
def description {ρ : Type} [Numbered ρ] : Condition ρ → Description
  | equalByte x kk => .ofRegisterByte "SkipEqualByte" x kk
  | notEqualByte x kk => .ofRegisterByte "SkipNotEqualByte" x kk
  | equalRegister x y => .ofRegisters "SkipEqualRegister" x y
  | notEqualRegister x y => .ofRegisters "SkipNotEqualRegister" x y
  | pressed x => .ofRegister "SkipPressed" x
  | notPressed x => .ofRegister "SkipNotPressed" x

end Condition

namespace Scroll

/-- The long form of a scroll. -/
def description : Scroll → Description
  | down rows => .single "ScrollDown" rows.toNat
  | right => .bare "ScrollRight"
  | left => .bare "ScrollLeft"

end Scroll

namespace Arithmetic

/-- The full name of an operation on two registers. -/
def name : Arithmetic → String
  | move => "Move"
  | or => "Or"
  | and => "And"
  | xor => "Xor"
  | add => "Add"
  | sub => "Sub"
  | subNegated => "SubNegated"

end Arithmetic

namespace Operation

/-- The long form of an operation. -/
def description {ρ : Type} [Numbered ρ] : Operation ρ → Description
  | exit code => .single "Exit" code.toNat
  | halt => .bare "Halt"
  | clear => .bare "Clear"
  | scroll toward => toward.description
  | setResolution .low => .bare "LowRes"
  | setResolution .high => .bare "HighRes"
  | system address => .single "System" address.toNat
  | jump address => .single "Jump" address.toNat
  | jumpOffset address => .single "JumpOffset" address.toNat
  | call address => .single "Call" address.toNat
  | ret => .bare "Return"
  | skip condition => condition.description
  | loadByte x kk => .ofRegisterByte "LoadByte" x kk
  | addByte x kk => .ofRegisterByte "AddByte" x kk
  | arithmetic kind x y => .ofRegisters kind.name x y
  | shiftRight x => .ofRegister "ShiftRight" x
  | shiftLeft x => .ofRegister "ShiftLeft" x
  | random x kk => .ofRegisterByte "Random" x kk
  | draw x y n =>
      .labelled "Draw" ("x", Numbered.number x) [("y", Numbered.number y), ("n", n.toNat)]
  | waitKey x => .ofRegister "WaitKey" x
  | loadDelay x => .ofRegister "LoadDelay" x
  | setDelay x => .ofRegister "SetDelay" x
  | setSound x => .ofRegister "SetSound" x
  | loadIndex address => .single "LoadIndex" address.toNat
  | addIndex x => .ofRegister "AddIndex" x
  | glyph .small x => .ofRegister "SmallGlyph" x
  | glyph .large x => .ofRegister "LargeGlyph" x
  | bcd x => .ofRegister "Bcd" x
  | storeRegisters x => .ofRegister "StoreRegisters" x
  | loadRegisters x => .ofRegister "LoadRegisters" x
  | storeRpl x => .ofRegister "StoreRpl" x
  | loadRpl x => .ofRegister "LoadRpl" x
  | unknown word => .single "Unknown" word.toNat

end Operation

end SuperChip
