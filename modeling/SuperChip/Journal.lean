import SuperChip.Operation.Assembly
import SuperChip.Rom
import SuperChip.State.Basic

/-!
# The journal

The machine notes what it does as events.  Each event has a level of importance
and a message; the messages of the diagnostics name the place of the
instruction, two bytes before the program counter.
-/

namespace SuperChip

/-- How important an event is. -/
inductive Level where
  | trace
  | debug
  | info
  | warn
  deriving DecidableEq, Repr

namespace Level

/-- How a log writes a level. -/
def text : Level → String
  | trace => "TRACE"
  | debug => "DEBUG"
  | info => "INFO"
  | warn => "WARN"

end Level

/-- What the machine notes. -/
inductive Event where
  /-- An instruction is about to run, with the program counter, the registers and the index
  before it. -/
  | executing (pc : Address) (word : Word) (registers : Registers) (index : Address)
  | exited (code : UInt8)
  | resolutionChanged (mode : Resolution)
  | scrollIgnored (toward : Scroll)
  | unmapped (word : Word) (place : Address)
  | emptyReturn (place : Address)
  | callRefused (target place : Address)
  | reset
  | loaded (size : Nat)
  deriving DecidableEq, Repr

namespace Event

/-- How important each kind of event is: instructions are traced, what was passed over is for
debugging, and what went wrong on the call stack is a warning. -/
def level : Event → Level
  | executing .. => .trace
  | scrollIgnored _ => .debug
  | unmapped .. => .debug
  | emptyReturn _ => .warn
  | callRefused .. => .warn
  | _ => .info

/-- Byte numerals after the first, each behind a comma. -/
def trailingBytes : List UInt8 → String
  | [] => ""
  | value :: rest => ", " ++ Numeral.hex 2 value.toNat ++ trailingBytes rest

/-- Bytes in brackets, two hexadecimal digits at least for each. -/
def bytesText : List UInt8 → String
  | [] => "[]"
  | value :: rest => "[" ++ Numeral.hex 2 value.toNat ++ trailingBytes rest ++ "]"

/-- A text filled up with blanks to a least width. -/
def padded (width : Nat) (text : String) : String :=
  String.ofList (text.toList.rightpad width ' ')

/-- An address as diagnostics write it. -/
def addressText (address : Address) : String :=
  "0x" ++ Numeral.hex 3 address.toNat

/-- The direction of a scroll in words. -/
def towardText : Scroll → String
  | .down _ => "down"
  | .right => "right"
  | .left => "left"

/-- What an event says.  An instruction is shown with its place, its word, its assembly text and the
registers and the index before it. -/
def message : Event → String
  | executing pc word registers index =>
      Numeral.hex 3 pc.toNat ++ ": " ++ Numeral.hex 4 word.toNat ++ " " ++
        padded 16 (Operation.decode word).assembly ++ " v" ++ bytesText registers.toList ++
        " i" ++ Numeral.hex 3 index.toNat
  | exited code => "program exited with code " ++ Numeral.decimal code.toNat
  | resolutionChanged mode => "switching to " ++ mode.name ++ " resolution"
  | scrollIgnored toward => "ignoring scroll " ++ towardText toward ++ " in low resolution"
  | unmapped word place =>
      "unmapped opcode 0x" ++ Numeral.hex 4 word.toNat ++ " at " ++ addressText place
  | emptyReturn place => "return with an empty stack at " ++ addressText place
  | callRefused target place =>
      "stack overflow calling " ++ addressText target ++ " from " ++ addressText place
  | reset => "machine reset"
  | loaded size => "loaded " ++ Numeral.decimal size ++ " byte ROM"

/-- The line that a log keeps of an event. -/
def text (event : Event) : String :=
  event.level.text ++ ": " ++ event.message

end Event

end SuperChip
