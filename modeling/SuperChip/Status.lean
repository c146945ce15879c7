import SuperChip.Text.Numeral
import SuperChip.Word

/-!
# Statuses

What one step of the machine reports to its host.
-/

namespace SuperChip

/-- What a step reports. -/
inductive Status where
  | running
  /-- A wait for a key found none held and will be tried again. -/
  | waitingForKey
  /-- The word asks for nothing and was passed over. -/
  | unmapped (word : Word)
  | stopped
  | halted (code : UInt8)
  deriving DecidableEq, Repr

namespace Status

/-- Whether the program has exited. -/
def isHalted : Status → Bool
  | halted _ => true
  | _ => false

/-- Whether the machine stands still, so that its timers stand still too. -/
def isIdle : Status → Bool
  | stopped => true
  | halted _ => true
  | _ => false

/-- Whether no further instruction runs before the next tick. -/
def endsFrame : Status → Bool
  | waitingForKey => true
  | status => status.isIdle

/-- How a status is written. -/
def text : Status → String
  | running => "Running"
  | waitingForKey => "WaitingForKey"
  | unmapped word => "Unmapped(" ++ Numeral.decimal word.toNat ++ ")"
  | stopped => "Stopped"
  | halted code => "Halted \x7b code: " ++ Numeral.decimal code.toNat ++ " \x7d"

end Status

end SuperChip
