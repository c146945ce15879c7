import SuperChip.Keys
import SuperChip.Operation.Effect
import SuperChip.Screen.FrameBuffer
import SuperChip.Timing

/-!
# The machine

A machine is its state together with the screen it draws on, the keys it asks,
its random stream and its timing.  Whatever a host does to a machine has an
outcome: the machine afterwards, a reply, and the events noted on the way.
-/

namespace SuperChip

universe u v w

/-- A state with the peripherals that it works on. -/
structure Machine (δ : Type u) (κ : Type v) where
  state : State
  screen : δ
  keys : κ
  random : RandomStream
  timing : Timing

/-- A machine after something was done, with a reply and the events noted, oldest first. -/
structure Outcome (δ : Type u) (κ : Type v) (ρ : Type w) where
  machine : Machine δ κ
  reply : ρ
  journal : Array Event := #[]

namespace Machine

variable {δ : Type u} {κ : Type v}

/-- Nothing happens but a reply. -/
def answer {ρ : Type w} (machine : Machine δ κ) (reply : ρ) : Outcome δ κ ρ where
  machine := machine
  reply := reply

/-- Return to the state of power on, with a blank screen and no key held.  The random stream
goes on where it is. -/
def reset [Screen δ] [KeySource κ] (machine : Machine δ κ) : Outcome δ κ Unit where
  machine :=
    { machine with
      state := State.initial
      screen := Screen.clear machine.screen
      keys := KeySource.releaseAll machine.keys }
  reply := ()
  journal := #[.reset]

/-- Switch on a machine with its peripherals. -/
def boot [Screen δ] [KeySource κ] (screen : δ) (keys : κ) (timing : Timing)
    (random : RandomStream) : Outcome δ κ Unit :=
  let assembled : Machine δ κ :=
    { state := State.initial
      screen := screen
      keys := keys
      random := random
      timing := timing }
  assembled.reset

/-- Load a program image.  One that does not fit leaves everything as it is, and nothing is noted.
-/
def load (machine : Machine δ κ) (image : Array UInt8) : Outcome δ κ (Except RomError Unit) :=
  match machine.state.load image with
  | .ok state =>
      { machine := { machine with state := state }
        reply := .ok ()
        journal := #[.loaded image.size] }
  | .error error => machine.answer (.error error)

/-- Load a program image from a source.  If a reading fails nothing is loaded and nothing is noted.
-/
def loadFrom (machine : Machine δ κ) (source : List Reading) :
    Outcome δ κ (Except RomError Unit) :=
  match Reading.gather #[] source with
  | .ok image => machine.load image
  | .error error => machine.answer (.error error)

/-- One period of the timers. -/
def tick (machine : Machine δ κ) : Machine δ κ :=
  { machine with state := machine.state.tick }

/-- Instructions per second in the current mode. -/
def rate (machine : Machine δ κ) : UInt16 :=
  machine.timing.rate machine.state.resolution

/-- Instructions between two ticks in the current mode. -/
def cyclesPerFrame (machine : Machine δ κ) : Nat :=
  machine.timing.cyclesPerTick machine.state.resolution

/-- The screen, if it should be shown again. -/
def frame? (machine : Machine δ κ) : Option δ :=
  if machine.state.redraw then some machine.screen else none

/-- Note that the host has shown the screen. -/
def frameShown (machine : Machine δ κ) : Machine δ κ :=
  { machine with state := { machine.state with redraw := false } }

/-- Pause or resume; after an exit the machine stands still either way. -/
def setRunning (machine : Machine δ κ) (running : Bool) : Machine δ κ :=
  { machine with state := { machine.state with running := running } }

/-- Put back a state; the peripherals stay as they are. -/
def restore (machine : Machine δ κ) (state : State) : Machine δ κ :=
  { machine with state := state }

/-- Whether the sound timer still runs. -/
def isSoundOn (machine : Machine δ κ) : Bool :=
  decide (0 < machine.state.sound)

end Machine

/-- A machine with the frame buffer and the pad that hosts use unless they bring their own. -/
abbrev StandardMachine := Machine FrameBuffer Keypad

namespace StandardMachine

/-- Switch on a standard machine. -/
def boot (timing : Timing) (random : RandomStream) : Outcome FrameBuffer Keypad Unit :=
  Machine.boot FrameBuffer.blank KeyPad.released timing random

/-- Switch on a machine whose random bytes repeat from run to run. -/
def ofSeed (seed : UInt64) : Outcome FrameBuffer Keypad Unit :=
  boot Timing.standard (RandomStream.ofSeed seed)

end StandardMachine

end SuperChip
