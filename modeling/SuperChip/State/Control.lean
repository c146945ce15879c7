import SuperChip.State.Basic

/-!
# Flow of control

Instructions are two bytes long.  The program counter always ends up inside
memory: every move reduces it to its low twelve bits.
-/

namespace SuperChip

namespace State

/-- The word that the program counter points at. -/
def word (state : State) : Word :=
  Word.ofBytes (state.memory.read state.pc) (state.memory.read (state.pc + 1))

/-- Go to an address, masked. -/
def jump (state : State) (address : Address) : State :=
  { state with pc := Address.masked address }

/-- Go past an instruction. -/
def advance (state : State) : State :=
  state.jump (state.pc + 2)

/-- Go back by an instruction. -/
def rewind (state : State) : State :=
  state.jump (state.pc - 2)

/-- Go past one more instruction on a condition. -/
def skipIf (state : State) (condition : Bool) : State :=
  if condition then state.advance else state

/-- The word that the program counter points at, with the state past it. -/
def fetch (state : State) : Word × State :=
  (state.word, state.advance)

/-- Save the program counter and jump; with a full stack, go on instead. -/
def call (state : State) (address : Address) : State :=
  match state.callStack.push state.pc with
  | .ok saved => { state with callStack := saved }.jump address
  | .error _ => state

/-- Jump to the address saved last; with an empty stack, go on instead. -/
def ret (state : State) : State :=
  match state.callStack.pop? with
  | some (address, rest) => { state with callStack := rest }.jump address
  | none => state

/-- Stop for good with a code. -/
def exit (state : State) (code : UInt8) : State :=
  { state with running := false, exitCode := some code }

end State

end SuperChip
