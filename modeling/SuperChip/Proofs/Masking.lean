import SuperChip.Proofs.Bounds
import SuperChip.Proofs.Lockstep

/-!
# Addresses beyond memory

A host may put back a state whose program counter, index and return addresses have more than the
twelve bits of an address of memory. A machine does not notice the other bits: it behaves as if
they had been masked off, and goes on doing so. Only `FX1E` looks at more of the index, since its
flag says that the sum left memory; so masking the index, too, is unnoticed up to the first `FX1E`.

`State.Alike` is the relation of two states that differ in such bits. Every operation keeps it
(`State.Alike.execute`), and `Machine.masking_unnoticed` is the statement about sessions.
-/

namespace SuperChip

universe u v

namespace Address

/-- Sums do not notice more of an address than its twelve bits. -/
theorem masked_add_congr {first second : Address} (same : masked first = masked second)
    (offset : Address) : masked (first + offset) = masked (second + offset) := by
  have low := congrArg UInt16.toNat same
  simp only [toNat_masked] at low
  apply UInt16.toNat_inj.mp
  simp only [toNat_masked, UInt16.toNat_add]
  omega

/-- Differences do not notice more of an address than its twelve bits. -/
theorem masked_sub_congr {first second : Address} (same : masked first = masked second)
    (offset : Address) : masked (first - offset) = masked (second - offset) := by
  have low := congrArg UInt16.toNat same
  have bound := offset.toNat_lt
  simp only [toNat_masked] at low
  apply UInt16.toNat_inj.mp
  simp only [toNat_masked, UInt16.toNat_sub]
  omega

/-- A way of reducing addresses that keeps the byte of memory that they name. -/
structure Folds (fold : Address → Address) : Prop where
  fold_fold (address : Address) : fold (fold address) = fold address
  masked_fold (address : Address) : masked (fold address) = masked address

theorem folds_id : Folds id := ⟨fun _ => rfl, fun _ => rfl⟩

theorem folds_masked : Folds masked := ⟨masked_masked, masked_masked⟩

/-- What folds alike names the same byte. -/
theorem Folds.masked_congr {fold : Address → Address} (folds : Folds fold)
    {first second : Address} (same : fold first = fold second) :
    masked first = masked second := by
  rw [← folds.masked_fold first, same, folds.masked_fold]

end Address

namespace Memory

variable {first second : Address} (memory : Memory)

theorem read_congr (same : Address.masked first = Address.masked second) :
    memory.read first = memory.read second :=
  congrArg memory.bytes.get ((Address.cell_eq_cell_iff first second).mpr same)

theorem write_congr (same : Address.masked first = Address.masked second) (value : UInt8) :
    memory.write first value = memory.write second value := by
  rw [write, write, (Address.cell_eq_cell_iff first second).mpr same]

theorem writeList_congr (same : Address.masked first = Address.masked second)
    (values : List UInt8) : memory.writeList first values = memory.writeList second values := by
  induction values generalizing memory first second with
  | nil => rfl
  | cons value rest continued =>
    rw [writeList_cons, writeList_cons, memory.write_congr same]
    exact continued _ (Address.masked_add_congr same 1)

end Memory

namespace CallStack

/-- A stack with all its addresses, the old entries too, reduced to addresses of memory. -/
def masked (stack : CallStack) : CallStack :=
  { stack with slots := stack.slots.map Address.masked }

theorem masked_masked (stack : CallStack) : stack.masked.masked = stack.masked := by
  have again : Address.masked ∘ Address.masked = Address.masked :=
    funext Address.masked_masked
  simp only [masked, Vector.map_map, again]

/-- Saving on a masked stack is saving on the stack, masked; so is an address given back. -/
theorem push_masked (stack : CallStack) (address : Address) :
    stack.masked.push (Address.masked address) =
      ((stack.push address).map masked).mapError Address.masked := by
  unfold push masked
  by_cases room : stack.depth < 16
  · simp only [room, ↓reduceDIte, ← Vector.map_set]
    rfl
  · simp only [room, ↓reduceDIte]
    rfl

/-- Popping a masked stack gives the masked address and stack. -/
theorem pop?_masked (stack : CallStack) :
    stack.masked.pop? = stack.pop?.map (Prod.map Address.masked masked) := by
  unfold pop? masked
  by_cases saved : 0 < stack.depth
  · simp only [saved, ↓reduceDIte, Option.map_some, Prod.map_apply, Vector.getElem_map]
  · simp only [saved, ↓reduceDIte, Option.map_none]

end CallStack

namespace Operation

/-- The operations that use or change the program counter, the index or the call stack. -/
def UsesAddresses : Operation → Prop
  | system _ | jump _ | jumpOffset _ | call _ | ret | skip _ | waitKey _ => True
  | loadIndex _ | addIndex _ | glyph _ _ | bcd _ | storeRegisters _ | loadRegisters _ => True
  | _ => False

end Operation

namespace State

/-- The state with the program counter and the call stack reduced to addresses of memory. What
becomes of the index is left open. -/
def masked (fold : Address → Address) (state : State) : State :=
  { state with
    pc := Address.masked state.pc
    index := fold state.index
    callStack := state.callStack.masked }

/-- The same state with other addresses kept. -/
def readdress (state : State) (pc index : Address) (callStack : CallStack) : State :=
  { state with pc := pc, index := index, callStack := callStack }

/-- The state without the addresses that it keeps. -/
def unaddressed (state : State) : State :=
  state.readdress 0 0 CallStack.empty

/-- What does not use the kept addresses does the same whatever they are, and leaves them. -/
theorem execute_readdress (state : State) (pc index : Address) (callStack : CallStack)
    {operation : Operation} (senses : Senses) (unused : ¬ operation.UsesAddresses) :
    (state.readdress pc index callStack).execute operation senses =
      (state.execute operation senses).readdress pc index callStack := by
  cases operation with
  | scroll toward =>
    change (if toward.worksIn state.resolution then _ else _) =
      (if toward.worksIn state.resolution then _ else _ : State).readdress pc index callStack
    split <;> rfl
  | arithmetic kind x y => cases kind <;> rfl
  | system address | jump address | jumpOffset address | call address | loadIndex address =>
    exact absurd trivial unused
  | ret => exact absurd trivial unused
  | skip condition => exact absurd trivial unused
  | glyph font x => exact absurd trivial unused
  | waitKey x | addIndex x | bcd x | storeRegisters x | loadRegisters x =>
    exact absurd trivial unused
  | _ => rfl

/-- Two states that differ at most in bits that masking takes off their addresses. -/
structure Alike (fold : Address → Address) (first second : State) : Prop where
  rest : first.unaddressed = second.unaddressed
  pc : Address.masked first.pc = Address.masked second.pc
  index : fold first.index = fold second.index
  callStack : first.callStack.masked = second.callStack.masked

variable {fold : Address → Address} {first second : State}

/-- States are alike exactly if they are the same once they are masked. -/
theorem alike_iff : Alike fold first second ↔ first.masked fold = second.masked fold := by
  cases first
  cases second
  constructor
  · rintro ⟨rest, pc, index, callStack⟩
    simp only [unaddressed, readdress, mk.injEq, true_and] at rest
    obtain ⟨memory, registers, others⟩ := rest
    simp only [masked, mk.injEq]
    exact ⟨memory, registers, index, pc, callStack, others⟩
  · intro same
    simp only [masked, mk.injEq] at same
    obtain ⟨memory, registers, index, pc, callStack, others⟩ := same
    refine ⟨?_, pc, index, callStack⟩
    simp only [unaddressed, readdress, mk.injEq, true_and]
    exact ⟨memory, registers, others⟩

/-- A state and its masked one are alike. -/
theorem alike_masked (folds : Address.Folds fold) (state : State) :
    Alike fold state (state.masked fold) where
  rest := rfl
  pc := (Address.masked_masked _).symm
  index := (folds.fold_fold _).symm
  callStack := state.callStack.masked_masked.symm

theorem Alike.refl (state : State) : Alike fold state state :=
  ⟨rfl, rfl, rfl, rfl⟩

namespace Alike

variable (alike : Alike fold first second)

include alike

theorem memory : first.memory = second.memory :=
  (congrArg State.memory alike.rest :)

theorem registers : first.registers = second.registers :=
  (congrArg State.registers alike.rest :)

theorem resolution : first.resolution = second.resolution :=
  (congrArg State.resolution alike.rest :)

/-- What has nothing to do with addresses keeps states alike. -/
theorem update (change : State → State)
    (commutes : ∀ state pc index callStack,
      change (state.readdress pc index callStack) =
        (change state).readdress pc index callStack) :
    Alike fold (change first) (change second) := by
  have kept (state : State) :
      change state = (change state).readdress state.pc state.index state.callStack :=
    commutes state state.pc state.index state.callStack
  refine ⟨?_, ?_, ?_, ?_⟩
  · exact (commutes _ _ _ _).symm.trans
      ((congrArg change alike.rest).trans (commutes _ _ _ _))
  · rw [kept first, kept second]
    exact alike.pc
  · rw [kept first, kept second]
    exact alike.index
  · rw [kept first, kept second]
    exact alike.callStack

/-- An operation that uses no address keeps states alike. -/
theorem execute_of_unused {operation : Operation} (senses : Senses)
    (unused : ¬ operation.UsesAddresses) :
    Alike fold (first.execute operation senses) (second.execute operation senses) :=
  alike.update (State.execute · operation senses) fun state pc index callStack =>
    state.execute_readdress pc index callStack senses unused

theorem jump {here there : Address} (same : Address.masked here = Address.masked there) :
    Alike fold (first.jump here) (second.jump there) :=
  ⟨alike.rest, congrArg Address.masked same, alike.index, alike.callStack⟩

theorem advance : Alike fold first.advance second.advance :=
  alike.jump (Address.masked_add_congr alike.pc 2)

theorem rewind : Alike fold first.rewind second.rewind :=
  alike.jump (Address.masked_sub_congr alike.pc 2)

theorem withCallStack {here there : CallStack} (same : here.masked = there.masked) :
    Alike fold { first with callStack := here } { second with callStack := there } :=
  ⟨alike.rest, alike.pc, alike.index, same⟩

theorem withIndex {here there : Address} (same : fold here = fold there) :
    Alike fold { first with index := here } { second with index := there } :=
  ⟨alike.rest, alike.pc, same, alike.callStack⟩

theorem withMemory {here there : Memory} (same : here = there) :
    Alike fold { first with memory := here } { second with memory := there } :=
  same ▸ alike.update (fun state => { state with memory := here }) fun _ _ _ _ => rfl

theorem withRegisters {here there : Registers} (same : here = there) :
    Alike fold { first with registers := here } { second with registers := there } :=
  same ▸ alike.update (fun state => { state with registers := here }) fun _ _ _ _ => rfl

/-- Both save, and the stacks stay alike, or both refuse. -/
theorem map_push :
    ((first.callStack.push first.pc).map CallStack.masked).mapError Address.masked =
      ((second.callStack.push second.pc).map CallStack.masked).mapError Address.masked := by
  rw [← CallStack.push_masked, ← CallStack.push_masked, alike.callStack, alike.pc]

theorem map_pop? : first.callStack.pop?.map (Prod.map Address.masked CallStack.masked) =
    second.callStack.pop?.map (Prod.map Address.masked CallStack.masked) := by
  rw [← CallStack.pop?_masked, ← CallStack.pop?_masked, alike.callStack]

theorem call (address : Address) : Alike fold (first.call address) (second.call address) := by
  have pushed := alike.map_push
  unfold State.call
  cases here : first.callStack.push first.pc with
  | error refused =>
    cases there : second.callStack.push second.pc with
    | error other => exact alike
    | ok saved =>
      rw [here, there] at pushed
      exact nomatch pushed
  | ok saved =>
    cases there : second.callStack.push second.pc with
    | error refused =>
      rw [here, there] at pushed
      exact nomatch pushed
    | ok other =>
      rw [here, there] at pushed
      exact (alike.withCallStack (Except.ok.inj pushed)).jump rfl

/-- Returns to alike addresses keep states alike. -/
theorem ret : Alike fold first.ret second.ret := by
  have popped := alike.map_pop?
  unfold State.ret
  cases here : first.callStack.pop? with
  | none =>
    cases there : second.callStack.pop? with
    | none => exact alike
    | some taken => simp [here, there] at popped
  | some taken =>
    cases there : second.callStack.pop? with
    | none => simp [here, there] at popped
    | some other =>
      rw [here, there] at popped
      obtain ⟨address, rest⟩ := Prod.mk.inj (Option.some.inj popped)
      exact (alike.withCallStack rest).jump address

theorem skipIf (condition : Bool) :
    Alike fold (first.skipIf condition) (second.skipIf condition) := by
  unfold State.skipIf
  split
  · exact alike.advance
  · exact alike

theorem met (condition : Condition) (senses : Senses) :
    condition.met first senses = condition.met second senses := by
  cases condition <;> simp only [Condition.met, alike.registers]

theorem waitKey (x : Register) (senses : Senses) :
    Alike fold (first.waitKey x senses) (second.waitKey x senses) := by
  unfold State.waitKey
  split
  · next key _ =>
    exact alike.update (·.setRegister x (UInt8.ofNat key.val)) fun _ _ _ _ => rfl
  · exact alike.rewind

theorem pointAtGlyph (font : Font) (x : Register) :
    Alike fold (first.pointAtGlyph font x) (second.pointAtGlyph font x) := by
  refine alike.withIndex ?_
  rw [alike.registers]

/-- The sum is formed from the whole index, which must be the same. -/
theorem addIndex (whole : first.index = second.index) (x : Register) :
    Alike fold (first.addIndex x) (second.addIndex x) := by
  unfold State.addIndex
  rw [alike.registers, whole]
  refine withIndex ?_ rfl
  exact alike.update (·.setFlag _) fun _ _ _ _ => rfl

section Block

variable (folds : Address.Folds fold)

include folds

theorem writeList {here there : List UInt8} (same : here = there) :
    Alike fold { first with memory := first.memory.writeList first.index here }
      { second with memory := second.memory.writeList second.index there } := by
  refine alike.withMemory ?_
  rw [alike.memory, same]
  exact second.memory.writeList_congr (folds.masked_congr alike.index) there

/-- Reading at an offset from the index gives the same byte. -/
theorem read_offset (offset : Address) :
    first.memory.read (first.index + offset) = second.memory.read (second.index + offset) := by
  rw [alike.memory]
  exact second.memory.read_congr (Address.masked_add_congr (folds.masked_congr alike.index) offset)

theorem loadRegisters (x : Register) :
    Alike fold (first.loadRegisters x) (second.loadRegisters x) := by
  refine alike.withRegisters ?_
  simp only [alike.registers, alike.read_offset folds]

theorem sprite (x y : Register) (n : UInt8) : first.sprite x y n = second.sprite x y n := by
  unfold State.sprite
  simp only [alike.registers, alike.resolution, alike.read_offset folds]

/-- **Every operation keeps states alike**, but for the sum of an index and a register, if the
indices are not the same. -/
theorem execute {operation : Operation} (senses : Senses)
    (whole : ∀ x, operation = .addIndex x → first.index = second.index) :
    Alike fold (first.execute operation senses) (second.execute operation senses) := by
  cases operation with
  | system address => exact alike.advance
  | jump address => exact alike.jump rfl
  | jumpOffset address =>
    refine alike.jump ?_
    rw [alike.registers]
  | call address => exact alike.call address
  | ret => exact alike.ret
  | skip condition =>
    simp only [State.execute, alike.met]
    exact alike.skipIf _
  | waitKey x => exact alike.waitKey x senses
  | loadIndex address => exact alike.withIndex rfl
  | addIndex x => exact alike.addIndex (whole x rfl) x
  | glyph font x => exact alike.pointAtGlyph font x
  | bcd x => exact alike.writeList folds (by rw [alike.registers])
  | storeRegisters x => exact alike.writeList folds (by rw [alike.registers])
  | loadRegisters x => exact alike.loadRegisters folds x
  | _ => exact alike.execute_of_unused senses not_false

/-- Alike states paint the same. -/
theorem paint {δ : Type u} [Screen δ] (operation : Operation) (screen : δ) :
    operation.paint first screen = operation.paint second screen := by
  cases operation with
  | scroll toward => simp only [Operation.paint, alike.resolution]
  | draw x y n => simp only [Operation.paint, alike.resolution, alike.sprite folds]
  | _ => rfl

end Block

/-- Alike states read the same word. -/
theorem word : first.word = second.word := by
  have here := second.memory.read_congr alike.pc
  have next := second.memory.read_congr (Address.masked_add_congr alike.pc 1)
  rw [State.word, State.word, alike.memory, here, next]

/-- Alike states remark the same in the journal. -/
theorem event? (operation : Operation) :
    operation.event? first.advance = operation.event? second.advance := by
  have pc : first.advance.pc = second.advance.pc := Address.masked_add_congr alike.pc 2
  have depth : first.advance.callStack.depth = second.advance.callStack.depth := by
    change first.callStack.masked.depth = second.callStack.masked.depth
    rw [alike.callStack]
  have pushed : (first.advance.callStack.push first.advance.pc).isOk =
      (second.advance.callStack.push second.advance.pc).isOk := by
    rw [Bool.eq_iff_iff, CallStack.isOk_push_iff, CallStack.isOk_push_iff, depth]
  have popped := congrArg Option.isSome alike.advance.map_pop?
  rw [Option.isSome_map, Option.isSome_map] at popped
  cases operation with
  | scroll toward | setResolution mode =>
    have resolution := alike.advance.resolution
    unfold Operation.event?
    rw [resolution]
  | call address =>
    unfold Operation.event?
    rw [pushed, pc]
  | ret =>
    unfold Operation.event?
    rw [popped, pc]
  | unknown word =>
    unfold Operation.event?
    rw [pc]
  | _ => rfl

end Alike

end State

namespace Event

/-- An event as far as masking leaves it: a trace shows reduced addresses. -/
def masked (fold : Address → Address) : Event → Event
  | executing pc word registers index =>
      executing (Address.masked pc) word registers (fold index)
  | event => event

end Event

/-- What is done to a machine, with the addresses of the machine and of the traces masked. -/
def Outcome.masked {δ : Type u} {κ : Type v} {ρ : Type w} (fold : Address → Address)
    (outcome : Outcome δ κ ρ) : Outcome δ κ ρ where
  machine := { outcome.machine with state := outcome.machine.state.masked fold }
  reply := outcome.reply
  journal := outcome.journal.map (Event.masked fold)

namespace Machine

variable {δ : Type u} {κ : Type v} {fold : Address → Address} {form : Nat → Prop}

/-- The machine with the addresses of its state masked. -/
def masked (fold : Address → Address) (machine : Machine δ κ) : Machine δ κ :=
  { machine with state := machine.state.masked fold }

/-- Two machines that differ at most in bits that masking takes off. -/
structure Alike (fold : Address → Address) (first second : Machine δ κ) : Prop where
  state : first.state.Alike fold second.state
  screen : first.screen = second.screen
  keys : first.keys = second.keys
  random : first.random = second.random
  timing : first.timing = second.timing

/-- A machine and its masked one are alike. -/
theorem alike_masked (folds : Address.Folds fold) (machine : Machine δ κ) :
    Alike fold machine (machine.masked fold) :=
  ⟨State.alike_masked folds _, rfl, rfl, rfl, rfl⟩

/-- Outcomes that match up to masking are the same once they are masked. -/
theorem MatchesUpTo.masked_eq {ρ : Type w} {first second : Outcome δ κ ρ}
    (alike : MatchesUpTo (Event.masked fold) (Alike fold) first second) :
    first.masked fold = second.masked fold := by
  obtain ⟨⟨state, screen, keys, random, timing⟩, reply, journal⟩ := alike
  simp only [Outcome.masked, State.alike_iff.mp state, screen, keys, random, timing, reply,
    journal]

namespace Alike

variable {first second : Machine δ κ} (alike : Alike fold first second)

include alike

theorem withState {here there : State} (same : here.Alike fold there) :
    Alike fold { first with state := here } { second with state := there } :=
  ⟨same, alike.screen, alike.keys, alike.random, alike.timing⟩

theorem withKeys (change : κ → κ) :
    Alike fold { first with keys := change first.keys }
      { second with keys := change second.keys } :=
  ⟨alike.state, alike.screen, congrArg change alike.keys, alike.random, alike.timing⟩

theorem withScreen (change : δ → δ) :
    Alike fold { first with screen := change first.screen }
      { second with screen := change second.screen } :=
  ⟨alike.state, congrArg change alike.screen, alike.keys, alike.random, alike.timing⟩

theorem tick : Alike fold first.tick second.tick :=
  alike.withState (alike.state.update State.tick fun _ _ _ _ => rfl)

theorem operation : first.operation = second.operation :=
  congrArg Operation.decode alike.state.word

/-- Alike machines answer alike to an image that is loaded. -/
theorem load (image : Array UInt8) :
    MatchesUpTo (Event.masked fold) (Alike fold) (first.load image) (second.load image) := by
  unfold Machine.load State.load
  rw [alike.state.memory]
  cases Rom.load second.state.memory image with
  | ok memory => exact ⟨alike.withState (alike.state.withMemory rfl), rfl, rfl⟩
  | error error => exact .answer alike _

section Step

variable [Screen δ] [KeySource κ] (folds : Address.Folds fold)

theorem reset : MatchesUpTo (Event.masked fold) (Alike fold) first.reset second.reset := by
  have begun := alike.withState (.refl State.initial)
  exact ⟨(begun.withKeys KeySource.releaseAll).withScreen Screen.clear, rfl, rfl⟩

include folds

/-- Alike machines perceive the same. -/
theorem senses : first.senses = second.senses := by
  have drawn := alike.state.advance.paint folds second.operation second.screen
  have held : first.held = second.held :=
    congrArg (fun keys (key : Fin 16) => KeySource.pressed keys (UInt8.ofNat key.val)) alike.keys
  rw [Machine.senses, Machine.senses, alike.operation, alike.screen, alike.random, drawn, held]

/-- **An instruction does not notice the bits**, unless it adds to an index that has them. -/
theorem execute (whole : Form.x 0xF 0x1E first.state.wordNumber →
      first.state.index = second.state.index) :
    MatchesUpTo (Event.masked fold) (Alike fold) first.execute second.execute := by
  have drawn := alike.state.advance.paint folds second.operation second.screen
  have operation := alike.operation
  have senses := alike.senses folds
  refine ⟨⟨?_, ?_, alike.keys, ?_, alike.timing⟩, ?_, ?_⟩
  · rw [state_execute, state_execute, ← operation, ← senses]
    refine alike.state.advance.execute folds first.senses fun x adds => whole ?_
    rw [← State.toNat_word]
    exact (Operation.decode_eq_iff.mp adds).1
  · rw [screen_execute, screen_execute, operation, alike.screen, drawn]
  · rw [random_execute, random_execute, operation, alike.random]
  · rw [reply_execute, reply_execute, operation, senses]
  · rw [journal_execute, journal_execute, operation, alike.state.event?, alike.state.word,
      alike.state.registers, Array.map_append, Array.map_append]
    simp only [List.map_toArray, List.map_cons, List.map_nil, Event.masked, alike.state.pc,
      alike.state.index]

/-- Alike machines answer a step alike, unless it is an `FX1E` and finds different indices. -/
theorem step (whole : first.Active → Form.x 0xF 0x1E first.state.wordNumber →
      first.state.index = second.state.index) :
    MatchesUpTo (Event.masked fold) (Alike fold) first.step second.step :=
  matchesUpTo_step alike (congrArg State.exitCode alike.state.rest :)
    (congrArg State.running alike.state.rest :) fun active => alike.execute folds (whole active)

end Step

end Alike

variable [Screen δ]

/-- Machines that are alike go in lockstep, while they do not add to an index that masking may
have changed. -/
theorem lockstepUnless_alike [KeySource κ] (folds : Address.Folds fold)
    (whole : ∀ word, Form.x 0xF 0x1E word → form word ∨ Function.Injective fold) :
    LockstepUnless form (Event.masked fold) (Alike (δ := δ) (κ := κ) fold) where
  step alike avoids := by
    refine alike.step folds fun active adds => ?_
    rcases whole _ adds with avoided | injective
    · exact absurd avoided (avoids active)
    · exact injective alike.state.index
  tick alike := alike.tick
  cycles alike := by
    rw [cyclesPerFrame, cyclesPerFrame, alike.timing, alike.state.resolution]

variable [KeyPanel κ]

/-- Alike machines answer every command alike that avoids the excepted words. -/
theorem Alike.perform
    (lockstep : LockstepUnless form (Event.masked fold) (Alike (δ := δ) (κ := κ) fold))
    {first second : Machine δ κ} (alike : Alike fold first second) {command : Command}
    (avoids : first.Avoids form (first.parts command)) :
    MatchesUpTo (Event.masked fold) (Alike fold) (first.perform command)
      (second.perform command) := by
  refine lockstep.perform alike avoids alike.load fun acts => ?_
  cases command with
  | reset =>
    have cleared := alike.reset
    exact ⟨cleared.machine, rfl, cleared.journal⟩
  | press key => exact .answer (alike.withKeys (KeyPanel.press · key)) _
  | release key => exact .answer (alike.withKeys (KeyPanel.release · key)) _
  | releaseAll => exact .answer (alike.withKeys KeySource.releaseAll) _
  | setRunning running =>
    refine .answer (alike.withState ?_) _
    exact alike.state.update (fun state => { state with running := running }) fun _ _ _ _ => rfl
  | toggleRunning =>
    refine ⟨alike.withState ?_, ?_, rfl⟩
    · exact alike.state.update (fun state => { state with running := !state.running })
        fun _ _ _ _ => rfl
    · exact (congrArg (fun state : State => Reply.running !state.running) alike.state.rest :)
  | frameShown =>
    refine .answer (alike.withState ?_) _
    exact alike.state.update (fun state => { state with redraw := false }) fun _ _ _ _ => rfl
  | restore state => exact .answer (alike.withState (.refl state)) _
  | _ => exact acts.elim

/-- Sessions do not tell a machine from its masked form, while it adds to no index that masking
may have changed. -/
theorem masked_performAll (folds : Address.Folds fold)
    (whole : ∀ word, Form.x 0xF 0x1E word → form word ∨ Function.Injective fold)
    {machine : Machine δ κ} {commands : List Command}
    (unexecuted : ∀ time, ¬ machine.ExecutesAt commands time form) :
    (machine.performAll commands).masked fold =
      ((machine.masked fold).performAll commands).masked fold := by
  have lockstep := lockstepUnless_alike (δ := δ) (κ := κ) folds whole
  refine MatchesUpTo.masked_eq (matchesUpTo_performAll ?_ (alike_masked folds machine)
    (avoids_stepwise unexecuted))
  intro command _ first second alike avoids
  exact alike.perform lockstep avoids

/-- **Masking goes unnoticed.** Whatever state a host has put back and whatever it does then, a
machine gives the same replies as the same machine with its program counter and its return
addresses masked, and masking what the two leave and note makes them equal. As long as no `FX1E` is
executed the index may be masked, too. A step that runs an instruction leaves the program counter
inside memory. -/
theorem masking_unnoticed (machine : Machine δ κ) (commands : List Command) :
    (machine.performAll commands).masked id =
      ((machine.masked id).performAll commands).masked id ∧
    ((∀ time, ¬ machine.ExecutesAt commands time (Form.x 0xF 0x1E)) →
      (machine.performAll commands).masked Address.masked =
        ((machine.masked Address.masked).performAll commands).masked Address.masked) ∧
    (machine.Active → machine.step.machine.state.pc.toNat ≤ 0xFFF) := by
  refine ⟨?_, ?_, ?_⟩
  · have whole (word : Nat) (_ : Form.x 0xF 0x1E word) :
        False ∨ Function.Injective (id : Address → Address) := .inr Function.injective_id
    exact masked_performAll Address.folds_id whole fun _ executed => executed.2.2
  · exact masked_performAll Address.folds_masked fun _ adds => .inl adds
  · intro active
    rw [step_of_active active, state_execute]
    exact State.pc_execute_le (Address.masked_le_last _)

/-- A machine put back to a state with bits beyond memory in all its addresses. It is about to load
two registers from the start of the program, and then to return. -/
def straying : Machine Uniform Keypad where
  state :=
    { State.initial with
      memory := Memory.blank.writeList Address.programStart [0xF1, 0x65, 0x00, 0xEE]
      index := 0x7200
      pc := 0x5200
      callStack := CallStack.ofList [0xA300] }
  screen := ⟨false⟩
  keys := KeyPad.released
  random := { key := Vector.replicate 8 0 }
  timing := Timing.standard

/-- Both instructions do what they do at the masked addresses. -/
theorem masking_unnoticed_straying :
    let session : List Command := [.step, .step]
    let last := straying.performAll session
    (∀ time, ¬ straying.ExecutesAt session time (Form.x 0xF 0x1E)) ∧
      (straying.masked Address.masked).state.index = 0x200 ∧
      last.reply = ((straying.masked Address.masked).performAll session).reply ∧
      last.machine.state.registers.get Register.zero = 0xF1 ∧
      Address.masked last.machine.state.pc = 0x300 ∧
      straying.step.machine.state.pc.toNat ≤ 0xFFF := by
  intro session last
  obtain ⟨-, unnoticed, inside⟩ := masking_unnoticed straying session
  have unadded (time : Nat) : ¬ straying.ExecutesAt session time (Form.x 0xF 0x1E) := by
    match time with
    | 0 | 1 => decide +kernel
    | time + 2 =>
      rintro ⟨next, -⟩
      simp [session, stepwise, parts] at next
  have same := unnoticed unadded
  have replies := congrArg Outcome.reply same
  have registers := congrArg (fun outcome => outcome.machine.state.registers) same
  have control := congrArg (fun outcome => outcome.machine.state.pc) same
  dsimp only [Outcome.masked, State.masked] at replies registers control
  refine ⟨unadded, by decide +kernel, replies, ?_, ?_, inside ⟨rfl, rfl⟩⟩
  · rw [registers]
    decide +kernel
  · rw [control]
    decide +kernel

end Machine

end SuperChip
