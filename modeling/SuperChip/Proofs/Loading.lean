import SuperChip.Proofs.Moments
import SuperChip.Screen.Recorded

/-!
# Loading program images

A source hands out an image piece by piece, and how it cuts the image makes no difference. All
pieces are gathered before anything else happens and the size is looked at before a byte is
written, so an image is loaded as a whole or not at all: a failure at any place of the source, and
an image that is too large, leave the machine as it was. A failure comes before the size.

`Reading.gather_eq` says what a source amounts to, and `Machine.loading_atomic` what the machine
makes of it.
-/

namespace SuperChip

universe u v

namespace Reading

/-- The bytes that one answer of a source brings. -/
def bytes : Reading → List UInt8
  | chunk piece => piece.toList
  | interrupted | failed _ => []

/-- Why a reading failed, if it did. -/
def reason? : Reading → Option String
  | failed reason => some reason
  | interrupted | chunk _ => none

/-- The bytes of a source, one piece after the other. -/
def joined (source : List Reading) : Array UInt8 :=
  (source.flatMap bytes).toArray

/-- Why a source cannot be read to its end, if so. -/
def failure? (source : List Reading) : Option String :=
  source.findSome? reason?

theorem append_joined_cons (gathered : Array UInt8) (reading : Reading) (rest : List Reading) :
    gathered ++ joined (reading :: rest) = gathered ++ reading.bytes.toArray ++ joined rest := by
  simp only [joined, List.flatMap_cons, ← List.append_toArray, Array.append_assoc]

/-- **What a source amounts to.** It fails with its first failure, or else brings all its bytes:
interruptions do not count, and neither does where the pieces are cut. -/
theorem gather_eq (gathered : Array UInt8) (source : List Reading) :
    gather gathered source =
      match failure? source with
      | some reason => .error (.unreadable reason)
      | none => .ok (gathered ++ joined source) := by
  induction source generalizing gathered with
  | nil => simp [gather, failure?, joined]
  | cons reading rest continued =>
    rw [append_joined_cons]
    cases reading with
    | interrupted =>
      simp only [gather, continued, bytes, Array.append_empty]
      rfl
    | chunk piece =>
      simp only [gather, continued, bytes, Array.toArray_toList]
      rfl
    | failed reason => rfl

end Reading

namespace Memory

variable {memory : Memory} {start : Nat} {block : Array UInt8}

/-- A block that fits into memory lies there byte by byte. -/
theorem get_place_of_mem (fits : start + block.size ≤ 4096) {offset : Nat}
    (inside : offset < block.size) :
    (memory.place start block).bytes.get (Fin.ofNat 4096 (start + offset)) = block[offset] := by
  have place : (Fin.ofNat 4096 (start + offset)).val = start + offset :=
    Nat.mod_eq_of_lt (by omega)
  rw [get_place, place, if_neg (by omega), Nat.add_sub_cancel_left, Array.getD,
    dif_pos inside]
  rfl

/-- Memory outside the place of a block is left as it was. -/
theorem get_place_of_not_mem {position : Fin 4096}
    (outside : position.val < start ∨ start + block.size ≤ position.val) :
    (memory.place start block).bytes.get position = memory.bytes.get position := by
  rw [get_place]
  split
  · rfl
  · next after =>
    rw [Array.getD, dif_neg (by omega)]

/-- A program lies in memory from a position on. -/
def Holds (memory : Memory) (start : Nat) (program : Array UInt8) : Prop :=
  ∀ (offset : Nat) (byte : UInt8), program[offset]? = some byte →
    memory.read (UInt16.ofNat (start + offset)) = byte

/-- A block that fits into memory can be read there. -/
theorem holds_place (memory : Memory) (fits : start + block.size ≤ 4096) :
    (memory.place start block).Holds start block := by
  intro offset byte given
  obtain ⟨inside, rfl⟩ := Array.getElem?_eq_some_iff.mp given
  rw [read, Address.cell_ofNat]
  exact get_place_of_mem fits inside

end Memory

/-- A program counter at some place of a program reads its word there. -/
theorem State.word_of_holds {state : State} {start : Nat} {program : Array UInt8}
    (holds : state.memory.Holds start program) (offset : Nat) {high low : UInt8}
    (counter : state.pc = UInt16.ofNat (start + offset)) (first : program[offset]? = some high)
    (second : program[offset + 1]? = some low) : state.word = Word.ofBytes high low := by
  have next : state.pc + 1 = UInt16.ofNat (start + (offset + 1)) := by
    rw [counter, ← Nat.add_assoc]
    exact (UInt16.ofNat_add (start + offset) 1).symm
  rw [word, next, counter, holds offset high first, holds (offset + 1) low second]

namespace Machine

variable {δ : Type u} {κ : Type v}

/-- A source that fails leaves the machine with the reason of the failure. -/
theorem loadFrom_of_failure (machine : Machine δ κ) {source : List Reading} {reason : String}
    (failed : Reading.failure? source = some reason) :
    machine.loadFrom source = machine.answer (.error (.unreadable reason)) := by
  rw [loadFrom, Reading.gather_eq, failed]

/-- A source that does not fail loads all the bytes it brings. -/
theorem loadFrom_of_no_failure (machine : Machine δ κ) {source : List Reading}
    (complete : Reading.failure? source = none) :
    machine.loadFrom source = machine.load (Reading.joined source) := by
  rw [loadFrom, Reading.gather_eq, complete, Array.empty_append]

/-- **Loading is all or nothing.** A source with a failure is refused for its reason, whatever
bytes come with it, and nothing of the machine changes. Any other source does what its bytes do
as one block. A block of at most 3584 bytes is laid over memory from 0x200 on, and all else stays
as it is; a larger one is refused, and nothing changes. -/
theorem loading_atomic (machine : Machine δ κ) (source : List Reading) :
    (∀ reason, Reading.failure? source = some reason →
      machine.loadFrom source = machine.answer (.error (.unreadable reason))) ∧
    (Reading.failure? source = none →
      let image := Reading.joined source
      let loaded := machine.load image
      let memory := loaded.machine.state.memory
      machine.loadFrom source = loaded ∧
      (image.size ≤ 3584 →
        loaded =
          { machine := { machine with state := { machine.state with memory := memory } }
            reply := .ok ()
            journal := #[.loaded image.size] } ∧
        (∀ (offset : Nat) (inside : offset < image.size),
          memory.bytes.get (Fin.ofNat 4096 (0x200 + offset)) = image[offset]) ∧
        ∀ position : Fin 4096, position.val < 0x200 ∨ 0x200 + image.size ≤ position.val →
          memory.bytes.get position = machine.state.memory.bytes.get position) ∧
      (3584 < image.size →
        loaded = machine.answer (.error (.tooLarge image.size 3584)))) := by
  refine ⟨fun reason failed => machine.loadFrom_of_failure failed, fun complete => ?_⟩
  intro image loaded memory
  refine ⟨machine.loadFrom_of_no_failure complete, fun fits => ?_, machine.load_of_lt⟩
  have whole : loaded = _ := machine.load_of_le fits
  have placed : memory = machine.state.memory.place Address.programStart.toNat image := by
    dsimp only [memory]
    rw [whole]
  refine ⟨?_, ?_, ?_⟩
  · rw [placed]
    exact whole
  · intro offset inside
    have room : Address.programStart.toNat + image.size ≤ 4096 := Nat.add_le_add_left fits 0x200
    rw [placed]
    exact Memory.get_place_of_mem room inside
  · intro position outside
    rw [placed]
    exact Memory.get_place_of_not_mem outside

section Moments

variable [Screen δ] [KeyPanel κ] {machine : Machine δ κ} {commands : List Command} {time : Nat}

/-- Once an image that fits is loaded, memory holds it, and the rest of the state is as before. -/
theorem state_moment_succ_of_load {image : Array UInt8}
    (given : (machine.stepwise commands)[time]? = some (.load image)) (fits : image.size ≤ 3584) :
    ∃ memory : Memory, memory.Holds 0x200 image ∧
      (machine.moment commands (time + 1)).state =
        { (machine.moment commands time).state with memory := memory } := by
  have room : 0x200 + image.size ≤ 4096 := Nat.add_le_add_left fits 0x200
  refine ⟨(machine.moment commands time).state.memory.place 0x200 image,
    Memory.holds_place _ room, ?_⟩
  rw [moment_succ given]
  change ((machine.moment commands time).load image).machine.state = _
  rw [load_of_le _ fits]
  rfl

/-- A step at some place of a program runs its instruction there. -/
theorem state_moment_succ_of_holds {start : Nat} {state : State} {program : Array UInt8}
    (here : (machine.moment commands time).state = state)
    (given : (machine.stepwise commands)[time]? = some .step)
    (active : state.exitCode = none ∧ state.running = true)
    (holds : state.memory.Holds start program) (offset : Nat) {high low : UInt8}
    (counter : state.pc = UInt16.ofNat (start + offset)) (first : program[offset]? = some high)
    (second : program[offset + 1]? = some low) :
    ∃ senses, (machine.moment commands (time + 1)).state =
      state.advance.execute (Operation.decode (Word.ofBytes high low)) senses := by
  subst here
  refine ⟨(machine.moment commands time).senses, ?_⟩
  rw [← State.word_of_holds holds offset counter first second, moment_succ given]
  change (machine.moment commands time).step.machine.state = _
  rw [step_of_active active, state_execute, operation]

end Moments

/-- A machine with nothing in its memory. -/
def unloaded : Machine Uniform Keypad where
  state := { State.initial with memory := Memory.blank }
  screen := ⟨false⟩
  keys := KeyPad.released
  random := { key := Vector.replicate 8 0 }
  timing := Timing.standard

/-- A program of one instruction in two pieces, with an empty one and interruptions between them,
is loaded. Nothing of it is if the source then fails, and a program one byte too long is refused. -/
theorem loading_atomic_piecewise :
    let pieces := [.interrupted, .chunk #[0x60], .chunk #[], .interrupted, .chunk #[0x05]]
    let oversized := [.chunk (Array.replicate 3584 0), .chunk #[0x05]]
    let loaded := unloaded.loadFrom pieces
    Reading.failure? pieces = none ∧ Reading.joined pieces = #[0x60, 0x05] ∧
      loaded.reply = .ok () ∧
      loaded.machine.state.memory.bytes.get (Fin.ofNat 4096 0x201) = 0x05 ∧
      loaded.machine.state.memory.bytes.get (Fin.ofNat 4096 0x202) = 0x00 ∧
      unloaded.loadFrom (pieces ++ [.failed "gone"]) =
        unloaded.answer (.error (.unreadable "gone")) ∧
      (Reading.joined oversized).size = 3585 ∧
      unloaded.loadFrom oversized = unloaded.answer (.error (.tooLarge 3585 3584)) := by
  intro pieces oversized loaded
  obtain ⟨-, completely⟩ := loading_atomic unloaded pieces
  obtain ⟨whole, fitting, -⟩ := completely rfl
  obtain ⟨outcome, inside, outside⟩ := fitting (by decide)
  obtain ⟨failing, -⟩ := loading_atomic unloaded (pieces ++ [.failed "gone"])
  obtain ⟨-, completelyToo⟩ := loading_atomic unloaded oversized
  obtain ⟨wholeToo, -, exceeding⟩ := completelyToo rfl
  have size : (Reading.joined oversized).size = 3585 := by
    simp only [oversized, Reading.joined, List.flatMap_cons, List.flatMap_nil, Reading.bytes,
      List.size_toArray, List.length_append, Array.length_toList, Array.size_replicate,
      List.length_nil]
    rfl
  rw [size] at exceeding
  have same : loaded = unloaded.load (Reading.joined pieces) := whole
  refine ⟨rfl, rfl, ?_, ?_, ?_, failing "gone" rfl, size, wholeToo.trans (exceeding (by decide))⟩
  · rw [same, outcome]
  · rw [same]
    exact inside 1 (by decide)
  · rw [same, outside (Fin.ofNat 4096 0x202) (.inr (by decide))]
    exact Table.get_replicate 0 _

end Machine

end SuperChip
