import SuperChip.Proofs.Footprint
import SuperChip.Proofs.Loading
import SuperChip.Proofs.Timers

/-!
# Digits in memory

The two fonts stand in memory between 0x050 and 0x13F from power on. Program images are laid over
memory further up, and of the instructions only `FX33` and `FX55` store anything, at addresses that
wrap past the end of memory. So the fonts are whole as long as none of the two has stored among
them since the last reset, and then `FX29` and `FX30` point the index at the rows of the digit that
they name.

The main statement is `Machine.fonts_survive`, for every session from power on without a restore.
It follows from what one instruction does to memory, `Machine.get_memory_execute`.
-/

namespace SuperChip

universe u v

namespace Form

/-- The words that point the index at a digit of a font, `FX29` and `FX30`. -/
def Points (font : Font) (word : Nat) : Prop :=
  match font with
  | .small => x 0xF 0x29 word
  | .large => x 0xF 0x30 word

/-- How many bytes a word stores in memory: the three digits of `FX33`, or the registers up to `X`
of `FX55`. -/
def stored (word : Nat) : Nat :=
  if x 0xF 0x33 word then 3
  else if x 0xF 0x55 word then word / 0x100 % 0x10 + 1
  else 0

end Form

namespace Memory

variable {memory other : Memory}

/-- Bytes that a block of consecutive addresses does not reach stay as they are. -/
theorem get_writeList_of_outside (memory : Memory) (address : Address) {values : List UInt8}
    {position : Fin 4096} (outside : ∀ offset < values.length,
      Fin.ofNat 4096 (address.toNat + offset) ≠ position) :
    (memory.writeList address values).bytes.get position = memory.bytes.get position := by
  simp only [← Address.cell_add_ofNat] at outside
  induction values generalizing memory address with
  | nil => rfl
  | cons value rest continued =>
    have here : Address.cell address ≠ position := by
      have first : Address.cell (address + 0) ≠ position := outside 0 (Nat.zero_lt_succ _)
      rwa [UInt16.add_zero] at first
    rw [writeList_cons, continued, get_write, if_neg here]
    intro offset below
    have next := outside (offset + 1) (Nat.succ_lt_succ below)
    rwa [Nat.add_comm, UInt16.ofNat_add, ← UInt16.add_assoc] at next

/-- What memory holds depends on the bytes of its place only. -/
theorem Holds.congr {start : Nat} {block : Array UInt8} (holds : memory.Holds start block)
    (same : ∀ offset < block.size, other.bytes.get (Fin.ofNat 4096 (start + offset)) =
      memory.bytes.get (Fin.ofNat 4096 (start + offset))) : other.Holds start block := by
  intro offset byte given
  have inside := (Array.getElem?_eq_some_iff.mp given).1
  have kept := holds offset byte given
  rw [read, Address.cell_ofNat] at kept ⊢
  rw [same offset inside, kept]

/-- Both fonts are in memory, byte for byte. -/
def HoldsFonts (memory : Memory) : Prop :=
  ∀ font : Font, memory.Holds font.base.toNat font.table

/-- Both tables of glyphs lie between `0x050` and `0x13F`. -/
theorem font_within (font : Font) {offset : Nat} (inside : offset < font.table.size) :
    0x050 ≤ font.base.toNat + offset ∧ font.base.toNat + offset ≤ 0x13F := by
  rw [Font.size_table] at inside
  cases font with
  | small =>
    change offset < 80 at inside
    change 0x050 ≤ 0x050 + offset ∧ 0x050 + offset ≤ 0x13F
    omega
  | large =>
    change offset < 160 at inside
    change 0x050 ≤ 0x0A0 + offset ∧ 0x0A0 + offset ≤ 0x13F
    omega

/-- Whether memory holds the fonts depends on the bytes from `0x050` to `0x13F` only. -/
theorem HoldsFonts.congr (holds : memory.HoldsFonts)
    (same : ∀ position : Fin 4096, 0x050 ≤ position.val → position.val ≤ 0x13F →
      other.bytes.get position = memory.bytes.get position) : other.HoldsFonts := by
  intro font
  refine (holds font).congr fun offset inside => ?_
  obtain ⟨after, before⟩ := font_within font inside
  have place : (Fin.ofNat 4096 (font.base.toNat + offset)).val = font.base.toNat + offset :=
    Nat.mod_eq_of_lt (by omega)
  exact same _ (by rwa [place]) (by rwa [place])

/-- The fonts are there at the start. -/
theorem holdsFonts_initial : initial.HoldsFonts := by
  intro font
  cases font with
  | large => exact holds_place _ (by decide +kernel)
  | small =>
    have placed : (blank.place Font.small.base.toNat Font.small.table).Holds
        Font.small.base.toNat Font.small.table := holds_place blank (by decide +kernel)
    refine placed.congr fun offset inside => get_place_of_not_mem (.inl ?_)
    rw [Font.size_table] at inside
    change offset < 80 at inside
    change (0x050 + offset) % 4096 < 0x0A0
    omega

/-- A program image lies past the fonts. -/
theorem HoldsFonts.place (holds : memory.HoldsFonts) (image : Array UInt8) :
    (memory.place Address.programStart.toNat image).HoldsFonts := by
  refine holds.congr fun position _ before => get_place_of_not_mem (.inl ?_)
  change position.val < 0x200
  omega

end Memory

namespace State

/-- Whether the instruction at the program counter stores to a byte of memory. -/
def StoresTo (state : State) (position : Nat) : Prop :=
  ∃ offset < Form.stored state.wordNumber, (state.index.toNat + offset) % 4096 = position

/-- With both fonts in memory, the index points at the rows of the digit in a register. -/
theorem read_pointAtGlyph {state : State} (holds : state.memory.HoldsFonts) (font : Font)
    {x : Register} {digit : Fin 16} (value : (state.registers.get x).toNat = digit.val)
    {line : Nat} (below : line < font.glyphSize) :
    let pointed := state.pointAtGlyph font x
    pointed.memory.read (pointed.index + UInt16.ofNat line) = font.row digit line := by
  have inside : digit.val * font.glyphSize + line < font.table.size := by
    have last : (digit.val + 1) * font.glyphSize ≤ 16 * font.glyphSize :=
      Nat.mul_le_mul_right _ digit.isLt
    rw [Nat.add_one_mul] at last
    rw [Font.size_table]
    omega
  have within := Memory.font_within font inside
  have byte := holds font _ _ (Array.getElem?_eq_getElem inside)
  intro pointed
  have cell : Address.cell (pointed.index + UInt16.ofNat line) =
      Address.cell (UInt16.ofNat (font.base.toNat + (digit.val * font.glyphSize + line))) := by
    rw [Address.cell_add_ofNat, Address.cell_ofNat]
    dsimp only [pointed, pointAtGlyph]
    apply Fin.ext
    rw [value, UInt16.toNat_ofNat', Fin.val_ofNat, Fin.val_ofNat]
    omega
  rw [Memory.read, cell]
  refine byte.trans ?_
  rw [Font.row, Array.getD, dif_pos inside]
  rfl

end State

namespace Machine

section Instruction

variable {δ : Type u} {κ : Type v} [Screen δ] [KeySource κ] {machine : Machine δ κ}

/-- **An instruction changes no byte of memory that it does not store to.** -/
theorem get_memory_execute {position : Fin 4096} (spared : ¬ machine.state.StoresTo position.val) :
    machine.execute.machine.state.memory.bytes.get position =
      machine.state.memory.bytes.get position := by
  have outside (values : List UInt8)
      (count : values.length ≤ Form.stored machine.state.wordNumber) :
      (machine.state.memory.writeList machine.state.index values).bytes.get position =
        machine.state.memory.bytes.get position :=
    Memory.get_writeList_of_outside _ _ fun offset below same =>
      spared ⟨offset, Nat.lt_of_lt_of_le below count, congrArg Fin.val same⟩
  have number := machine.state.toNat_word
  by_cases digits : Form.x 0xF 0x33 machine.state.wordNumber
  · have decoded : machine.operation = .bcd (Word.x machine.state.word) :=
      Operation.decode_of_encodes ⟨number ▸ digits, rfl⟩
    rw [state_execute, decoded]
    refine outside (decimalDigits _) ?_
    rw [Form.stored, if_pos digits]
    exact Nat.le_refl 3
  · by_cases registers : Form.x 0xF 0x55 machine.state.wordNumber
    · have decoded : machine.operation = .storeRegisters (Word.x machine.state.word) :=
        Operation.decode_of_encodes ⟨number ▸ registers, rfl⟩
      rw [state_execute, decoded]
      refine outside (Registers.upTo _ _) ?_
      rw [Form.stored, if_neg digits, if_pos registers, Registers.upTo, List.length_take,
        Word.val_x, number]
      exact Nat.min_le_left _ _
    · have same : machine.execute.machine.state.memory = machine.state.memory :=
        Classical.byContradiction fun changed =>
          (machine.footprint_execute.state .memory changed).elim digits registers
      rw [same]

/-- The words `FX29` and `FX30` point the index at the glyph of the digit in `VX`. -/
theorem state_carryOut_of_points {font : Font} {word : Word}
    (form : Form.Points font word.toNat) :
    (machine.carryOut (Operation.decode word)).state =
      machine.state.pointAtGlyph font (Word.x word) := by
  have decoded : Operation.decode word = .glyph font (Word.x word) := by
    cases font <;> exact Operation.decode_of_encodes ⟨form, rfl⟩
  rw [decoded]
  rfl

end Instruction

variable {δ : Type u} {κ : Type v} [Screen δ] [KeyPanel κ]

/-- A host that restores nothing leaves the fonts whole but for its steps. -/
theorem holdsFonts_perform {machine : Machine δ κ} (holds : machine.state.memory.HoldsFonts)
    {command : Command} (notStep : command ≠ .step) (notFrame : command ≠ .runFrame)
    (unrestoring : ∀ state, command ≠ .restore state) :
    (machine.perform command).machine.state.memory.HoldsFonts := by
  have loaded (image : Array UInt8) : (machine.load image).machine.state.memory.HoldsFonts := by
    rw [machine_load]
    split
    · exact holds.place image
    · exact holds
  cases command with
  | step => exact absurd rfl notStep
  | runFrame => exact absurd rfl notFrame
  | restore state => exact absurd rfl (unrestoring state)
  | reset => exact Memory.holdsFonts_initial
  | load image => exact loaded image
  | loadFrom source =>
    change (machine.loadFrom source).machine.state.memory.HoldsFonts
    unfold loadFrom
    split
    · exact loaded _
    · exact holds
  | _ => exact holds

/-- At this time of a session an instruction stores among the fonts. -/
def SpoilsFontsAt (machine : Machine δ κ) (commands : List Command) (time : Nat) : Prop :=
  machine.ExecutesAt commands time (fun _ => True) ∧
    ∃ position, 0x050 ≤ position ∧ position ≤ 0x13F ∧
      (machine.moment commands time).state.StoresTo position

/-- No instruction has stored among the fonts since the last reset before a time. -/
def FontsSpared (machine : Machine δ κ) (commands : List Command) (time : Nat) : Prop :=
  ∀ earlier < time, machine.SpoilsFontsAt commands earlier →
    ∃ later, earlier < later ∧ later < time ∧ (machine.stepwise commands)[later]? = some .reset

section Moments

variable {machine : Machine δ κ} {commands : List Command} {time : Nat}

/-- What was spared up to now was spared before, unless it is put right just now. -/
theorem FontsSpared.before (spared : machine.FontsSpared commands (time + 1))
    (unreset : (machine.stepwise commands)[time]? ≠ some .reset) :
    machine.FontsSpared commands time ∧ ¬ machine.SpoilsFontsAt commands time := by
  refine ⟨fun earlier before spoils => ?_, fun spoils => ?_⟩
  · obtain ⟨later, after, within, reset⟩ := spared earlier (Nat.lt_succ_of_lt before) spoils
    have distinct : later ≠ time := fun same => unreset (same ▸ reset)
    exact ⟨later, after, by omega, reset⟩
  · obtain ⟨later, after, within, -⟩ := spared time (Nat.lt_succ_self time) spoils
    omega

/-- From one moment to the next the fonts stay whole unless an instruction stores among them. -/
theorem holdsFonts_moment_succ (unrestored : ∀ state, Command.restore state ∉ commands)
    (holds : (machine.moment commands time).state.memory.HoldsFonts)
    (unspoiled : ¬ machine.SpoilsFontsAt commands time) :
    (machine.moment commands (time + 1)).state.memory.HoldsFonts := by
  cases machine.passage commands time with
  | executes executed =>
    rw [executed.moment_succ]
    refine holds.congr fun position after before => get_memory_execute fun stores => ?_
    exact unspoiled ⟨executed, position.val, after, before, stores⟩
  | stands _ still => rwa [still]
  | hosted _ part notStep notFrame next =>
    rw [next]
    exact holdsFonts_perform holds notStep notFrame (ne_restore_of_mem_stepwise unrestored part)

/-- The fonts are whole at every moment until an instruction stores among them. -/
theorem holdsFonts_moment (unrestored : ∀ state, Command.restore state ∉ commands)
    (begun : machine.state.memory.HoldsFonts) (spared : machine.FontsSpared commands time) :
    (machine.moment commands time).state.memory.HoldsFonts := by
  induction time with
  | zero => exact begun
  | succ time continued =>
    by_cases reset : (machine.stepwise commands)[time]? = some .reset
    · rw [moment_succ reset]
      exact Memory.holdsFonts_initial
    · obtain ⟨before, unspoiled⟩ := spared.before reset
      exact holdsFonts_moment_succ unrestored (continued before) unspoiled

end Moments

/-- **The fonts survive, and digits are found in them.** In every session from power on without a
restore, at every moment before which no instruction has stored among the fonts since the last
reset, both fonts are in memory byte for byte. An `FX29` or `FX30` that is run then, with a digit in
register `X`, leaves the index at the rows of this digit in the font. The last of the moments is
what the session leaves. -/
theorem fonts_survive (screen : δ) (keys : κ) (timing : Timing) (random : RandomStream)
    (commands : List Command) (unrestored : ∀ state, Command.restore state ∉ commands) :
    let machine := (boot screen keys timing random).machine
    (machine.performAll commands).machine =
      machine.moment commands (machine.stepwise commands).length ∧
    ∀ time, machine.FontsSpared commands time →
      let now := machine.moment commands time
      now.state.memory.HoldsFonts ∧
      ∀ (font : Font) (word : Word) (digit : Fin 16), Form.Points font word.toNat →
        (now.state.registers.get (Word.x word)).toNat = digit.val →
        let pointed := (now.past.carryOut (Operation.decode word)).state
        ∀ line < font.glyphSize,
          pointed.memory.read (pointed.index + UInt16.ofNat line) = font.row digit line := by
  intro machine
  refine ⟨moment_length.symm, fun time spared => ?_⟩
  intro now
  have holds : now.state.memory.HoldsFonts :=
    holdsFonts_moment unrestored Memory.holdsFonts_initial spared
  refine ⟨holds, fun font word digit form value => ?_⟩
  intro pointed line below
  have holdsPast : now.past.state.memory.HoldsFonts := holds
  have same : pointed = now.past.state.pointAtGlyph font (Word.x word) :=
    state_carryOut_of_points form
  rw [same]
  exact State.read_pointAtGlyph holdsPast font value below

/-- A program that stores a zero over the first row of the first digit. -/
def spoiling : Array UInt8 :=
  #[0xA0, 0x50, 0xF0, 0x55]

/-- The program spoils the fonts, and a reset puts them right: a digit is found again. -/
theorem fonts_survive_spoiling :
    let session : List Command := [.load spoiling, .step, .step, .reset]
    (∀ state, Command.restore state ∉ session) ∧
      fresh.SpoilsFontsAt session 2 ∧ ¬ fresh.FontsSpared session 3 ∧
      fresh.FontsSpared session 4 ∧ (fresh.moment session 4).state.memory.HoldsFonts ∧
      let pointed := ((fresh.moment session 4).past.carryOut (Operation.decode 0xF029)).state
      pointed.memory.read (pointed.index + UInt16.ofNat 1) = 0x90 := by
  intro session
  have unrestored (state : State) : Command.restore state ∉ session := by simp [session]
  have written : fresh.stepwise session = [.load spoiling, .step, .step, .reset] := rfl
  clear_value session
  obtain ⟨-, survive⟩ := fonts_survive (⟨false⟩ : Uniform) (KeyPad.released : Keypad)
    Timing.standard { key := Vector.replicate 8 0 } session unrestored
  have begins : (fresh.stepwise session)[0]? = some (.load spoiling) := by rw [written]; rfl
  obtain ⟨memory, holds, loaded⟩ := state_moment_succ_of_load begins (by decide)
  obtain ⟨_, second⟩ := state_moment_succ_of_holds loaded (by rw [written]; rfl) ⟨rfl, rfl⟩
    holds 0 rfl rfl rfl
  have number : (fresh.moment session 2).state.wordNumber = 0xF055 := by
    rw [← State.toNat_word, second, State.word_of_holds holds 2 rfl rfl rfl]
    decide
  have spoils : fresh.SpoilsFontsAt session 2 := by
    refine ⟨⟨by rw [written]; rfl, ?_, trivial⟩, 0x050, by decide, by decide, 0, ?_, ?_⟩
    · rw [Active, second]
      exact ⟨rfl, rfl⟩
    · rw [number]
      decide
    · rw [second]
      rfl
  have reset : (fresh.stepwise session)[3]? = some .reset := by rw [written]; rfl
  have spared : fresh.FontsSpared session 4 := by
    intro earlier before spoiled
    refine ⟨3, Nat.lt_of_le_of_ne (Nat.le_of_lt_succ before) ?_, by decide, reset⟩
    rintro rfl
    exact Command.noConfusion (Option.some.inj (reset.symm.trans spoiled.1.1))
  have unspared : ¬ fresh.FontsSpared session 3 := by
    intro spared
    obtain ⟨later, after, within, -⟩ := spared 2 (by decide) spoils
    omega
  obtain ⟨whole, pointed⟩ := survive 4 spared
  refine ⟨unrestored, spoils, unspared, spared, whole, ?_⟩
  have zero : (fresh.moment session 4).state.registers.get Register.zero = 0 := by
    rw [moment_succ reset]
    exact Table.get_replicate 0 Register.zero
  exact pointed .small 0xF029 ⟨0, by decide⟩ ⟨rfl, rfl⟩ (congrArg UInt8.toNat zero) 1 (by decide)

end Machine

end SuperChip
