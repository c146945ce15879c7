import SuperChip.Proofs.Glyphs

/-!
# Blocks of registers in memory

`FX55` lays the registers up to its own over memory from the index on, and `FX65` takes them from
there; `FX33` stores three decimal digits. The addresses of a block wrap twice, at sixteen bits and
at the end of memory, and name different bytes all the same. So what was stored is loaded again,
whatever happened to the registers in between, and what was loaded is stored where it came from.

The main statement is `Machine.blocks_round_trip`, about the operations of these words in every
state. It follows from what each of them does, `State.StoresRegisters` and `State.LoadsRegisters`,
and the first of these from a law of memory, `Memory.byteAt_writeList`.
-/

namespace SuperChip

universe u v

namespace Memory

/-- A block of consecutive addresses holds what was written there, as long as it does not reach its
own start again. -/
theorem byteAt_writeList (memory : Memory) (address : Address) {values : List UInt8} {offset : Nat}
    {value : UInt8} (fits : values.length ≤ 4096) (given : values[offset]? = some value) :
    (memory.writeList address values).byteAt (address.toNat + offset) = value := by
  induction values generalizing memory address offset with
  | nil => exact absurd given (by simp)
  | cons first rest continued =>
    have next : (address + 1).toNat = (address.toNat + 1) % 65536 := UInt16.toNat_add address 1
    rw [List.length_cons] at fits
    rw [writeList_cons]
    cases offset with
    | zero =>
      obtain rfl := Option.some.inj given
      have here : Address.cell address = Fin.ofNat 4096 (address.toNat + 0) := rfl
      rw [byteAt, get_writeList_of_outside, get_write, if_pos here]
      intro later below same
      -- No later byte comes back to this one, for fewer than 4096 follow.
      have cells := congrArg Fin.val same
      rw [Fin.val_ofNat, Fin.val_ofNat, next] at cells
      omega
    | succ offset =>
      have later := continued (memory.write address first) (address + 1) (by omega) given
      rw [byteAt] at later ⊢
      rw [← later]
      congr 1
      apply Fin.ext
      rw [Fin.val_ofNat, Fin.val_ofNat, next]
      omega

end Memory

namespace Registers

variable (bank : Registers)

/-- The registers up to the last one are one more than its number. -/
theorem length_upTo (last : Register) : (upTo bank last).length = last.val + 1 := by
  rw [upTo, List.length_take, Vector.length_toList]
  exact Nat.min_eq_left last.isLt

/-- The registers up to the last one stand in their order. -/
theorem getElem?_upTo {last k : Register} (within : k.val ≤ last.val) :
    (upTo bank last)[k.val]? = some (bank.get k) := by
  have inside : k.val < bank.toList.length := by
    rw [Vector.length_toList]
    exact k.isLt
  rw [upTo, List.getElem?_take_of_lt (Nat.lt_succ_of_le within), List.getElem?_eq_getElem inside]
  rfl

end Registers

namespace State

/-- One state comes from another by storing the registers up to some register in memory, from the
index on, and by nothing else. -/
structure StoresRegisters (before after : State) (last : Register) : Prop where
  stored (k : Register) : k.val ≤ last.val →
    after.memory.byteAt (before.index.toNat + k.val) = before.registers.get k
  spared (position : Fin 4096) :
    (∀ k : Register, k.val ≤ last.val →
      Fin.ofNat 4096 (before.index.toNat + k.val) ≠ position) →
    after.memory.bytes.get position = before.memory.bytes.get position
  others (component : Component) : component ≠ .memory → component.Agrees after before

/-- One state comes from another by loading the registers up to some register from memory, from the
index on, and by nothing else. -/
structure LoadsRegisters (before after : State) (last : Register) : Prop where
  loaded (k : Register) : k.val ≤ last.val →
    after.registers.get k = before.memory.byteAt (before.index.toNat + k.val)
  others (component : Component) :
    (∀ k : Register, component = .register k → last.val < k.val) → component.Agrees after before

/-- Storing registers writes them to memory at the index, and nothing else. -/
theorem storesRegisters (state : State) (x : Register) :
    state.StoresRegisters (state.storeRegisters x) x where
  stored k within := by
    refine Memory.byteAt_writeList _ _ ?_ (Registers.getElem?_upTo _ within)
    rw [Registers.length_upTo]
    omega
  spared position outside := by
    refine Memory.get_writeList_of_outside _ _ fun offset below => ?_
    rw [Registers.length_upTo] at below
    exact outside ⟨offset, by omega⟩ (Nat.le_of_lt_succ below)
  others _ other := agrees_withMemory state _ other

/-- Loading registers reads them from memory at the index, and nothing else. -/
theorem loadsRegisters (state : State) (x : Register) :
    state.LoadsRegisters (state.loadRegisters x) x where
  loaded k within := by
    refine (Registers.get_overlay state.registers x _ k).trans ((if_pos within).trans ?_)
    exact Memory.read_add_ofNat state.memory state.index k.val
  others _ past := agrees_withOverlay state x _ past

section RoundTrips

variable {before stored changed loaded : State} {last : Register}

theorem LoadsRegisters.memory (loads : before.LoadsRegisters loaded last) :
    loaded.memory = before.memory :=
  loads.others .memory fun _ same => Component.noConfusion same

theorem LoadsRegisters.index (loads : before.LoadsRegisters loaded last) :
    loaded.index = before.index :=
  loads.others .index fun _ same => Component.noConfusion same

/-- The bytes past a stored block stay as they are: sixteen addresses in a row name different
bytes. -/
theorem StoresRegisters.byteAt_beyond (stores : before.StoresRegisters stored last) {k : Register}
    (beyond : last.val < k.val) :
    stored.memory.byteAt (before.index.toNat + k.val) =
      before.memory.byteAt (before.index.toNat + k.val) := by
  refine stores.spared _ fun other within same => ?_
  have cells := congrArg Fin.val same
  rw [Fin.val_ofNat, Fin.val_ofNat] at cells
  omega

/-- Stored registers are loaded again, and past them what memory held before. -/
theorem StoresRegisters.get_loaded (stores : before.StoresRegisters stored last) {final : Register}
    (loads : changed.LoadsRegisters loaded final) (memory : changed.memory = stored.memory)
    (index : changed.index = before.index) {k : Register} (within : k.val ≤ final.val) :
    loaded.registers.get k = if k.val ≤ last.val then before.registers.get k
      else before.memory.byteAt (before.index.toNat + k.val) := by
  rw [loads.loaded k within, memory, index]
  split
  · next inside => exact stores.stored k inside
  · next beyond => exact stores.byteAt_beyond (Nat.not_le.mp beyond)

/-- Registers stored where they were just loaded from change no byte. -/
theorem LoadsRegisters.memory_stored (loads : before.LoadsRegisters loaded last)
    (stores : loaded.StoresRegisters stored last) : stored.memory = before.memory := by
  refine Memory.ext fun position => ?_
  by_cases inside : ∃ k : Register, k.val ≤ last.val ∧
      Fin.ofNat 4096 (before.index.toNat + k.val) = position
  · obtain ⟨k, within, rfl⟩ := inside
    have byte := stores.stored k within
    rw [loads.index, loads.loaded k within] at byte
    exact byte
  · rw [stores.spared position, loads.memory]
    rw [loads.index]
    exact fun k within same => inside ⟨k, within, same⟩

end RoundTrips

end State

/-- The three decimal digits of a byte are digits, and their number is the byte. -/
theorem decimalDigits_spec (value : UInt8) : ∃ hundreds tens ones : UInt8,
    decimalDigits value = [hundreds, tens, ones] ∧
      hundreds.toNat < 10 ∧ tens.toNat < 10 ∧ ones.toNat < 10 ∧
      100 * hundreds.toNat + 10 * tens.toNat + ones.toNat = value.toNat := by
  have below := value.toNat_lt
  refine ⟨value / 100, value / 10 % 10, value % 10, rfl, ?_⟩
  simp only [UInt8.toNat_div, UInt8.toNat_mod, UInt8.reduceToNat]
  omega

namespace Machine

section Instructions

variable {δ : Type u} {κ : Type v} [Screen δ] [KeySource κ] (machine : Machine δ κ) {word : Word}

/-- A word `FX55` stores the registers up to `VX`. -/
theorem storesRegisters_of_form (form : Form.x 0xF 0x55 word.toNat) :
    machine.state.StoresRegisters (machine.carryOut (Operation.decode word)).state
      (Word.x word) := by
  have decoded : Operation.decode word = .storeRegisters (Word.x word) :=
    Operation.decode_of_encodes ⟨form, rfl⟩
  rw [decoded]
  exact machine.state.storesRegisters _

/-- A word `FX65` loads the registers up to `VX`. -/
theorem loadsRegisters_of_form (form : Form.x 0xF 0x65 word.toNat) :
    machine.state.LoadsRegisters (machine.carryOut (Operation.decode word)).state
      (Word.x word) := by
  have decoded : Operation.decode word = .loadRegisters (Word.x word) :=
    Operation.decode_of_encodes ⟨form, rfl⟩
  rw [decoded]
  exact machine.state.loadsRegisters _

/-- The digits that `FX33` stores and `F265` loads are those of the register. -/
theorem digits_loaded (form : Form.x 0xF 0x33 word.toNat) :
    let stored := machine.carryOut (Operation.decode word)
    let loaded := (stored.carryOut (Operation.decode 0xF265)).state
    let digit (k : Nat) := (loaded.registers.get (Fin.ofNat 16 k)).toNat
    digit 0 < 10 ∧ digit 1 < 10 ∧ digit 2 < 10 ∧
      100 * digit 0 + 10 * digit 1 + digit 2 =
        (machine.state.registers.get (Word.x word)).toNat ∧
      ∀ position : Fin 4096,
        (∀ offset < 3, Fin.ofNat 4096 (machine.state.index.toNat + offset) ≠ position) →
        loaded.memory.bytes.get position = machine.state.memory.bytes.get position := by
  intro stored loaded digit
  have written : stored.state = machine.state.storeDecimal (Word.x word) := by
    have decoded : Operation.decode word = .bcd (Word.x word) :=
      Operation.decode_of_encodes ⟨form, rfl⟩
    dsimp only [stored]
    rw [decoded]
    rfl
  have loads : stored.state.LoadsRegisters loaded (Word.x 0xF265) :=
    stored.loadsRegisters_of_form ⟨rfl, rfl⟩
  obtain ⟨hundreds, tens, ones, digits, hundredsBelow, tensBelow, onesBelow, number⟩ :=
    decimalDigits_spec (machine.state.registers.get (Word.x word))
  have byte {k : Nat} {value : UInt8} (inside : k ≤ 2)
      (given : [hundreds, tens, ones][k]? = some value) : digit k = value.toNat := by
    have place : (Fin.ofNat 16 k).val = k := Nat.mod_eq_of_lt (by omega)
    have taken := loads.loaded (Fin.ofNat 16 k) (by rwa [place])
    rw [place, written] at taken
    rw [← digits] at given
    refine congrArg UInt8.toNat (taken.trans ?_)
    exact Memory.byteAt_writeList machine.state.memory machine.state.index
      (show 3 ≤ 4096 by decide) given
  rw [byte (by decide) (rfl : _ = some hundreds), byte (by decide) (rfl : _ = some tens),
    byte (by decide) (rfl : _ = some ones)]
  refine ⟨hundredsBelow, tensBelow, onesBelow, number, fun position outside => ?_⟩
  rw [loads.memory, written]
  exact Memory.get_writeList_of_outside _ _ outside

end Instructions

/-- **Blocks of registers go to memory and back.** In every state, with every index, `FX55` stores
the registers up to its own at as many bytes from the index on and changes nothing else, and `FX65`
loads them from there and changes nothing else. So `FX55`, any change of the registers and `FX65`
bring back what was stored, and past it what memory held before; `FX65` and then `FX55` with the
same last register leave memory as it was; and `FX33` and then `F265` put the decimal digits of the
register into the first three, changing at most three bytes of memory. -/
theorem blocks_round_trip {δ : Type u} {κ : Type v} [Screen δ] [KeySource κ]
    (machine : Machine δ κ) :
    let before := machine.state
    let after (word : Word) := machine.carryOut (Operation.decode word)
    (∀ word : Word, Form.x 0xF 0x55 word.toNat →
      before.StoresRegisters (after word).state (Word.x word)) ∧
    (∀ word : Word, Form.x 0xF 0x65 word.toNat →
      before.LoadsRegisters (after word).state (Word.x word)) ∧
    (∀ store load : Word, Form.x 0xF 0x55 store.toNat → Form.x 0xF 0x65 load.toNat →
      ∀ registers : Registers,
        let stored := after store
        let changed := { stored with state := { stored.state with registers := registers } }
        let loaded := (changed.carryOut (Operation.decode load)).state
        ∀ k : Register, k.val ≤ (Word.x load).val →
          loaded.registers.get k =
            if k.val ≤ (Word.x store).val then before.registers.get k
            else before.memory.byteAt (before.index.toNat + k.val)) ∧
    (∀ load store : Word, Form.x 0xF 0x65 load.toNat → Form.x 0xF 0x55 store.toNat →
      Word.x store = Word.x load →
      ((after load).carryOut (Operation.decode store)).state.memory = before.memory) ∧
    ∀ word : Word, Form.x 0xF 0x33 word.toNat →
      let loaded := ((after word).carryOut (Operation.decode 0xF265)).state
      let digit (k : Nat) := (loaded.registers.get (Fin.ofNat 16 k)).toNat
      digit 0 < 10 ∧ digit 1 < 10 ∧ digit 2 < 10 ∧
        100 * digit 0 + 10 * digit 1 + digit 2 = (before.registers.get (Word.x word)).toNat ∧
        ∀ position : Fin 4096,
          (∀ offset < 3, Fin.ofNat 4096 (before.index.toNat + offset) ≠ position) →
          loaded.memory.bytes.get position = before.memory.bytes.get position := by
  intro before after
  have stores {word : Word} (form : Form.x 0xF 0x55 word.toNat) :
      before.StoresRegisters (after word).state (Word.x word) :=
    machine.storesRegisters_of_form form
  have loads {word : Word} (form : Form.x 0xF 0x65 word.toNat) :
      before.LoadsRegisters (after word).state (Word.x word) :=
    machine.loadsRegisters_of_form form
  refine ⟨fun _ => stores, fun _ => loads, fun store load storeForm loadForm registers => ?_,
    fun load store loadForm storeForm same => ?_, fun word form => machine.digits_loaded form⟩
  · intro stored changed loaded k within
    have index : changed.state.index = before.index :=
      (stores storeForm).others .index Component.noConfusion
    exact (stores storeForm).get_loaded (changed.loadsRegisters_of_form loadForm) rfl index within
  · have storesBack := (after load).storesRegisters_of_form storeForm
    rw [same] at storesBack
    exact (loads loadForm).memory_stored storesBack

/-- A machine whose index is the last number of sixteen bits, so that a block at the index wraps
both as a number and in memory. -/
def wrapping : Machine Uniform Keypad where
  state :=
    { State.initial with
      memory := Memory.blank
      registers := Table.put (Vector.replicate 16 7) Register.zero 200
      index := 0xFFFF }
  screen := ⟨false⟩
  keys := KeyPad.released
  random := { key := Vector.replicate 8 0 }
  timing := Timing.standard

/-- Two registers stored across the end of memory are loaded again after all registers were cleared,
with a third from the byte behind them; stored where they came from they change nothing; and the
digits of two hundred are two, zero and zero. -/
theorem blocks_round_trip_wrapping :
    let stored := wrapping.carryOut (Operation.decode 0xF155)
    let cleared := { stored with state := { stored.state with registers := Vector.replicate 16 0 } }
    let loaded := (cleared.carryOut (Operation.decode 0xF265)).state
    let digits := wrapping.carryOut (Operation.decode 0xF033)
    let digit (k : Nat) :=
      ((digits.carryOut (Operation.decode 0xF265)).state.registers.get (Fin.ofNat 16 k)).toNat
    Form.x 0xF 0x55 (0xF155 : Word).toNat ∧ Form.x 0xF 0x65 (0xF265 : Word).toNat ∧
      loaded.registers.get Register.zero = 200 ∧ loaded.registers.get (Fin.ofNat 16 1) = 7 ∧
      loaded.registers.get (Fin.ofNat 16 2) = 0 ∧
      ((wrapping.carryOut (Operation.decode 0xF165)).carryOut
        (Operation.decode 0xF155)).state.memory = Memory.blank ∧
      Form.x 0xF 0x33 (0xF033 : Word).toNat ∧ digit 0 < 10 ∧ digit 1 < 10 ∧ digit 2 < 10 ∧
      100 * digit 0 + 10 * digit 1 + digit 2 = 200 := by
  intro stored cleared loaded digits digit
  obtain ⟨-, -, reload, storeBack, decimal⟩ := blocks_round_trip wrapping
  have store : Form.x 0xF 0x55 (0xF155 : Word).toNat := ⟨rfl, rfl⟩
  have load : Form.x 0xF 0x65 (0xF265 : Word).toNat := ⟨rfl, rfl⟩
  have bcd : Form.x 0xF 0x33 (0xF033 : Word).toNat := ⟨rfl, rfl⟩
  have restored := reload 0xF155 0xF265 store load (Vector.replicate 16 0)
  obtain ⟨hundreds, tens, ones, number, -⟩ := decimal 0xF033 bcd
  refine ⟨store, load, ?_, ?_, ?_, storeBack 0xF165 0xF155 ⟨rfl, rfl⟩ store rfl, bcd, hundreds,
    tens, ones, number⟩
  · exact (restored Register.zero (by decide)).trans (if_pos (by decide))
  · exact (restored (Fin.ofNat 16 1) (by decide)).trans (if_pos (by decide))
  · refine (restored (Fin.ofNat 16 2) (by decide)).trans ((if_neg (by decide)).trans ?_)
    exact Table.get_replicate 0 _

end Machine

end SuperChip
