import SuperChip.Proofs.Footprint
import SuperChip.Proofs.Timers

/-!
# Carries, borrows and lost bits

The words that add, subtract or shift write a result of eight bits and, after it, a flag of one bit.
Together the two are exact: they balance with what the two registers of the word held before,
whichever of these registers are the same and whether or not one of them is the flag. Where the flag
register is the target the result is lost and the flag stays.

The main statement is `Machine.arithmetic_exact`, about the operation of every such word in every
state. It follows from one balance for each last digit (`Arithmetic.balanced_of_flag?`,
`State.putsFlagged_shiftRight`, `State.putsFlagged_shiftLeft`).
-/

namespace SuperChip

universe u v

namespace Form

/-- How the result and the flag of a word `8XY_` balance with the values that its two registers
held. The flag of a sum or a doubling is worth 256, that of a difference says that nothing was
borrowed, and that of a halving is the bit shifted out. -/
def Balance (last a b result flag : Nat) : Prop :=
  match last with
  | 0x4 => 256 * flag + result = a + b
  | 0x5 => result + b = a + 256 * (1 - flag) ∧ (flag = 1 ↔ b ≤ a)
  | 0x6 => 2 * result + flag = a
  | 0x7 => result + a = b + 256 * (1 - flag) ∧ (flag = 1 ↔ a ≤ b)
  | 0xE => 256 * flag + result = 2 * a
  | _ => False

/-- A result of eight bits and a flag of one bit that balance. -/
structure Balanced (last a b result flag : Nat) : Prop where
  result_lt : result < 256
  flag_lt : flag < 2
  balance : Balance last a b result flag

/-- At most one result and one flag balance. -/
theorem Balanced.unique {word a b result flag other bit : Nat} (flags : Flags word)
    (first : Balanced (word % 0x10) a b result flag)
    (second : Balanced (word % 0x10) a b other bit) : other = result ∧ bit = flag := by
  obtain ⟨resultBelow, flagBelow, firstly⟩ := first
  obtain ⟨otherBelow, bitBelow, secondly⟩ := second
  rcases flags with ⟨-, digit⟩ | ⟨-, digit⟩ | ⟨-, digit⟩ | ⟨-, digit⟩ | ⟨-, digit⟩
  all_goals
    rw [digit] at firstly secondly
    simp only [Balance] at firstly secondly
    omega

end Form

/-- The bit of a condition is one bit, and is set just when the condition holds. -/
theorem toNat_decide (condition : Prop) [Decidable condition] :
    (decide condition).toNat < 2 ∧ ((decide condition).toNat = 1 ↔ condition) :=
  ⟨Bool.toNat_lt _, Bool.toNat_eq_one.trans decide_eq_true_iff⟩

namespace Arithmetic

/-- The result and the flag of a sum or a difference balance with its operands. -/
theorem balanced_of_flag? {kind : Arithmetic} {a b : UInt8} {flag : Bool}
    (flagged : kind.flag? a b = some flag) :
    Form.Balanced kind.digit a.toNat b.toNat (kind.result a b).toNat flag.toNat := by
  have aBelow := a.toNat_lt
  have bBelow := b.toNat_lt
  refine ⟨UInt8.toNat_lt _, flag.toNat_lt, ?_⟩
  cases kind with
  | add =>
    obtain rfl := Option.some.inj flagged
    obtain ⟨bit, carried⟩ := toNat_decide (256 ≤ a.toNat + b.toNat)
    simp only [Form.Balance, digit, result, UInt8.toNat_add]
    omega
  | sub =>
    obtain rfl := Option.some.inj flagged
    obtain ⟨bit, enough⟩ := toNat_decide (b.toNat ≤ a.toNat)
    simp only [Form.Balance, digit, result, UInt8.toNat_sub]
    omega
  | subNegated =>
    obtain rfl := Option.some.inj flagged
    obtain ⟨bit, enough⟩ := toNat_decide (a.toNat ≤ b.toNat)
    simp only [Form.Balance, digit, result, UInt8.toNat_sub]
    omega
  | _ => exact absurd flagged.symm (Option.some_ne_none flag)

end Arithmetic

namespace State

/-- One state comes from another by putting a value into a register, and by nothing else. -/
structure Puts (before after : State) (x : Register) (value : UInt8) : Prop where
  value : after.registers.get x = value
  others (component : Component) : component ≠ .register x → component.Agrees after before

/-- One state comes from another by putting a result into a register and after it a bit into the
flag, and by nothing else. In the flag register the result is lost. -/
structure PutsFlagged (before after : State) (x : Register) (result flag : Nat) : Prop where
  result : x ≠ Register.flag → (after.registers.get x).toNat = result
  flag : (after.registers.get Register.flag).toNat = flag
  others (component : Component) : component ≠ .register x →
    component ≠ .register Register.flag → component.Agrees after before

variable (state : State)

/-- Setting a register puts its value there and does nothing else. -/
theorem puts_setRegister (x : Register) (value : UInt8) :
    state.Puts (state.setRegister x value) x value where
  value := (get_setRegister state x value x).trans (if_pos rfl)
  others _ other := agrees_setRegister state x value other

/-- The flag register holds the flag as a number after it has been set. -/
theorem get_flag_setFlag (flag : Bool) :
    ((state.setFlag flag).registers.get Register.flag).toNat = flag.toNat := by
  rw [setFlag, get_setRegister, if_pos rfl]
  cases flag <;> rfl

/-- A register and then the flag are put by setting them in this order. -/
theorem putsFlagged_setFlag (x : Register) (value : UInt8) (flag : Bool) :
    state.PutsFlagged ((state.setRegister x value).setFlag flag) x value.toNat flag.toNat where
  result notFlag := by
    have kept : ((state.setRegister x value).setFlag flag).registers.get x =
        (state.setRegister x value).registers.get x :=
      (get_setRegister _ _ _ _).trans (if_neg (Ne.symm notFlag))
    rw [kept, (puts_setRegister state x value).value]
  flag := get_flag_setFlag _ flag
  others _ notX notFlag :=
    (agrees_setFlag _ flag notFlag).trans (agrees_setRegister state x value notX)

/-- The arithmetic with a flag puts a balanced result and its flag. -/
theorem putsFlagged_arithmetic {kind : Arithmetic} (flagged : kind.hasFlag = true)
    (x y : Register) : ∃ result flag,
      Form.Balanced kind.digit (state.registers.get x).toNat (state.registers.get y).toNat
        result flag ∧
      state.PutsFlagged (state.arithmetic kind x y) x result flag := by
  let a := state.registers.get x
  let b := state.registers.get y
  obtain ⟨flag, given⟩ := Option.isSome_iff_exists.mp ((kind.isSome_flag? a b).trans flagged)
  refine ⟨_, _, Arithmetic.balanced_of_flag? given, ?_⟩
  dsimp only [arithmetic]
  rw [given]
  exact state.putsFlagged_setFlag x _ flag

/-- A shift to the right puts half the value and the bit that falls off. -/
theorem putsFlagged_shiftRight (x : Register) (b : Nat) : ∃ result flag,
    Form.Balanced 0x6 (state.registers.get x).toNat b result flag ∧
      state.PutsFlagged (state.shiftRight x) x result flag := by
  refine ⟨_, _, ⟨UInt8.toNat_lt _, Bool.toNat_lt _, ?_⟩, state.putsFlagged_setFlag x _ _⟩
  obtain ⟨bit, odd⟩ := toNat_decide ((state.registers.get x).toNat % 2 = 1)
  simp only [Form.Balance, UInt8.toNat_div, UInt8.reduceToNat]
  omega

/-- A shift to the left puts the double value and the bit that falls off. -/
theorem putsFlagged_shiftLeft (x : Register) (b : Nat) : ∃ result flag,
    Form.Balanced 0xE (state.registers.get x).toNat b result flag ∧
      state.PutsFlagged (state.shiftLeft x) x result flag := by
  refine ⟨_, _, ⟨UInt8.toNat_lt _, Bool.toNat_lt _, ?_⟩, state.putsFlagged_setFlag x _ _⟩
  have valueBelow := UInt8.toNat_lt (state.registers.get x)
  obtain ⟨bit, high⟩ := toNat_decide (128 ≤ (state.registers.get x).toNat)
  simp only [Form.Balance, UInt8.toNat_add]
  omega

/-- The index takes the low twelve bits of the sum, whether or not the sum leaves sixteen. -/
theorem toNat_index_addIndex (x : Register) :
    (state.addIndex x).index.toNat =
      (state.index.toNat + (state.registers.get x).toNat) % 0x1000 := by
  change (Address.masked _).toNat = _
  rw [Address.toNat_masked, Address.toNat_add_toUInt16]
  omega

/-- The flag comes from the low sixteen bits of the sum. -/
theorem toNat_flag_addIndex (x : Register) :
    ((state.addIndex x).registers.get Register.flag).toNat =
      (decide (0xFFF < (state.index.toNat + (state.registers.get x).toNat) % 0x10000)).toNat := by
  refine (get_flag_setFlag state _).trans (congrArg Bool.toNat (decide_eq_decide.mpr ?_))
  rw [UInt16.lt_iff_toNat_lt, Address.toNat_add_toUInt16]
  exact Iff.rfl

/-- Adding to an index inside memory is exact: the flag is worth the size of memory. -/
theorem addIndex_exact (x : Register) (inside : state.index.toNat ≤ 0xFFF) :
    let added := state.addIndex x
    4096 * (added.registers.get Register.flag).toNat + added.index.toNat =
      state.index.toNat + (state.registers.get x).toNat := by
  intro added
  let sum := state.index.toNat + (state.registers.get x).toNat
  have flag : (added.registers.get Register.flag).toNat = (decide (0xFFF < sum % 0x10000)).toNat :=
    state.toNat_flag_addIndex x
  have index : added.index.toNat = sum % 0x1000 := state.toNat_index_addIndex x
  obtain ⟨bit, left⟩ := toNat_decide (0xFFF < sum % 0x10000)
  have valueBelow := UInt8.toNat_lt (state.registers.get x)
  rw [flag, index]
  omega

end State

namespace Machine

section Instruction

variable {δ : Type u} {κ : Type v} [Screen δ] [KeySource κ] (machine : Machine δ κ) {word : Word}

/-- The words `8XYN` with a flag put a balanced result and its flag. -/
theorem putsFlagged_of_digit (kind : Arithmetic) (flagged : kind.hasFlag = true)
    (form : Form.xy 0x8 kind.digit word.toNat) : ∃ result flag,
      Form.Balanced (word.toNat % 0x10) (machine.state.registers.get (Word.x word)).toNat
          (machine.state.registers.get (Word.y word)).toNat result flag ∧
        machine.state.PutsFlagged (machine.carryOut (Operation.decode word)).state (Word.x word)
          result flag := by
  have decoded : Operation.decode word = .arithmetic kind (Word.x word) (Word.y word) :=
    Operation.decode_of_encodes ⟨form, rfl, rfl⟩
  rw [decoded, form.2]
  exact machine.state.putsFlagged_arithmetic flagged _ _

/-- **A word that sets the flag writes a result and a flag that balance.** -/
theorem putsFlagged_of_flags (flags : Form.Flags word.toNat) : ∃ result flag,
    Form.Balanced (word.toNat % 0x10) (machine.state.registers.get (Word.x word)).toNat
        (machine.state.registers.get (Word.y word)).toNat result flag ∧
      machine.state.PutsFlagged (machine.carryOut (Operation.decode word)).state (Word.x word)
        result flag := by
  rcases flags with add | sub | right | negated | left
  · exact machine.putsFlagged_of_digit .add rfl add
  · exact machine.putsFlagged_of_digit .sub rfl sub
  · have decoded : Operation.decode word = .shiftRight (Word.x word) :=
      Operation.decode_of_encodes ⟨right, rfl⟩
    rw [decoded, right.2]
    exact machine.state.putsFlagged_shiftRight _ _
  · exact machine.putsFlagged_of_digit .subNegated rfl negated
  · have decoded : Operation.decode word = .shiftLeft (Word.x word) :=
      Operation.decode_of_encodes ⟨left, rfl⟩
    rw [decoded, left.2]
    exact machine.state.putsFlagged_shiftLeft _ _

/-- The words `8XYN` without a flag put their result and nothing else. -/
theorem puts_of_digit (kind : Arithmetic) (unflagged : kind.hasFlag = false)
    (form : Form.xy 0x8 kind.digit word.toNat) :
    machine.state.Puts (machine.carryOut (Operation.decode word)).state (Word.x word)
      (kind.result (machine.state.registers.get (Word.x word))
        (machine.state.registers.get (Word.y word))) := by
  have decoded : Operation.decode word = .arithmetic kind (Word.x word) (Word.y word) :=
    Operation.decode_of_encodes ⟨form, rfl, rfl⟩
  rw [decoded]
  cases kind with
  | move | or | and | xor => exact machine.state.puts_setRegister _ _
  | add | sub | subNegated => exact Bool.noConfusion unflagged

/-- A word `7XKK` puts the sum modulo 256 into `VX` and nothing else. -/
theorem puts_of_addByte (form : Form.nnn 0x7 word.toNat) :
    machine.state.Puts (machine.carryOut (Operation.decode word)).state (Word.x word)
      (machine.state.registers.get (Word.x word) + Word.kk word) := by
  have decoded : Operation.decode word = .addByte (Word.x word) (Word.kk word) :=
    Operation.decode_of_encodes ⟨form, rfl, Word.toNat_kk word⟩
  rw [decoded]
  exact machine.state.puts_setRegister _ _

variable {machine} in
/-- The second register of a sum is taken off again: the first is restored, and the flag, which was
the carry, says the opposite. -/
theorem sum_then_difference {difference : Word} (sum : Form.xy 0x8 0x4 word.toNat)
    (form : Form.xy 0x8 0x5 difference.toNat) (sameX : Word.x difference = Word.x word)
    (sameY : Word.y difference = Word.y word) (distinct : Word.x word ≠ Word.y word)
    (notX : Word.x word ≠ Register.flag) (notY : Word.y word ≠ Register.flag) :
    let once := machine.carryOut (Operation.decode word)
    let twice := once.carryOut (Operation.decode difference)
    twice.state.registers.get (Word.x word) = machine.state.registers.get (Word.x word) ∧
      (twice.state.registers.get Register.flag).toNat =
        1 - (once.state.registers.get Register.flag).toNat := by
  intro once twice
  obtain ⟨total, carry, ⟨-, carryBelow, added⟩, puts⟩ := machine.putsFlagged_of_flags (.inl sum)
  -- The difference reads both registers of the sum as the sum left them, and not its carry.
  obtain ⟨rest, enough, ⟨-, -, taken⟩, putsAgain⟩ :=
    once.putsFlagged_of_flags (.inr (.inl form))
  rw [sum.2] at added
  rw [form.2] at taken
  simp only [Form.Balance] at added taken
  have kept : once.state.registers.get (Word.y word) = machine.state.registers.get (Word.y word) :=
    puts.others (.register (Word.y word)) (fun same => distinct (Component.register.inj same).symm)
      fun same => notY (Component.register.inj same)
  rw [sameX, sameY, puts.result notX, kept] at taken
  have restored : (twice.state.registers.get (Word.x word)).toNat = rest :=
    sameX ▸ putsAgain.result (sameX ▸ notX)
  have below := UInt8.toNat_lt (machine.state.registers.get (Word.x word))
  refine ⟨UInt8.toNat_inj.mp ?_, ?_⟩
  · rw [restored]
    omega
  · rw [puts.flag, putsAgain.flag]
    omega

end Instruction

/-- **Arithmetic is exact under every aliasing of registers.** In every state the operation of a
word that adds, subtracts or shifts writes the one result of eight bits and the one flag of one bit
that balance with the two registers of the word, the flag last, and nothing else. The words `8XY0`
to `8XY3` and `7XKK` write their register only. `FX1E` on an index inside memory is exact, with the
flag worth the size of memory. Where neither register of a sum is the flag or the other one, the
difference with the same registers takes the sum back. -/
theorem arithmetic_exact {δ : Type u} {κ : Type v} [Screen δ] [KeySource κ]
    (machine : Machine δ κ) :
    let before := machine.state
    let after (word : Word) := (machine.carryOut (Operation.decode word)).state
    let a (word : Word) := before.registers.get (Word.x word)
    let b (word : Word) := before.registers.get (Word.y word)
    (∀ word : Word, Form.Flags word.toNat → ∃ result flag,
      let Balanced := Form.Balanced (word.toNat % 0x10) (a word).toNat (b word).toNat
      Balanced result flag ∧
      (∀ other bit, Balanced other bit → other = result ∧ bit = flag) ∧
      before.PutsFlagged (after word) (Word.x word) result flag) ∧
    (∀ (kind : Arithmetic) (word : Word), kind.hasFlag = false →
      Form.xy 0x8 kind.digit word.toNat →
      before.Puts (after word) (Word.x word) (kind.result (a word) (b word))) ∧
    (∀ word : Word, Form.nnn 0x7 word.toNat →
      before.Puts (after word) (Word.x word) (a word + Word.kk word)) ∧
    (∀ word : Word, Form.x 0xF 0x1E word.toNat → before.index.toNat ≤ 0xFFF →
      4096 * ((after word).registers.get Register.flag).toNat + (after word).index.toNat =
        before.index.toNat + (a word).toNat ∧
      (after word).index.toNat ≤ 0xFFF ∧
      ∀ component : Component, component ≠ .index → component ≠ .register Register.flag →
        component.Agrees (after word) before) ∧
    ∀ sum difference : Word, Form.xy 0x8 0x4 sum.toNat → Form.xy 0x8 0x5 difference.toNat →
      Word.x difference = Word.x sum → Word.y difference = Word.y sum →
      Word.x sum ≠ Word.y sum → Word.x sum ≠ Register.flag → Word.y sum ≠ Register.flag →
      let once := machine.carryOut (Operation.decode sum)
      let twice := once.carryOut (Operation.decode difference)
      twice.state.registers.get (Word.x sum) = a sum ∧
        (twice.state.registers.get Register.flag).toNat =
          1 - (once.state.registers.get Register.flag).toNat := by
  intro before after a b
  refine ⟨fun word flags => ?_, fun kind word unflagged form =>
    machine.puts_of_digit kind unflagged form, fun word form => machine.puts_of_addByte form,
    fun word form inside => ?_, fun sum difference add sub sameX sameY distinct notX notY =>
    sum_then_difference add sub sameX sameY distinct notX notY⟩
  · obtain ⟨result, flag, balanced, puts⟩ := machine.putsFlagged_of_flags flags
    exact ⟨result, flag, balanced, fun other bit second => balanced.unique flags second, puts⟩
  · have decoded : Operation.decode word = .addIndex (Word.x word) :=
      Operation.decode_of_encodes ⟨form, rfl⟩
    have state : after word = before.addIndex (Word.x word) := by
      dsimp only [after]
      rw [decoded]
      rfl
    rw [state]
    refine ⟨before.addIndex_exact _ inside, ?_, fun component elsewhere unflagged => ?_⟩
    · exact Address.masked_le_last _
    · exact State.agrees_execute before (.addIndex (Word.x word)) machine.senses
        fun owned => owned.elim elsewhere unflagged

/-- A machine whose sums leave eight bits, and whose index is the last address of memory. -/
def overflowing : Machine Uniform Keypad where
  state :=
    { State.initial with
      registers := Table.put (Vector.replicate 16 100) Register.zero 200
      index := Address.last }
  screen := ⟨false⟩
  keys := KeyPad.released
  random := { key := Vector.replicate 8 0 }
  timing := Timing.standard

/-- A sum in the flag register leaves the carry there. A sum of two other registers is taken back,
and the flag, as the index leaves memory, is read before it is written. -/
theorem arithmetic_exact_aliasing :
    let added := (overflowing.carryOut (Operation.decode 0x8F04)).state
    let once := overflowing.carryOut (Operation.decode 0x8014)
    let twice := once.carryOut (Operation.decode 0x8015)
    let moved := (overflowing.carryOut (Operation.decode 0xFF1E)).state
    Form.Flags (0x8F04 : Word).toNat ∧ (added.registers.get Register.flag).toNat = 1 ∧
      Form.xy 0x8 0x4 (0x8014 : Word).toNat ∧ Form.xy 0x8 0x5 (0x8015 : Word).toNat ∧
      twice.state.registers.get Register.zero = 200 ∧
      (twice.state.registers.get Register.flag).toNat = 0 ∧
      Form.x 0xF 0x1E (0xFF1E : Word).toNat ∧ overflowing.state.index.toNat ≤ 0xFFF ∧
      (moved.registers.get Register.flag).toNat = 1 ∧ moved.index.toNat = 99 := by
  intro added once twice moved
  obtain ⟨flagged, -, -, indexed, taken⟩ := arithmetic_exact overflowing
  have sum : Form.xy 0x8 0x4 (0x8014 : Word).toNat := ⟨rfl, rfl⟩
  have difference : Form.xy 0x8 0x5 (0x8015 : Word).toNat := ⟨rfl, rfl⟩
  have index : Form.x 0xF 0x1E (0xFF1E : Word).toNat := ⟨rfl, rfl⟩
  have flags : Form.Flags (0x8F04 : Word).toNat := .inl ⟨rfl, rfl⟩
  obtain ⟨result, flag, ⟨below, flagBelow, balance⟩, -, puts⟩ := flagged 0x8F04 flags
  have total : 256 * flag + result = 100 + 200 := balance
  obtain ⟨firstTotal, firstCarry, ⟨firstBelow, firstFlag, firstBalance⟩, -, firstPuts⟩ :=
    flagged 0x8014 (.inl sum)
  have firstSum : 256 * firstCarry + firstTotal = 200 + 100 := firstBalance
  obtain ⟨restored, opposite⟩ :=
    taken 0x8014 0x8015 sum difference rfl rfl (by decide) (by decide) (by decide)
  obtain ⟨exactly, inside, -⟩ := indexed 0xFF1E index (by decide)
  have moves : 4096 * (moved.registers.get Register.flag).toNat + moved.index.toNat = 4095 + 100 :=
    exactly
  have bit : (moved.registers.get Register.flag).toNat < 256 := UInt8.toNat_lt _
  have within : moved.index.toNat ≤ 0xFFF := inside
  refine ⟨flags, ?_, sum, difference, restored, ?_, index, by decide, by omega, by omega⟩
  · rw [puts.flag]
    omega
  · refine opposite.trans ?_
    rw [firstPuts.flag]
    omega

end Machine

end SuperChip
