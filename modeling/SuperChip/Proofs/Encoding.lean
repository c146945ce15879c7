import SuperChip.Operation.Decode

/-!
# The instruction table

Every operation stands for certain words, given by the nibbles that are fixed
and by the places of its operands. `Operation.Encodes` is this table, written
in arithmetic on the number of a word and without the decoder.

The main statement, `Operation.decode_eq_iff`, says that a word decodes to the
one operation that stands for it: to one that does (`Operation.encodes_decode`),
and to no other (`Operation.decode_of_encodes`). Bounds on operands and the
reading of a word as `1NNN`, `8XY4` or `FX33` follow from the table alone.
-/

namespace SuperChip

namespace Form

/-- The words with a given first digit, such as `1NNN`. -/
abbrev nnn (first word : Nat) : Prop :=
  word / 0x1000 = first

/-- The words with a given first and last digit, such as `8XY4`. -/
abbrev xy (first last word : Nat) : Prop :=
  word / 0x1000 = first ∧ word % 0x10 = last

/-- The words with a given first digit and low byte, such as `FX33`. -/
abbrev x (first low word : Nat) : Prop :=
  word / 0x1000 = first ∧ word % 0x100 = low

/-- The words with three given digits before the last, such as `00CN`. -/
abbrev n (high word : Nat) : Prop :=
  word / 0x10 = high

/-- The words `0NNN` apart from those that control the machine and the screen. -/
def Routine (word : Nat) : Prop :=
  nnn 0x0 word ∧ ¬ n 0x001 word ∧ ¬ n 0x00C word ∧ word ≠ 0x00E0 ∧ word ≠ 0x00EE ∧
    word ≠ 0x00FB ∧ word ≠ 0x00FC ∧ word ≠ 0x00FD ∧ word ≠ 0x00FE ∧ word ≠ 0x00FF

/-- The words of the families 8, E and F that ask for nothing. -/
def Unbound (word : Nat) : Prop :=
  (nnn 0x8 word ∧ 0x7 < word % 0x10 ∧ word % 0x10 ≠ 0xE) ∨
  (nnn 0xE word ∧ ¬ x 0xE 0x9E word ∧ ¬ x 0xE 0xA1 word) ∨
  (nnn 0xF word ∧ ¬ x 0xF 0x07 word ∧ ¬ x 0xF 0x0A word ∧ ¬ x 0xF 0x15 word ∧
    ¬ x 0xF 0x18 word ∧ ¬ x 0xF 0x1E word ∧ ¬ x 0xF 0x29 word ∧ ¬ x 0xF 0x30 word ∧
    ¬ x 0xF 0x33 word ∧ ¬ x 0xF 0x55 word ∧ ¬ x 0xF 0x65 word ∧ ¬ x 0xF 0x75 word ∧
    ¬ x 0xF 0x85 word)

instance (word : Nat) : Decidable (Routine word) :=
  inferInstanceAs (Decidable (_ ∧ _))

instance (word : Nat) : Decidable (Unbound word) :=
  inferInstanceAs (Decidable (_ ∨ _))

end Form

/-- The last digit of the words that ask for an operation on two registers. -/
def Arithmetic.digit : Arithmetic → Nat
  | move => 0x0
  | or => 0x1
  | and => 0x2
  | xor => 0x3
  | add => 0x4
  | sub => 0x5
  | subNegated => 0x7

namespace Operation

/-- The words that ask for an operation, with its operands at their places in the word. -/
def Encodes (operation : Operation) (word : Nat) : Prop :=
  match operation with
  | exit code => Form.n 0x001 word ∧ code.toNat = word % 0x10
  | halt => word = 0x00FD
  | clear => word = 0x00E0
  | scroll (.down rows) => Form.n 0x00C word ∧ rows.toNat = word % 0x10
  | scroll .right => word = 0x00FB
  | scroll .left => word = 0x00FC
  | setResolution .low => word = 0x00FE
  | setResolution .high => word = 0x00FF
  | system address => Form.Routine word ∧ address.toNat = word % 0x1000
  | jump address => Form.nnn 0x1 word ∧ address.toNat = word % 0x1000
  | jumpOffset address => Form.nnn 0xB word ∧ address.toNat = word % 0x1000
  | call address => Form.nnn 0x2 word ∧ address.toNat = word % 0x1000
  | ret => word = 0x00EE
  | skip (.equalByte x kk) =>
      Form.nnn 0x3 word ∧ x.val = word / 0x100 % 0x10 ∧ kk.toNat = word % 0x100
  | skip (.notEqualByte x kk) =>
      Form.nnn 0x4 word ∧ x.val = word / 0x100 % 0x10 ∧ kk.toNat = word % 0x100
  | skip (.equalRegister x y) =>
      Form.nnn 0x5 word ∧ x.val = word / 0x100 % 0x10 ∧ y.val = word / 0x10 % 0x10
  | skip (.notEqualRegister x y) =>
      Form.nnn 0x9 word ∧ x.val = word / 0x100 % 0x10 ∧ y.val = word / 0x10 % 0x10
  | skip (.pressed x) => Form.x 0xE 0x9E word ∧ x.val = word / 0x100 % 0x10
  | skip (.notPressed x) => Form.x 0xE 0xA1 word ∧ x.val = word / 0x100 % 0x10
  | loadByte x kk => Form.nnn 0x6 word ∧ x.val = word / 0x100 % 0x10 ∧ kk.toNat = word % 0x100
  | addByte x kk => Form.nnn 0x7 word ∧ x.val = word / 0x100 % 0x10 ∧ kk.toNat = word % 0x100
  | arithmetic kind x y =>
      Form.xy 0x8 kind.digit word ∧ x.val = word / 0x100 % 0x10 ∧ y.val = word / 0x10 % 0x10
  | shiftRight x => Form.xy 0x8 0x6 word ∧ x.val = word / 0x100 % 0x10
  | shiftLeft x => Form.xy 0x8 0xE word ∧ x.val = word / 0x100 % 0x10
  | random x kk => Form.nnn 0xC word ∧ x.val = word / 0x100 % 0x10 ∧ kk.toNat = word % 0x100
  | draw x y n =>
      Form.nnn 0xD word ∧ x.val = word / 0x100 % 0x10 ∧ y.val = word / 0x10 % 0x10 ∧
        n.toNat = word % 0x10
  | waitKey x => Form.x 0xF 0x0A word ∧ x.val = word / 0x100 % 0x10
  | loadDelay x => Form.x 0xF 0x07 word ∧ x.val = word / 0x100 % 0x10
  | setDelay x => Form.x 0xF 0x15 word ∧ x.val = word / 0x100 % 0x10
  | setSound x => Form.x 0xF 0x18 word ∧ x.val = word / 0x100 % 0x10
  | loadIndex address => Form.nnn 0xA word ∧ address.toNat = word % 0x1000
  | addIndex x => Form.x 0xF 0x1E word ∧ x.val = word / 0x100 % 0x10
  | glyph .small x => Form.x 0xF 0x29 word ∧ x.val = word / 0x100 % 0x10
  | glyph .large x => Form.x 0xF 0x30 word ∧ x.val = word / 0x100 % 0x10
  | bcd x => Form.x 0xF 0x33 word ∧ x.val = word / 0x100 % 0x10
  | storeRegisters x => Form.x 0xF 0x55 word ∧ x.val = word / 0x100 % 0x10
  | loadRegisters x => Form.x 0xF 0x65 word ∧ x.val = word / 0x100 % 0x10
  | storeRpl x => Form.x 0xF 0x75 word ∧ x.val = word / 0x100 % 0x10
  | loadRpl x => Form.x 0xF 0x85 word ∧ x.val = word / 0x100 % 0x10
  | unknown unbound => Form.Unbound word ∧ unbound.toNat = word

/-- The control family decodes by the table; a word that none of its forms takes is a routine. -/
theorem encodes_decodeControl (word : Word) (family : word.toNat / 0x1000 = 0x0) :
    (decodeControl word).Encodes word.toNat := by
  have y := Word.val_y word
  have n := Word.toNat_n word
  unfold decodeControl
  split
  · next small =>
    split
    case h_10 notExit notDown notClear notRet notRight notLeft notHalt notLow notHigh =>
      refine ⟨⟨family, fun exit => notExit (by omega), fun down => notDown (by omega),
        fun clear => notClear (by omega) (by omega), fun ret => notRet (by omega) (by omega),
        fun right => notRight (by omega) (by omega), fun left => notLeft (by omega) (by omega),
        fun halt => notHalt (by omega) (by omega), fun low => notLow (by omega) (by omega),
        fun high => notHigh (by omega) (by omega)⟩, Word.toNat_nnn word⟩
    all_goals
      simp only [Encodes, n, and_true]
      omega
  · next large =>
    refine ⟨?_, Word.toNat_nnn word⟩
    unfold Form.Routine
    omega

/-- The family of arithmetic decodes by the table, its last digits without a meaning included. -/
theorem encodes_decodeArithmetic (word : Word) (family : word.toNat / 0x1000 = 0x8) :
    (decodeArithmetic word).Encodes word.toNat := by
  unfold decodeArithmetic
  rw [Word.toNat_n]
  split
  case h_10 =>
    simp only [imp_false] at *
    exact ⟨.inl ⟨family, by omega, by omega⟩, rfl⟩
  all_goals
    next last =>
      simp only [Encodes, Form.xy, Arithmetic.digit, Word.val_x, Word.val_y, and_self, family, last]

/-- The family of keys decodes by the table. -/
theorem encodes_decodeKey (word : Word) (family : word.toNat / 0x1000 = 0xE) :
    (decodeKey word).Encodes word.toNat := by
  unfold decodeKey
  rw [Word.toNat_kk]
  split
  case h_3 notPressed notReleased =>
    exact ⟨.inr (.inl ⟨family, fun pressed => notPressed pressed.2,
      fun released => notReleased released.2⟩), rfl⟩
  all_goals
    next low => simp only [Encodes, Form.x, Word.val_x, and_self, family, low]

/-- The last family decodes by the table. -/
theorem encodes_decodeTransfer (word : Word) (family : word.toNat / 0x1000 = 0xF) :
    (decodeTransfer word).Encodes word.toNat := by
  unfold decodeTransfer
  rw [Word.toNat_kk]
  split
  case h_13 =>
    refine ⟨.inr (.inr ⟨family, ?_⟩), rfl⟩
    simp_all only [imp_false, Form.x, and_false, not_false_eq_true, and_self]
  all_goals
    next low => simp only [Encodes, Form.x, Word.val_x, and_self, family, low]

/-- **Decoding follows the instruction table.** A word decodes to an operation that it
stands for. -/
theorem encodes_decode (word : Word) : (decode word).Encodes word.toNat := by
  have below := word.toNat_lt
  unfold decode
  rw [Word.val_family]
  split
  case h_1 family => exact encodes_decodeControl word family
  case h_9 family => exact encodes_decodeArithmetic word family
  case h_15 family => exact encodes_decodeKey word family
  case h_16 =>
    simp only [imp_false] at *
    exact encodes_decodeTransfer word (by omega)
  all_goals
    next family =>
      simp only [Encodes, Form.nnn, Word.val_x, Word.val_y, Word.toNat_kk, Word.toNat_n,
        Word.toNat_nnn, family, and_self]

section Table

variable {word : Word}

/-- The words that start with `0` are left to the decoder of the control family. -/
theorem decode_of_control (family : word.toNat / 0x1000 = 0x0) :
    decode word = decodeControl word := by
  simp only [decode, Word.val_family, family]

/-- Those that start with `8` are left to the decoder of arithmetic. -/
theorem decode_of_arithmetic (family : word.toNat / 0x1000 = 0x8) :
    decode word = decodeArithmetic word := by
  simp only [decode, Word.val_family, family]

/-- Those that start with `E` are left to the decoder of the keys. -/
theorem decode_of_key (family : word.toNat / 0x1000 = 0xE) : decode word = decodeKey word := by
  simp only [decode, Word.val_family, family]

/-- Those that start with `F` are left to the decoder of the last family. -/
theorem decode_of_transfer (family : word.toNat / 0x1000 = 0xF) :
    decode word = decodeTransfer word := by
  simp only [decode, Word.val_family, family]

/-- The families with gaps leave a word from a gap as it is. -/
theorem decode_of_unbound (unbound : Form.Unbound word.toNat) : decode word = unknown word := by
  rcases unbound with ⟨family, high, notE⟩ | ⟨family, notPressed, notReleased⟩ | ⟨family, others⟩
  · rw [decode_of_arithmetic family, decodeArithmetic, Word.toNat_n]
    split <;> first | rfl | omega
  · rw [decode_of_key family, decodeKey, Word.toNat_kk]
    split <;> first | rfl | omega
  · rw [decode_of_transfer family, decodeTransfer, Word.toNat_kk]
    split <;> first | rfl | omega

/-- What controls neither the machine nor the screen is a routine. -/
theorem decode_of_routine (routine : Form.Routine word.toNat) :
    decode word = system (Word.nnn word) := by
  have y := Word.val_y word
  have n := Word.toNat_n word
  rw [decode_of_control routine.1, decodeControl]
  unfold Form.Routine at routine
  split
  · split <;> first | rfl | omega
  · rfl

/-- **The instruction table determines the operation of a word.** -/
theorem decode_of_encodes {operation : Operation} (encoded : operation.Encodes word.toNat) :
    decode word = operation := by
  have nnn (address : Address) (place : address.toNat = word.toNat % 0x1000) :
      Word.nnn word = address := UInt16.toNat_inj.mp ((Word.toNat_nnn word).trans place.symm)
  -- Whole words are put in; otherwise the fixed digits choose the branch of the decoder, and the
  -- places of the operands make them the fields of the word.
  cases operation with
  | halt =>
    obtain rfl : word = 0x00FD := UInt16.toNat_inj.mp encoded
    rfl
  | clear =>
    obtain rfl : word = 0x00E0 := UInt16.toNat_inj.mp encoded
    rfl
  | ret =>
    obtain rfl : word = 0x00EE := UInt16.toNat_inj.mp encoded
    rfl
  | setResolution mode =>
    cases mode with
    | low =>
      obtain rfl : word = 0x00FE := UInt16.toNat_inj.mp encoded
      rfl
    | high =>
      obtain rfl : word = 0x00FF := UInt16.toNat_inj.mp encoded
      rfl
  | exit code =>
    obtain ⟨form, place⟩ := encoded
    have small : word.toNat < 0x100 := by omega
    have digit : word.toNat / 16 % 16 = 0x1 := by omega
    rw [decode_of_control (by omega)]
    simp only [decodeControl, small, ↓reduceIte, Word.val_y, digit, exit.injEq, ← UInt8.toNat_inj,
      Word.toNat_n, place]
  | scroll toward =>
    cases toward with
    | down rows =>
      obtain ⟨form, place⟩ := encoded
      have small : word.toNat < 0x100 := by omega
      have digit : word.toNat / 16 % 16 = 0xC := by omega
      rw [decode_of_control (by omega)]
      simp only [decodeControl, small, ↓reduceIte, Word.val_y, digit, scroll.injEq,
        Scroll.down.injEq, ← UInt8.toNat_inj, Word.toNat_n, place]
    | right =>
      obtain rfl : word = 0x00FB := UInt16.toNat_inj.mp encoded
      rfl
    | left =>
      obtain rfl : word = 0x00FC := UInt16.toNat_inj.mp encoded
      rfl
  | system address =>
    obtain ⟨routine, place⟩ := encoded
    rw [decode_of_routine routine, nnn address place]
  | unknown value =>
    obtain ⟨unbound, same⟩ := encoded
    rw [decode_of_unbound unbound, UInt16.toNat_inj.mp same]
  | jump address | jumpOffset address | call address | loadIndex address =>
    obtain ⟨form, place⟩ := encoded
    have family : word.toNat / 4096 = _ := form
    simp only [decode, Word.val_family, family, nnn address place]
  | skip condition =>
    cases condition with
    | pressed x | notPressed x =>
      obtain ⟨⟨family, low⟩, place⟩ := encoded
      obtain rfl : x = Word.x word := Fin.ext (place.trans (Word.val_x word).symm)
      simp only [decode_of_key family, decodeKey, Word.toNat_kk, low]
    | _ =>
      simp only [Encodes, Form.nnn] at encoded
      simp only [decode, Word.val_family, encoded, skip.injEq, Condition.equalByte.injEq,
        Condition.notEqualByte.injEq, Condition.equalRegister.injEq,
        Condition.notEqualRegister.injEq, Fin.ext_iff, Word.val_x, Word.val_y, ← UInt8.toNat_inj,
        Word.toNat_kk, and_self]
  | loadByte x kk | addByte x kk | random x kk | draw x y n =>
    simp only [Encodes, Form.nnn] at encoded
    simp only [decode, Word.val_family, encoded, loadByte.injEq, addByte.injEq, random.injEq,
      draw.injEq, Fin.ext_iff, Word.val_x, Word.val_y, ← UInt8.toNat_inj, Word.toNat_kk,
      Word.toNat_n, and_self]
  | arithmetic kind x y =>
    obtain ⟨⟨family, last⟩, first, second⟩ := encoded
    obtain rfl : x = Word.x word := Fin.ext (first.trans (Word.val_x word).symm)
    obtain rfl : y = Word.y word := Fin.ext (second.trans (Word.val_y word).symm)
    rw [decode_of_arithmetic family, decodeArithmetic, Word.toNat_n, last]
    cases kind <;> rfl
  | shiftRight x | shiftLeft x =>
    obtain ⟨⟨family, last⟩, place⟩ := encoded
    obtain rfl : x = Word.x word := Fin.ext (place.trans (Word.val_x word).symm)
    simp only [decode_of_arithmetic family, decodeArithmetic, Word.toNat_n, last]
  | glyph font x =>
    cases font with
    | small | large =>
      obtain ⟨⟨family, low⟩, place⟩ := encoded
      obtain rfl : x = Word.x word := Fin.ext (place.trans (Word.val_x word).symm)
      simp only [decode_of_transfer family, decodeTransfer, Word.toNat_kk, low]
  | waitKey x | loadDelay x | setDelay x | setSound x | addIndex x | bcd x | storeRegisters x
  | loadRegisters x | storeRpl x | loadRpl x =>
    obtain ⟨⟨family, low⟩, place⟩ := encoded
    obtain rfl : x = Word.x word := Fin.ext (place.trans (Word.val_x word).symm)
    simp only [decode_of_transfer family, decodeTransfer, Word.toNat_kk, low]

/-- Decoding and the instruction table say the same. -/
theorem decode_eq_iff {operation : Operation} :
    decode word = operation ↔ operation.Encodes word.toNat :=
  ⟨fun decoded => decoded ▸ encodes_decode word, decode_of_encodes⟩

end Table

end Operation

end SuperChip
