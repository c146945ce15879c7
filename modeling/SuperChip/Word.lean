/-!
# Instruction words

An instruction is one sixteen-bit word, stored high byte first.  Its four
nibbles, most significant first, are the family and the fields `x`, `y` and
`n`; the low byte is also read as the immediate `kk` and the low twelve bits as
the address `nnn`.  The laws give each field as a number, by division of the
word's own.
-/

namespace SuperChip

/-- The sixteen bits of an instruction. -/
abbrev Word := UInt16

/-- A sixteen-bit address as a register holds it; memory uses its low twelve bits. -/
abbrev Address := UInt16

/-- One of the sixteen registers, by its place. -/
abbrev Register := Fin 16

/-- The register that receives carries, borrows and collisions. -/
def Register.flag : Register := ⟨15, by decide⟩

/-- The register that indexed jumps add and that starts every block. -/
def Register.zero : Register := ⟨0, by decide⟩

namespace Register

/-- The register of a number, taken modulo the number of registers. -/
def ofNumber (number : Nat) : Register :=
  ⟨number % 16, Nat.mod_lt _ (by decide)⟩

/-- The place of a register is its number. -/
theorem ofNumber_val (index : Register) : ofNumber index.val = index :=
  Fin.ext (Nat.mod_eq_of_lt index.isLt)

end Register

namespace Word

/-- The word stored as two bytes, high byte first. -/
def ofBytes (high low : UInt8) : Word :=
  UInt16.ofNat (256 * high.toNat + low.toNat)

/-- The most significant nibble, which selects the category of operation. -/
def family (word : Word) : Fin 16 :=
  ⟨word.toNat / 4096 % 16, Nat.mod_lt _ (by decide)⟩

/-- The second nibble: a register, or the last register of a block. -/
def x (word : Word) : Register :=
  ⟨word.toNat / 256 % 16, Nat.mod_lt _ (by decide)⟩

/-- The third nibble: a second register. -/
def y (word : Word) : Register :=
  ⟨word.toNat / 16 % 16, Nat.mod_lt _ (by decide)⟩

/-- The lowest nibble: a count, or the choice of an operation. -/
def n (word : Word) : UInt8 :=
  UInt8.ofNat (word.toNat % 16)

/-- The low byte: an immediate value. -/
def kk (word : Word) : UInt8 :=
  UInt8.ofNat word.toNat

/-- The low twelve bits: an address. -/
def nnn (word : Word) : Address :=
  word % 4096

/-- The number of a word, from its two bytes. -/
theorem toNat_ofBytes (high low : UInt8) :
    (ofBytes high low).toNat = 256 * high.toNat + low.toNat := by
  have := high.toNat_lt
  have := low.toNat_lt
  simp only [ofBytes, UInt16.toNat_ofNat']
  omega

/-- The first digit of a word, as a number. -/
theorem val_family (word : Word) : (family word).val = word.toNat / 4096 := by
  have := word.toNat_lt
  simp only [family]
  omega

/-- The second digit of a word, as a number. -/
theorem val_x (word : Word) : (x word).val = word.toNat / 256 % 16 := rfl

/-- The third digit of a word, as a number. -/
theorem val_y (word : Word) : (y word).val = word.toNat / 16 % 16 := rfl

/-- The last digit of a word, as a number. -/
theorem toNat_n (word : Word) : (n word).toNat = word.toNat % 16 := by
  simp only [n, UInt8.toNat_ofNat']
  omega

/-- The low byte of a word, as a number. -/
theorem toNat_kk (word : Word) : (kk word).toNat = word.toNat % 256 := by
  simp only [kk, UInt8.toNat_ofNat']

/-- The low twelve bits of a word, as a number. -/
theorem toNat_nnn (word : Word) : (nnn word).toNat = word.toNat % 4096 := by
  simp [nnn]

end Word

/-- The words of a byte sequence, high bytes first; a last odd byte is dropped. -/
def wordsOfBytes : List UInt8 → List Word
  | high :: low :: rest => Word.ofBytes high low :: wordsOfBytes rest
  | _ => []

end SuperChip
