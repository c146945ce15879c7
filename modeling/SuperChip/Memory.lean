import SuperChip.Font
import SuperChip.Table
import SuperChip.Word

/-!
# Memory

Memory has 4096 bytes.  Addresses have sixteen bits, of which memory looks at
the low twelve, so consecutive addresses wrap from the last byte to the first.
The laws of `read` after `write` speak about the cell that an address names:
two addresses name one cell exactly when they agree modulo 4096.
-/

namespace SuperChip

namespace Address

/-- The last address of memory, which is also the mask of the bits that count. -/
def last : Address := 0xFFF

/-- Where programs are loaded and start. -/
def programStart : Address := 0x200

/-- The low twelve bits of an address. -/
def masked (address : Address) : Address :=
  address % 4096

/-- Whether the sum of an address and a byte leaves sixteen bits. -/
def overflows (address : Address) (offset : UInt8) : Bool :=
  decide (0x10000 ≤ address.toNat + offset.toNat)

/-- The byte of memory that an address names. -/
def cell (address : Address) : Fin 4096 :=
  ⟨address.toNat % 4096, Nat.mod_lt _ (by decide)⟩

/-- Masking is reduction modulo the size of memory. -/
theorem toNat_masked (address : Address) : (masked address).toNat = address.toNat % 4096 := by
  simp [masked]

/-- The sum of an address and a byte has sixteen bits; what leaves them is lost. -/
theorem toNat_add_toUInt16 (address : Address) (offset : UInt8) :
    (address + offset.toUInt16).toNat = (address.toNat + offset.toNat) % 0x10000 := by
  rw [UInt16.toNat_add, UInt8.toNat_toUInt16]

/-- The sum of an address inside memory and a byte has room in sixteen bits. -/
theorem overflows_eq_false_of_le {address : Address} (inside : address.toNat ≤ 0xFFF)
    (offset : UInt8) : overflows address offset = false := by
  have below := offset.toNat_lt
  exact decide_eq_false (by omega)

/-- A masked address lies inside memory. -/
theorem masked_le_last (address : Address) : (masked address).toNat ≤ last.toNat := by
  have bound : address.toNat % 4096 < 4096 := Nat.mod_lt _ (by decide)
  rw [toNat_masked]
  exact Nat.le_of_lt_succ bound

/-- The cell of an address is at the address modulo the size of memory. -/
theorem val_cell (address : Address) : (cell address).val = address.toNat % 4096 := rfl

@[simp] theorem masked_masked (address : Address) : masked (masked address) = masked address := by
  apply UInt16.toNat_inj.mp
  simp only [toNat_masked, Nat.mod_mod]

@[simp] theorem cell_masked (address : Address) : cell (masked address) = cell address := by
  apply Fin.ext
  simp only [val_cell, toNat_masked, Nat.mod_mod]

/-- Two addresses name the same byte exactly when their low twelve bits agree. -/
theorem cell_eq_cell_iff (first second : Address) :
    cell first = cell second ↔ masked first = masked second := by
  constructor
  · intro same
    apply UInt16.toNat_inj.mp
    simpa only [toNat_masked, val_cell] using congrArg Fin.val same
  · intro same
    rw [← cell_masked first, same, cell_masked]

end Address

/-- The memory of the machine, byte by byte. -/
structure Memory where
  bytes : Vector UInt8 4096
  deriving DecidableEq

namespace Memory

/-- The number of bytes of memory. -/
def size : Nat := 4096

/-- The byte that an address names. -/
def read (memory : Memory) (address : Address) : UInt8 :=
  memory.bytes.get (Address.cell address)

/-- Replace the byte that an address names. -/
def write (memory : Memory) (address : Address) (value : UInt8) : Memory :=
  { bytes := Table.put memory.bytes (Address.cell address) value }

/-- Replace consecutive bytes, wrapping past the end. -/
def writeList (memory : Memory) (address : Address) : List UInt8 → Memory
  | [] => memory
  | value :: rest => writeList (memory.write address value) (address + 1) rest

/-- Lay a block over the bytes that start at a position; what lies past the end is dropped. -/
def place (memory : Memory) (start : Nat) (block : Array UInt8) : Memory :=
  { bytes := Vector.ofFn fun position =>
      if position.val < start then memory.bytes.get position
      else block.getD (position.val - start) (memory.bytes.get position) }

/-- Memory of which every byte is zero. -/
def blank : Memory :=
  { bytes := Vector.replicate 4096 0 }

/-- Memory at power on: blank but for the two fonts. -/
def initial : Memory :=
  let withSmall := blank.place Font.small.base.toNat Font.small.table
  withSmall.place Font.large.base.toNat Font.large.table

/-- The bytes determine a memory. -/
@[ext] theorem ext {first second : Memory}
    (same : ∀ position, first.bytes.get position = second.bytes.get position) :
    first = second := by
  cases first
  cases second
  congr
  exact Table.ext same

/-- A write changes the cell of its address and no other. -/
theorem get_write (memory : Memory) (address : Address) (value : UInt8)
    (position : Fin 4096) :
    (memory.write address value).bytes.get position =
      if Address.cell address = position then value else memory.bytes.get position :=
  Table.get_put memory.bytes (Address.cell address) value position

/-- A byte read after a write is the one written, if both addresses name one cell. -/
theorem read_write (memory : Memory) (written : Address) (value : UInt8) (address : Address) :
    (memory.write written value).read address =
      if Address.cell written = Address.cell address then value else memory.read address :=
  get_write memory written value (Address.cell address)

@[simp] theorem read_write_self (memory : Memory) (address : Address) (value : UInt8) :
    (memory.write address value).read address = value := by
  rw [read_write, if_pos rfl]

/-- A block covers the positions from its start as far as it goes. -/
theorem get_place (memory : Memory) (start : Nat) (block : Array UInt8)
    (position : Fin 4096) :
    (memory.place start block).bytes.get position =
      if position.val < start then memory.bytes.get position
      else block.getD (position.val - start) (memory.bytes.get position) :=
  Table.get_ofFn _ position

@[simp] theorem writeList_nil (memory : Memory) (address : Address) :
    memory.writeList address [] = memory := rfl

/-- The first byte is written before the others, one address earlier. -/
theorem writeList_cons (memory : Memory) (address : Address) (value : UInt8)
    (rest : List UInt8) :
    memory.writeList address (value :: rest) =
      (memory.write address value).writeList (address + 1) rest := rfl

end Memory

end SuperChip
