import SuperChip.Operation.Basic

/-!
# Decoding

Every word decodes.  The family selects a category; the families 0, 8, E and F
are narrowed by their low nibble or low byte.  In family 0 whatever is not
bound is a machine code routine, in the families 8, E and F it is unknown.
-/

namespace SuperChip

namespace Operation

/-- Family 0: control of the machine and of the screen. -/
def decodeControl (word : Word) : Operation :=
  if word.toNat < 0x100 then
    match (Word.y word).val, (Word.n word).toNat with
    | 0x1, _ => exit (Word.n word)
    | 0xC, _ => scroll (.down (Word.n word))
    | 0xE, 0x0 => clear
    | 0xE, 0xE => ret
    | 0xF, 0xB => scroll .right
    | 0xF, 0xC => scroll .left
    | 0xF, 0xD => halt
    | 0xF, 0xE => setResolution .low
    | 0xF, 0xF => setResolution .high
    | _, _ => system (Word.nnn word)
  else
    system (Word.nnn word)

/-- Family 8: arithmetic on registers, chosen by the low nibble. -/
def decodeArithmetic (word : Word) : Operation :=
  match (Word.n word).toNat with
  | 0x0 => arithmetic .move (Word.x word) (Word.y word)
  | 0x1 => arithmetic .or (Word.x word) (Word.y word)
  | 0x2 => arithmetic .and (Word.x word) (Word.y word)
  | 0x3 => arithmetic .xor (Word.x word) (Word.y word)
  | 0x4 => arithmetic .add (Word.x word) (Word.y word)
  | 0x5 => arithmetic .sub (Word.x word) (Word.y word)
  | 0x6 => shiftRight (Word.x word)
  | 0x7 => arithmetic .subNegated (Word.x word) (Word.y word)
  | 0xE => shiftLeft (Word.x word)
  | _ => unknown word

/-- Family E: skips on the state of a key. -/
def decodeKey (word : Word) : Operation :=
  match (Word.kk word).toNat with
  | 0x9E => skip (.pressed (Word.x word))
  | 0xA1 => skip (.notPressed (Word.x word))
  | _ => unknown word

/-- Family F: timers, the index, and transfers of registers. -/
def decodeTransfer (word : Word) : Operation :=
  match (Word.kk word).toNat with
  | 0x07 => loadDelay (Word.x word)
  | 0x0A => waitKey (Word.x word)
  | 0x15 => setDelay (Word.x word)
  | 0x18 => setSound (Word.x word)
  | 0x1E => addIndex (Word.x word)
  | 0x29 => glyph .small (Word.x word)
  | 0x30 => glyph .large (Word.x word)
  | 0x33 => bcd (Word.x word)
  | 0x55 => storeRegisters (Word.x word)
  | 0x65 => loadRegisters (Word.x word)
  | 0x75 => storeRpl (Word.x word)
  | 0x85 => loadRpl (Word.x word)
  | _ => unknown word

/-- The operation that a word asks for. -/
def decode (word : Word) : Operation :=
  match (Word.family word).val with
  | 0x0 => decodeControl word
  | 0x1 => jump (Word.nnn word)
  | 0x2 => call (Word.nnn word)
  | 0x3 => skip (.equalByte (Word.x word) (Word.kk word))
  | 0x4 => skip (.notEqualByte (Word.x word) (Word.kk word))
  | 0x5 => skip (.equalRegister (Word.x word) (Word.y word))
  | 0x6 => loadByte (Word.x word) (Word.kk word)
  | 0x7 => addByte (Word.x word) (Word.kk word)
  | 0x8 => decodeArithmetic word
  | 0x9 => skip (.notEqualRegister (Word.x word) (Word.y word))
  | 0xA => loadIndex (Word.nnn word)
  | 0xB => jumpOffset (Word.nnn word)
  | 0xC => random (Word.x word) (Word.kk word)
  | 0xD => draw (Word.x word) (Word.y word) (Word.n word)
  | 0xE => decodeKey word
  | _ => decodeTransfer word

end Operation

end SuperChip
