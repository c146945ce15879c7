/-!
# Numerals

Messages and listings write numbers in decimal or in upper-case hexadecimal.
A hexadecimal numeral is padded with zeros to a least width, and a number that
needs more digits than that keeps all of them.  The main statement is that a
hexadecimal numeral reads back as its number, whatever the width.
-/

namespace SuperChip

namespace Numeral

/-- The hexadecimal digits in order of their values. -/
def hexAlphabet : List Char :=
  ['0', '1', '2', '3', '4', '5', '6', '7', '8', '9', 'A', 'B', 'C', 'D', 'E', 'F']

/-- The digit with a value below sixteen. -/
def hexDigit (value : Nat) : Char :=
  hexAlphabet.getD value '0'

/-- The number of a hexadecimal digit. -/
def hexDigitValue (digit : Char) : Nat :=
  hexAlphabet.idxOf digit

/-- The hexadecimal digits of a number, most significant first and at least one. -/
def hexDigits (n : Nat) : List Char :=
  if n < 16 then [hexDigit n] else hexDigits (n / 16) ++ [hexDigit (n % 16)]

/-- The number that a sequence of hexadecimal digits stands for. -/
def hexValue (digits : List Char) : Nat :=
  digits.foldl (fun value digit => 16 * value + hexDigitValue digit) 0

/-- The hexadecimal digits of a number, padded with zeros to a least width. -/
def paddedHexDigits (width n : Nat) : List Char :=
  (hexDigits n).leftpad width '0'

/-- A hexadecimal numeral of a least width. -/
def hex (width n : Nat) : String :=
  String.ofList (paddedHexDigits width n)

/-- A number in decimal. -/
def decimal (n : Nat) : String :=
  String.ofList (Nat.toDigits 10 n)

/-- Every digit is read back. -/
theorem hexDigitValue_hexDigit {value : Nat} (below : value < 16) :
    hexDigitValue (hexDigit value) = value := by
  have all : ∀ d : Fin 16, hexDigitValue (hexDigit d.val) = d.val := by decide
  exact all ⟨value, below⟩

/-- A digit behind others counts once, and they count sixteen times. -/
theorem hexValue_concat (digits : List Char) (digit : Char) :
    hexValue (digits ++ [digit]) = 16 * hexValue digits + hexDigitValue digit := by
  simp [hexValue]

/-- A number is read back from its digits. -/
theorem hexValue_hexDigits (n : Nat) : hexValue (hexDigits n) = n := by
  induction n using Nat.strongRecOn with
  | ind n ih =>
    rw [hexDigits]
    split
    · next below =>
      simp [hexValue, hexDigitValue_hexDigit below]
    · next notBelow =>
      rw [hexValue_concat, ih (n / 16) (by omega),
        hexDigitValue_hexDigit (Nat.mod_lt n (by decide))]
      omega

/-- Zeros in front change no number. -/
theorem hexValue_replicate_append (count : Nat) (digits : List Char) :
    hexValue (List.replicate count '0' ++ digits) = hexValue digits := by
  induction count with
  | zero => simp
  | succ count ih =>
    rw [← ih]
    simp [hexValue, List.replicate_succ, hexDigitValue, hexAlphabet]

/-- A hexadecimal numeral reads back as its number, whatever its least width. -/
theorem hexValue_paddedHexDigits (width n : Nat) :
    hexValue (paddedHexDigits width n) = n := by
  rw [paddedHexDigits, List.leftpad, hexValue_replicate_append, hexValue_hexDigits]

end Numeral

end SuperChip
