import SuperChip.Operation.Assembly

/-!
# Reading listings

A line of a listing is a mnemonic and, behind a blank each, its operands, all but the last followed
by a comma. Where neither the mnemonic nor an operand contains a blank the text of a line falls
apart at its blanks, so it determines the mnemonic and the texts of the operands:
`AssemblyLine.eq_of_text_eq`. The text of an operand tells what kind of operand it is and, where it
is a numeral, its number: `Operand.token`.
-/

namespace SuperChip

namespace Numeral

/-- A hexadecimal digit is one of the sixteen. -/
theorem hexDigit_mem (value : Nat) : hexDigit value ∈ hexAlphabet := by
  rw [hexDigit, List.getD_eq_getElem?_getD]
  cases given : hexAlphabet[value]? with
  | none => decide
  | some digit => exact List.mem_of_getElem? given

/-- A number is written in hexadecimal digits only. -/
theorem mem_hexAlphabet_of_mem_hexDigits {n : Nat} {digit : Char} (written : digit ∈ hexDigits n) :
    digit ∈ hexAlphabet := by
  induction n using Nat.strongRecOn with
  | ind n ih =>
    rw [hexDigits] at written
    split at written
    · obtain rfl := List.mem_singleton.mp written
      exact hexDigit_mem n
    · next notBelow =>
      rcases List.mem_append.mp written with higher | lowest
      · exact ih (n / 16) (by omega) higher
      · obtain rfl := List.mem_singleton.mp lowest
        exact hexDigit_mem (n % 16)

/-- A hexadecimal numeral is written with hexadecimal digits only. -/
theorem mem_hexAlphabet_of_mem_hex {width n : Nat} {digit : Char}
    (written : digit ∈ (hex width n).toList) : digit ∈ hexAlphabet := by
  rw [hex, String.toList_ofList, paddedHexDigits, List.leftpad] at written
  rcases List.mem_append.mp written with padding | digits
  · rw [List.eq_of_mem_replicate padding]
    decide
  · exact mem_hexAlphabet_of_mem_hexDigits digits

theorem blank_not_mem_hex (width n : Nat) : ' ' ∉ (hex width n).toList := fun written =>
  absurd (mem_hexAlphabet_of_mem_hex written) (by decide)

/-- A number is read back from its hexadecimal digits, however wide they are set. -/
theorem hexValue_hex (width n : Nat) : hexValue (hex width n).toList = n := by
  rw [hex, String.toList_ofList, hexValue_paddedHexDigits]

theorem toList_decimal (n : Nat) : (decimal n).toList = Nat.toDigits 10 n :=
  String.toList_ofList

/-- A decimal numeral consists of digits. -/
theorem all_isDigit_decimal (n : Nat) : (decimal n).toList.all Char.isDigit = true := by
  rw [toList_decimal, List.all_eq_true]
  exact fun digit written => Nat.isDigit_of_mem_toDigits (by decide) (by decide) written

theorem blank_not_mem_decimal (n : Nat) : ' ' ∉ (decimal n).toList := fun written =>
  absurd (List.all_eq_true.mp (all_isDigit_decimal n) _ written) (by decide)

end Numeral

/-- What the text of an operand says. -/
inductive Token where
  | register (number : Nat)
  | hexadecimal (value : Nat)
  | decimal (value : Nat)
  | part (name : List Char)

/-- Read the text of an operand by its first characters. -/
def Token.ofText (text : List Char) : Token :=
  if text.all Char.isDigit then .decimal (Nat.ofDigitChars 10 text 0)
  else
    match text with
    | 'V' :: digits => .register (Numeral.hexValue digits)
    | '0' :: 'x' :: digits => .hexadecimal (Numeral.hexValue digits)
    | _ => .part text

namespace Operand

/-- The kind and the number that the text of an operand shows. -/
def token (operand : Operand) : Token :=
  Token.ofText operand.text.toList

theorem toList_text_register (number : Nat) :
    (register number).text.toList = 'V' :: (Numeral.hex 1 number).toList :=
  String.toList_append

theorem blank_not_mem_register (number : Nat) : ' ' ∉ (register number).text.toList := by
  rw [toList_text_register]
  exact List.not_mem_cons_of_ne_of_not_mem (by decide) (Numeral.blank_not_mem_hex 1 number)

/-- A register is read back from its text. -/
theorem token_register (number : Nat) : (register number).token = .register number := by
  rw [token, toList_text_register]
  exact congrArg Token.register (Numeral.hexValue_hex 1 number)

theorem toList_hexadecimal (width value : Nat) :
    ("0x" ++ Numeral.hex width value).toList = '0' :: 'x' :: (Numeral.hex width value).toList :=
  String.toList_append

theorem blank_not_mem_hexadecimal (width value : Nat) :
    ' ' ∉ ("0x" ++ Numeral.hex width value).toList := by
  rw [toList_hexadecimal]
  exact List.not_mem_cons_of_ne_of_not_mem (by decide)
    (List.not_mem_cons_of_ne_of_not_mem (by decide) (Numeral.blank_not_mem_hex width value))

/-- A numeral behind the mark of the base sixteen is read as its number, whatever its width. -/
theorem ofText_hexadecimal (width value : Nat) :
    Token.ofText ("0x" ++ Numeral.hex width value).toList = .hexadecimal value := by
  rw [toList_hexadecimal]
  exact congrArg Token.hexadecimal (Numeral.hexValue_hex width value)

theorem blank_not_mem_byte (value : UInt8) : ' ' ∉ (byte value).text.toList :=
  blank_not_mem_hexadecimal 2 value.toNat

theorem token_byte (value : UInt8) : (byte value).token = .hexadecimal value.toNat :=
  ofText_hexadecimal 2 value.toNat

theorem blank_not_mem_address (value : Address) : ' ' ∉ (address value).text.toList :=
  blank_not_mem_hexadecimal 3 value.toNat

theorem token_address (value : Address) : (address value).token = .hexadecimal value.toNat :=
  ofText_hexadecimal 3 value.toNat

theorem blank_not_mem_word (value : Word) : ' ' ∉ (word value).text.toList :=
  blank_not_mem_hexadecimal 4 value.toNat

theorem token_word (value : Word) : (word value).token = .hexadecimal value.toNat :=
  ofText_hexadecimal 4 value.toNat

theorem blank_not_mem_count (value : UInt8) : ' ' ∉ (count value).text.toList :=
  Numeral.blank_not_mem_decimal value.toNat

theorem token_count (value : UInt8) : (count value).token = .decimal value.toNat := by
  refine (if_pos (Numeral.all_isDigit_decimal value.toNat)).trans (congrArg Token.decimal ?_)
  change Nat.ofDigitChars 10 (Numeral.decimal value.toNat).toList 0 = value.toNat
  rw [Numeral.toList_decimal, Nat.ofDigitChars_ten_toDigits]

/-- The words of operands: all but the last end in a comma. -/
def words : List Operand → List (List Char)
  | [] => []
  | [last] => [last.text.toList]
  | operand :: next :: rest => (operand.text.toList ++ [',']) :: words (next :: rest)

theorem words_ne_nil (first : Operand) (rest : List Operand) : words (first :: rest) ≠ [] := by
  cases rest <;> exact List.cons_ne_nil _ _

/-- A list of operands is written as its words with blanks in between. -/
theorem toList_text_append_trailing (first : Operand) (rest : List Operand) :
    first.text.toList ++ (trailing rest).toList = [' '].intercalate (words (first :: rest)) := by
  induction rest generalizing first with
  | nil =>
    rw [words, List.intercalate_singleton]
    exact List.append_nil _
  | cons next rest continued =>
    rw [words, List.intercalate_cons_of_ne_nil (words_ne_nil next rest), ← continued, trailing]
    simp only [String.toList_append, List.append_assoc]
    rfl

/-- No blank is left within a word if none of the operands has one. -/
theorem blank_not_mem_words {operands : List Operand}
    (unbroken : ∀ operand ∈ operands, ' ' ∉ operand.text.toList) :
    ∀ word ∈ words operands, ' ' ∉ word := by
  induction operands with
  | nil => exact List.forall_mem_nil _
  | cons operand rest continued =>
    obtain ⟨here, later⟩ := List.forall_mem_cons.mp unbroken
    cases rest with
    | nil => exact List.forall_mem_singleton.mpr here
    | cons next rest =>
      refine List.forall_mem_cons.mpr ⟨fun blank => ?_, continued later⟩
      rcases List.mem_append.mp blank with inside | comma
      · exact here inside
      · exact absurd comma (by decide)

/-- The words of operands determine their texts. -/
theorem map_text_of_words {first second : List Operand} (same : words first = words second) :
    first.map text = second.map text := by
  -- There are as many words as operands, so both lists end together and the commas cancel.
  induction first generalizing second with
  | nil =>
    cases second with
    | nil => rfl
    | cons operand rest => exact absurd same.symm (words_ne_nil operand rest)
  | cons operand rest continued =>
    cases second with
    | nil => exact absurd same (words_ne_nil operand rest)
    | cons other more =>
      cases rest with
      | nil =>
        cases more with
        | nil => exact congrArg (fun text => [text]) (String.toList_inj.mp (List.cons.inj same).1)
        | cons next more =>
          exact absurd (List.cons.inj same).2.symm (words_ne_nil next more)
      | cons next rest =>
        cases more with
        | nil => exact absurd (List.cons.inj same).2 (words_ne_nil next rest)
        | cons following more =>
          obtain ⟨here, later⟩ := List.cons.inj same
          have text := String.toList_inj.mp (List.append_cancel_right here)
          rw [List.map_cons, List.map_cons (l := following :: more), continued later, text]

end Operand

namespace AssemblyLine

/-- No part of the line contains a blank. -/
structure Unbroken (line : AssemblyLine) : Prop where
  mnemonic : ' ' ∉ line.mnemonic.toList
  operands : ∀ operand ∈ line.operands, ' ' ∉ operand.text.toList

/-- A line is unbroken if its mnemonic and its operands are. -/
theorem unbroken_iff {mnemonic : String} {operands : List Operand} :
    Unbroken ⟨mnemonic, operands⟩ ↔
      ' ' ∉ mnemonic.toList ∧ ∀ operand ∈ operands, ' ' ∉ operand.text.toList :=
  ⟨fun unbroken => ⟨unbroken.mnemonic, unbroken.operands⟩,
    fun ⟨mnemonic, operands⟩ => ⟨mnemonic, operands⟩⟩

/-- The words of a line, of which the first is its mnemonic. -/
def words (line : AssemblyLine) : List (List Char) :=
  line.mnemonic.toList :: Operand.words line.operands

theorem toList_text (line : AssemblyLine) : line.text.toList = [' '].intercalate line.words := by
  obtain ⟨mnemonic, operands⟩ := line
  cases operands with
  | nil => exact List.intercalate_singleton.symm
  | cons first rest =>
    rw [words, List.intercalate_cons_of_ne_nil (Operand.words_ne_nil first rest),
      ← Operand.toList_text_append_trailing, text]
    simp only [String.toList_append, List.append_assoc]
    rfl

/-- An unbroken line splits into its words again. -/
theorem splitOn_text {line : AssemblyLine} (unbroken : line.Unbroken) :
    line.text.toList.splitOn ' ' = line.words := by
  rw [toList_text]
  refine List.splitOn_intercalate ' ' ?_ (List.cons_ne_nil _ _)
  exact List.forall_mem_cons.mpr
    ⟨unbroken.mnemonic, Operand.blank_not_mem_words unbroken.operands⟩

/-- **The text of an unbroken line determines the line**, but for operands that are written the
same. -/
theorem eq_of_text_eq {first second : AssemblyLine} (firstUnbroken : first.Unbroken)
    (secondUnbroken : second.Unbroken) (same : first.text = second.text) :
    first.mnemonic = second.mnemonic ∧
      first.operands.map Operand.text = second.operands.map Operand.text := by
  have words : first.words = second.words := by
    rw [← splitOn_text firstUnbroken, same, splitOn_text secondUnbroken]
  obtain ⟨mnemonics, operands⟩ := List.cons.inj words
  exact ⟨String.toList_inj.mp mnemonics, Operand.map_text_of_words operands⟩

/-- The kinds and the numbers of the operands. -/
def tokens (line : AssemblyLine) : List Token :=
  line.operands.map Operand.token

/-- Unbroken lines with the same text have the same mnemonic and the same operands. -/
theorem tokens_eq_of_text_eq {first second : AssemblyLine} (firstUnbroken : first.Unbroken)
    (secondUnbroken : second.Unbroken) (same : first.text = second.text) :
    first.mnemonic = second.mnemonic ∧ first.tokens = second.tokens := by
  obtain ⟨mnemonics, operands⟩ := eq_of_text_eq firstUnbroken secondUnbroken same
  have read (line : AssemblyLine) : line.tokens =
      (line.operands.map Operand.text).map fun text => Token.ofText text.toList := by
    rw [List.map_map]
    rfl
  exact ⟨mnemonics, by rw [read, read, operands]⟩

/-- The text of a line begins with its mnemonic. -/
theorem mnemonic_prefix_text (line : AssemblyLine) :
    line.mnemonic.toList <+: line.text.toList := by
  rw [toList_text, words]
  cases Operand.words line.operands with
  | nil => exact ⟨[], by rw [List.append_nil, List.intercalate_singleton]⟩
  | cons first rest =>
    rw [List.intercalate_cons_of_ne_nil (List.cons_ne_nil _ _), List.append_assoc]
    exact List.prefix_append _ _

/-- What is no longer than the mnemonic starts the text only if it starts the mnemonic. -/
theorem prefix_text_iff (line : AssemblyLine) (start : List Char)
    (short : start.length ≤ line.mnemonic.toList.length) :
    start <+: line.text.toList ↔ start <+: line.mnemonic.toList :=
  ⟨fun starts => List.prefix_of_prefix_length_le starts line.mnemonic_prefix_text short,
    fun starts => starts.trans line.mnemonic_prefix_text⟩

end AssemblyLine

end SuperChip
