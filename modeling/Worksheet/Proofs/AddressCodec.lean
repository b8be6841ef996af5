import Worksheet.Address.Coordinates
import Worksheet.Proofs.Integers

/-!
# Positions and their texts

The positions whose rows can be written, and the texts that are addresses with rows that can be
read, are in one-to-one correspondence, and writing and reading are the two directions of it.  The
same holds of columns and of their letters, without a bound.
-/

namespace Worksheet.Address

/-! ## The form of an address -/

/-- Whether letters are those of a column: at least one, and none but `A` to `Z`. -/
def IsColumn (letters : List Char) : Prop :=
  letters ≠ [] ∧ ∀ c ∈ letters, 'A' ≤ c ∧ c ≤ 'Z'

/-- Whether digits are those of a row: a decimal number that does not start with a zero. -/
def IsRow (digits : List Char) : Prop :=
  ∃ d rest, digits = d :: rest ∧ ('1' ≤ d ∧ d ≤ '9') ∧ ∀ c ∈ rest, '0' ≤ c ∧ c ≤ '9'

/-- Whether a text is made of the letters of a column and the digits of a row. -/
structure Spells (letters digits : List Char) (s : String) : Prop where
  text : s.toList = letters ++ digits
  column : IsColumn letters
  row : IsRow digits

variable {a : Address} {s : String} {letters digits : List Char}

theorem isColumn_iff : IsColumn letters ↔ letters ≠ [] ∧ ∀ c ∈ letters, isColumnLetter c := by
  simp only [IsColumn, isColumnLetter, Bool.and_eq_true, decide_eq_true_eq]

theorem isRow_iff : IsRow digits ↔
    (∀ c ∈ digits, c.isDigit) ∧ ∃ d rest, digits = d :: rest ∧ d ≠ '0' := by
  have hle : ∀ c d : Char, c ≤ d ↔ c.toNat ≤ d.toNat := fun _ _ => Iff.rfl
  have hnumbers : '0'.toNat = 48 ∧ '1'.toNat = 49 ∧ '9'.toNat = 57 := by decide
  constructor
  · rintro ⟨d, rest, rfl, hd, hrest⟩
    rw [hle, hle] at hd
    refine ⟨List.forall_mem_cons.mpr ⟨?_, fun c hc => ?_⟩, d, rest, rfl, ?_⟩
    · rw [isDigit_iff]
      omega
    · obtain ⟨hlow, hhigh⟩ := hrest c hc
      rw [hle] at hlow hhigh
      rw [isDigit_iff]
      omega
    · rintro rfl
      omega
  · rintro ⟨hdigits, d, rest, rfl, hd⟩
    obtain ⟨hfirst, hrest⟩ := List.forall_mem_cons.mp hdigits
    rw [isDigit_iff] at hfirst
    have hzero : d.toNat ≠ '0'.toNat := fun he => hd (Char.toNat_inj.mp he)
    refine ⟨d, rest, rfl, ?_, fun c hc => ?_⟩
    · rw [hle, hle]
      omega
    · have hc := isDigit_iff.mp (hrest c hc)
      rw [hle, hle]
      omega

/-- Addresses are split where their letters end. -/
theorem spells_iff : Spells letters digits s ↔ split? s.toList = some (letters, digits) := by
  rw [split?_eq_some_iff]
  constructor
  · intro h
    obtain ⟨hne, hletters⟩ := isColumn_iff.mp h.column
    obtain ⟨hdigits, hfirst⟩ := isRow_iff.mp h.row
    exact ⟨h.text, hne, hletters, hdigits, hfirst⟩
  · rintro ⟨htext, hne, hletters, hdigits, hfirst⟩
    exact ⟨htext, isColumn_iff.mpr ⟨hne, hletters⟩, isRow_iff.mpr ⟨hdigits, hfirst⟩⟩

/-! ## What is read -/

/-- Which texts are read as positions. -/
theorem exists_decode_iff : (∃ a, decode s = .ok (some a)) ↔
    ∃ letters digits, Spells letters digits s ∧ digits.length ≤ Number.maxDigits := by
  constructor
  · rintro ⟨a, h⟩
    have hlength := length_digitChars_of_decode h
    obtain rfl := text_of_decode h
    have hsplit := split?_chars a
    rw [← String.toList_ofList (l := a.chars)] at hsplit
    exact ⟨_, _, spells_iff.mpr hsplit, hlength⟩
  · rintro ⟨letters, digits, hs, hlength⟩
    unfold decode
    rw [spells_iff.mp hs]
    exact ⟨_, if_neg (Nat.not_lt.mpr hlength)⟩

/-- A row with more digits than are read is a failure, which tells how many there are. -/
theorem decode_of_long (hs : Spells letters digits s) (h : Number.maxDigits < digits.length) :
    decode s = .error (.integerTooLongToRead digits.length) := by
  unfold decode
  rw [spells_iff.mp hs]
  exact if_pos h

theorem decode_of_not_spells (h : ∀ letters digits, ¬ Spells letters digits s) :
    decode s = .ok none := by
  unfold decode
  cases hs : split? s.toList with
  | none => rfl
  | some parts => exact absurd (spells_iff.mpr hs) (h parts.1 parts.2)

/-! ## What is written -/

/-- A position is written as its text, if its row can be written at all. -/
theorem encode_eq_text (h : a.row + 1 < 10 ^ Number.maxDigits) : encode a = .ok a.text := by
  have hrow : ((a.row : Int) + 1).natAbs < 10 ^ Number.maxDigits := by
    rw [← Int.natCast_succ, Int.natAbs_natCast]
    exact h
  unfold encode
  rw [Number.intText_of_lt hrow]
  exact congrArg Except.ok String.ofList_append.symm

theorem encodeValues_nat (row col : Nat) :
    encodeValues (.number (.int row)) (.number (.int col)) = encode ⟨row, col⟩ := by
  have hcoordinate : ∀ (axis : String) (n : Nat), coordinate axis (.number (.int n)) = .ok n := by
    intro axis n
    unfold coordinate
    dsimp only
    rw [if_neg (Int.not_lt.mpr (Int.natCast_nonneg n))]
    rfl
  unfold encodeValues
  rw [hcoordinate, hcoordinate]
  dsimp only [bind, Except.bind]

/-! ## Columns -/

theorem columnLetters_nat (n : Nat) : columnLetters n = lettersOfPositive (n + 1) := rfl

theorem isColumn_columnLetters (n : Nat) : IsColumn (columnLetters n) := by
  rw [isColumn_iff, columnLetters_nat]
  refine ⟨?_, isColumnLetter_of_mem_lettersOfPositive _⟩
  rw [lettersOfPositive_pos (Nat.succ_ne_zero n)]
  exact List.append_ne_nil_of_right_ne_nil _ (List.cons_ne_nil _ _)

theorem columnIndex_columnLetters (n : Nat) : columnIndex (columnLetters n) = n := by
  rw [columnLetters_nat, columnIndex_eq (isColumnLetter_of_mem_lettersOfPositive _),
    lettersValue_lettersOfPositive]
  omega

theorem columnLetters_columnIndex (h : IsColumn letters) :
    ∃ n : Nat, columnIndex letters = n ∧ columnLetters n = letters := by
  obtain ⟨hne, hletters⟩ := isColumn_iff.mp h
  have hpos : lettersValue letters ≠ 0 := by
    intro hzero
    have hwritten := lettersOfPositive_lettersValue hletters
    rw [hzero, lettersOfPositive_zero] at hwritten
    exact hne hwritten.symm
  refine ⟨lettersValue letters - 1, ?_, ?_⟩
  · rw [columnIndex_eq hletters]
    omega
  · rw [columnLetters_nat, Nat.sub_one_add_one hpos, lettersOfPositive_lettersValue hletters]

/-! ## The correspondence -/

/-- **Writing a position and reading an address undo each other**, and it is told which texts are
addresses: every text is read as a position or as none, but for addresses with too long a row. -/
theorem decode_inverts_encode :
    -- what is written for a position is read as that position
    (∀ row col : Nat, row + 1 < 10 ^ Number.maxDigits →
      ∃ s, encodeValues (.number (.int row)) (.number (.int col)) = .ok s ∧
        decode s = .ok (some ⟨row, col⟩)) ∧
    -- a text that is read as a position is what is written for it, and these are the addresses
    (∀ s, (∃ a, decode s = .ok (some a)) ↔
      ∃ letters digits, Spells letters digits s ∧ digits.length ≤ Number.maxDigits) ∧
    (∀ s a, decode s = .ok (some a) →
      encodeValues (.number (.int a.row)) (.number (.int a.col)) = .ok s) ∧
    -- an address with a longer row is a failure, and any other text is none
    (∀ s letters digits, Spells letters digits s → Number.maxDigits < digits.length →
      decode s = .error (.integerTooLongToRead digits.length)) ∧
    (∀ s, (∀ letters digits, ¬ Spells letters digits s) → decode s = .ok none) ∧
    -- columns and their letters
    (∀ n : Nat, IsColumn (columnLetters n) ∧ columnIndex (columnLetters n) = n) ∧
    (∀ letters, IsColumn letters →
      ∃ n : Nat, columnIndex letters = n ∧ columnLetters n = letters) := by
  refine ⟨fun row col h => ?_, fun s => exists_decode_iff, fun s a h => ?_,
    fun s letters digits => decode_of_long, fun s => decode_of_not_spells,
    fun n => ⟨isColumn_columnLetters n, columnIndex_columnLetters n⟩,
    fun letters => columnLetters_columnIndex⟩
  · refine ⟨_, (encodeValues_nat row col).trans (encode_eq_text h), decode_text ?_⟩
    exact Number.length_digitChars_le_iff.mpr h
  · rw [encodeValues_nat, encode_eq_text, text_of_decode h]
    exact Number.length_digitChars_le_iff.mp (length_digitChars_of_decode h)

end Worksheet.Address
