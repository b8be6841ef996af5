import Worksheet.Number
import Worksheet.Proofs.Addresses

/-!
# Numerals and integers in decimal

A numeral is read digit by digit up to its point and its exponent.  The text of an integer is a sign
and its digits, and reading it gives back the integer.  Both ways stop at the same number of
digits.
-/

namespace Worksheet

namespace Decimal

/-- Digits are read up to where none follows. -/
theorem spanDigits_append {digits rest : List Char} (h : ∀ c ∈ digits, c.isDigit)
    (hrest : ∀ c ∈ rest.head?, Text.digitValue? c = none) :
    spanDigits (digits ++ rest) = (digits.map fun c => c.toNat - 48, rest) := by
  induction digits with
  | nil =>
      cases rest with
      | nil => rfl
      | cons c rest =>
          rw [List.nil_append, spanDigits, hrest c rfl]
          rfl
  | cons c digits ih =>
      have hc := h c List.mem_cons_self
      have hlow : c.toNat < 128 := by
        have := Address.isDigit_iff.mp hc
        omega
      rw [List.cons_append, spanDigits, Text.digitValue?, if_pos hlow, if_pos hc,
        ih fun d hd => h d (List.mem_cons_of_mem _ hd)]
      rfl

theorem spanDigits_of_isDigit {cs : List Char} (h : ∀ c ∈ cs, c.isDigit) :
    spanDigits cs = (cs.map fun c => c.toNat - 48, []) := by
  have hrest : ∀ c ∈ ([] : List Char).head?, Text.digitValue? c = none := nofun
  have happend := spanDigits_append h hrest
  rwa [List.append_nil] at happend

theorem spanSign_of_isDigit {c : Char} (h : c.isDigit) (cs : List Char) :
    spanSign (c :: cs) = (false, c :: cs) := by
  unfold spanSign
  split
  · next he => exact absurd (List.head_eq_of_cons_eq he ▸ h) (by decide)
  · next he => exact absurd (List.head_eq_of_cons_eq he ▸ h) (by decide)
  · rfl

/-- What goes on with digits: neither a digit nor a point. -/
def EndsDigits (cs : List Char) : Prop :=
  ∀ c ∈ cs.head?, Text.digitValue? c = none ∧ c ≠ '.'

/-- Digits, and an exponent if there is one, are read as a numeral. -/
theorem read?_whole {whole exponent : List Char} {power : Option Int} (hne : whole ≠ [])
    (hwhole : ∀ c ∈ whole, c.isDigit) (hends : EndsDigits exponent)
    (hpower : Numeral.readExponent? exponent = some power) :
    Numeral.read? (whole ++ exponent) =
      some ⟨false, whole.map fun c => c.toNat - 48, none, power⟩ := by
  have hsign : spanSign (whole ++ exponent) = (false, whole ++ exponent) := by
    obtain ⟨c, cs, rfl⟩ := List.exists_cons_of_ne_nil hne
    exact spanSign_of_isDigit (hwhole c List.mem_cons_self) _
  have hempty : (whole.map fun c => c.toNat - 48).isEmpty = false := by
    rw [List.isEmpty_map, List.isEmpty_eq_false_iff]
    exact hne
  unfold Numeral.read?
  rw [hsign]
  dsimp only
  rw [spanDigits_append hwhole fun c hc => (hends c hc).1]
  dsimp only
  split
  next => exact absurd rfl (hends '.' rfl).2
  next => rw [hempty, hpower]; rfl

/-- Digits around a point, and an exponent if there is one, are read as a numeral. -/
theorem read?_point {whole fraction exponent : List Char} {power : Option Int}
    (hne : whole ≠ [] ∨ fraction ≠ []) (hwhole : ∀ c ∈ whole, c.isDigit)
    (hfraction : ∀ c ∈ fraction, c.isDigit) (hends : EndsDigits exponent)
    (hpower : Numeral.readExponent? exponent = some power) :
    Numeral.read? (whole ++ '.' :: (fraction ++ exponent)) =
      some ⟨false, whole.map fun c => c.toNat - 48, some (fraction.map fun c => c.toNat - 48),
        power⟩ := by
  have hsign : spanSign (whole ++ '.' :: (fraction ++ exponent)) =
      (false, whole ++ '.' :: (fraction ++ exponent)) := by
    cases whole with
    | nil => rfl
    | cons c whole => exact spanSign_of_isDigit (hwhole c List.mem_cons_self) _
  have hempty : ((whole.map fun c => c.toNat - 48).isEmpty &&
      (fraction.map fun c => c.toNat - 48).isEmpty) = false := by
    rcases hne with hne | hne <;> simp [hne]
  have hpoint : spanDigits (whole ++ '.' :: (fraction ++ exponent)) =
      (whole.map fun c => c.toNat - 48, '.' :: (fraction ++ exponent)) :=
    spanDigits_append hwhole fun c hc => Option.some.inj hc ▸ rfl
  have hrest := spanDigits_append hfraction fun c hc => (hends c hc).1
  unfold Numeral.read?
  rw [hsign]
  dsimp only
  rw [hpoint]
  simp only [hrest, hempty, hpower, Bool.false_eq_true, if_false, Option.map_some]

/-- A minus in front of a numeral. -/
theorem read?_minus {c : Char} (hc : c.isDigit) {cs : List Char} {n : Numeral}
    (h : Numeral.read? (c :: cs) = some n) :
    Numeral.read? ('-' :: c :: cs) = some { n with negative := true } := by
  have hsign : spanSign ('-' :: c :: cs) = (true, c :: cs) := rfl
  unfold Numeral.read? at h ⊢
  rw [spanSign_of_isDigit hc] at h
  rw [hsign]
  dsimp only at h ⊢
  generalize spanDigits (c :: cs) = digits at h ⊢
  obtain ⟨whole, rest⟩ := digits
  dsimp only at h ⊢
  split at h
  · split at h
    · cases h
    next hempty =>
      obtain ⟨power, hpower, rfl⟩ := Option.map_eq_some_iff.mp h
      rw [if_neg hempty, hpower]
      rfl
  · split at h
    · cases h
    next hempty =>
      obtain ⟨power, hpower, rfl⟩ := Option.map_eq_some_iff.mp h
      rw [if_neg hempty, hpower]
      rfl

/-- Digits alone are a numeral. -/
theorem read?_of_isDigit {cs : List Char} (hne : cs ≠ []) (h : ∀ c ∈ cs, c.isDigit) :
    Numeral.read? cs = some ⟨false, cs.map fun c => c.toNat - 48, none, none⟩ := by
  have hends : EndsDigits [] := by simp [EndsDigits]
  have happend := read?_whole hne h hends rfl
  rwa [List.append_nil] at happend

/-- Digits behind a minus are the numeral of the opposite number. -/
theorem read?_neg_of_isDigit {cs : List Char} (hne : cs ≠ []) (h : ∀ c ∈ cs, c.isDigit) :
    Numeral.read? ('-' :: cs) = some ⟨true, cs.map fun c => c.toNat - 48, none, none⟩ := by
  have hread := read?_of_isDigit hne h
  obtain ⟨c, cs, rfl⟩ := List.exists_cons_of_ne_nil hne
  exact read?_minus (h c List.mem_cons_self) hread

/-- The whole part of a numeral is its digits up to the first character that is none. -/
theorem whole_of_read? {cs : List Char} {n : Numeral} (h : Numeral.read? cs = some n) :
    n.whole = (spanDigits (spanSign cs).2).1 := by
  unfold Numeral.read? at h
  dsimp only at h
  split at h
  · split at h
    · cases h
    · obtain ⟨_, _, rfl⟩ := Option.map_eq_some_iff.mp h
      rfl
  · split at h
    · cases h
    · obtain ⟨_, _, rfl⟩ := Option.map_eq_some_iff.mp h
      rfl

theorem isDigit_of_mem_digitChars {n : Nat} : ∀ c ∈ digitChars n, c.isDigit :=
  fun _ hc => Nat.isDigit_of_mem_toDigits (by omega) (by omega) hc

theorem ofDigits_digitChars (n : Nat) : ofDigits ((digitChars n).map fun c => c.toNat - 48) = n :=
  Address.rowOfDigits_digitChars n

end Decimal

namespace Number

theorem length_digitChars_le_iff {n : Nat} :
    (Decimal.digitChars n).length ≤ maxDigits ↔ n < 10 ^ maxDigits :=
  Nat.length_toDigits_le_iff (by decide) (by decide)

/-- An integer with no more digits than are written is written as its text. -/
theorem intText_of_lt {i : Int} (h : i.natAbs < 10 ^ maxDigits) : intText i = .ok (toString i) := by
  unfold intText
  rw [Nat.pow_eq, if_neg (Nat.not_le.mpr h)]

theorem exists_intText_iff {i : Int} : (∃ t, intText i = .ok t) ↔ i.natAbs < 10 ^ maxDigits := by
  constructor
  · rintro ⟨t, h⟩
    refine Nat.not_le.mp fun hlong => ?_
    have herror : intText i = .error .integerTooLongToWrite := by
      rw [intText, Nat.pow_eq, if_pos hlong]
    cases herror.symm.trans h
  · exact fun h => ⟨_, intText_of_lt h⟩

theorem toList_toString_ofNat (n : Nat) : (toString (n : Int)).toList = Decimal.digitChars n :=
  String.toList_ofList

theorem toList_toString_negSucc (n : Nat) :
    (toString (Int.negSucc n)).toList = '-' :: Decimal.digitChars (n + 1) := by
  show ("-" ++ Nat.repr (n + 1)).toList = _
  rw [String.toList_append]
  exact congrArg (['-'] ++ ·) String.toList_ofList

theorem ofNumeral_of_isInteger {n : Decimal.Numeral} (hn : n.isInteger)
    (hlength : n.whole.length ≤ maxDigits) : ofNumeral n = .ok (.int n.toInt) := by
  unfold ofNumeral
  rw [if_pos hn, if_neg (Nat.not_lt.mpr hlength)]

theorem ofNumeral_of_long {n : Decimal.Numeral} (hn : n.isInteger)
    (hlong : maxDigits < n.whole.length) :
    ofNumeral n = .error (.integerTooLongToRead n.whole.length) := by
  unfold ofNumeral
  rw [if_pos hn, if_pos hlong]

/-- **The text of an integer is read as that integer.** -/
theorem ofNumeral_toString {i : Int} (h : i.natAbs < 10 ^ maxDigits) :
    ∃ n, Decimal.Numeral.read? (toString i).toList = some n ∧ ofNumeral n = .ok (.int i) := by
  have hlength : ∀ n : Nat, n < 10 ^ maxDigits →
      ((Decimal.digitChars n).map fun c => c.toNat - 48).length ≤ maxDigits := fun n hn => by
    rw [List.length_map]
    exact length_digitChars_le_iff.mpr hn
  cases i with
  | ofNat n =>
      refine ⟨_, (congrArg _ (toList_toString_ofNat n)).trans (Decimal.read?_of_isDigit
        Nat.toDigits_ne_nil Decimal.isDigit_of_mem_digitChars), ?_⟩
      rw [ofNumeral_of_isInteger rfl (hlength n h), Decimal.Numeral.toInt,
        Decimal.ofDigits_digitChars]
      rfl
  | negSucc n =>
      refine ⟨_, (congrArg _ (toList_toString_negSucc n)).trans (Decimal.read?_neg_of_isDigit
        Nat.toDigits_ne_nil Decimal.isDigit_of_mem_digitChars), ?_⟩
      rw [ofNumeral_of_isInteger rfl (hlength (n + 1) h), Decimal.Numeral.toInt,
        Decimal.ofDigits_digitChars]
      rfl

end Number

end Worksheet
