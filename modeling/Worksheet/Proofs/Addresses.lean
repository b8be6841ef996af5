import Worksheet.Address.Basic
import Worksheet.Proofs.Failing

/-!
# Addresses and positions

A text is the address of at most one position, and a position has one address.  So reading an
address and writing it out undo each other: columns are numbers in a system without a zero, and a
row is written without leading zeros.
-/

namespace Worksheet.Address

/-! ## Columns -/

/-- The number that letters stand for in the system with the digits `A` = 1 to `Z` = 26. -/
def lettersValue (letters : List Char) : Nat :=
  letters.foldl (fun n c => n * 26 + (c.toNat - 64)) 0

theorem isColumnLetter_iff {c : Char} : isColumnLetter c ↔ 65 ≤ c.toNat ∧ c.toNat ≤ 90 := by
  have hc : c.toNat = c.val.toNat := rfl
  have hA : 'A'.val.toNat = 65 := rfl
  have hZ : 'Z'.val.toNat = 90 := rfl
  unfold isColumnLetter
  rw [Bool.and_eq_true, decide_eq_true_eq, decide_eq_true_eq, Char.le_def, Char.le_def,
    UInt32.le_iff_toNat_le, UInt32.le_iff_toNat_le]
  omega

theorem toNat_columnLetter {digit : Nat} (h : digit < 26) :
    (columnLetter digit).toNat = 65 + digit := by
  have hvalid : (65 + digit).isValidChar := Or.inl (by omega)
  unfold columnLetter
  rw [Char.toNat_ofNat, if_pos hvalid]

theorem columnLetter_of_isColumnLetter {c : Char} (h : isColumnLetter c) :
    columnLetter (c.toNat - 65) = c := by
  have hc := isColumnLetter_iff.mp h
  apply Char.toNat_inj.mp
  rw [toNat_columnLetter (by omega)]
  omega

theorem columnIndex_eq {letters : List Char} (h : ∀ c ∈ letters, isColumnLetter c) :
    columnIndex letters = (lettersValue letters : Int) - 1 := by
  have hfold : ∀ n : Nat,
      letters.foldl (fun index c => index * 26 + ((c.toNat : Int) - 64)) (n : Int) =
        (letters.foldl (fun n c => n * 26 + (c.toNat - 64)) n : Nat) := by
    induction letters with
    | nil => exact fun n => rfl
    | cons c letters ih =>
        intro n
        have hc := isColumnLetter_iff.mp (h c List.mem_cons_self)
        have hstep : (n : Int) * 26 + ((c.toNat : Int) - 64) = (n * 26 + (c.toNat - 64) : Nat) := by
          omega
        rw [List.foldl_cons, List.foldl_cons, hstep]
        exact ih (fun d hd => h d (List.mem_cons_of_mem _ hd)) _
  unfold columnIndex lettersValue
  exact congrArg (· - 1) (hfold 0)

theorem lettersValue_append (letters : List Char) (c : Char) :
    lettersValue (letters ++ [c]) = lettersValue letters * 26 + (c.toNat - 64) := by
  unfold lettersValue
  rw [List.foldl_append, List.foldl_cons, List.foldl_nil]

theorem lettersOfPositive_zero : lettersOfPositive 0 = [] := by
  rw [lettersOfPositive, if_pos rfl]

theorem lettersOfPositive_pos {n : Nat} (h : n ≠ 0) : lettersOfPositive n =
    lettersOfPositive ((n - 1) / 26) ++ [columnLetter ((n - 1) % 26)] := by
  rw [lettersOfPositive, if_neg h]

theorem isColumnLetter_of_mem_lettersOfPositive (n : Nat) :
    ∀ c ∈ lettersOfPositive n, isColumnLetter c := by
  induction n using lettersOfPositive.induct with
  | case1 =>
      rw [lettersOfPositive_zero]
      exact fun _ hc => absurd hc List.not_mem_nil
  | case2 n hn ih =>
      have hlt : (n - 1) % 26 < 26 := Nat.mod_lt _ (by omega)
      rw [lettersOfPositive_pos hn]
      intro c hc
      rcases List.mem_append.mp hc with hc | hc
      · exact ih c hc
      · rw [List.mem_singleton.mp hc, isColumnLetter_iff, toNat_columnLetter hlt]
        omega

theorem lettersValue_lettersOfPositive (n : Nat) : lettersValue (lettersOfPositive n) = n := by
  induction n using lettersOfPositive.induct with
  | case1 => rw [lettersOfPositive_zero]; rfl
  | case2 n hn ih =>
      have hlt : (n - 1) % 26 < 26 := Nat.mod_lt _ (by omega)
      rw [lettersOfPositive_pos hn, lettersValue_append, ih, toNat_columnLetter hlt]
      omega

theorem lettersOfPositive_lettersValue {letters : List Char} :
    (∀ c ∈ letters, isColumnLetter c) → lettersOfPositive (lettersValue letters) = letters := by
  induction letters using List.reverseRecOn with
  | nil => exact fun _ => lettersOfPositive_zero
  | append_singleton letters c ih =>
      intro h
      have hc : isColumnLetter c := h c (List.mem_append_right _ (List.mem_singleton_self c))
      have hc' := isColumnLetter_iff.mp hc
      have hrest := ih fun d hd => h d (List.mem_append_left _ hd)
      have hdiv : (lettersValue (letters ++ [c]) - 1) / 26 = lettersValue letters := by
        rw [lettersValue_append]
        omega
      have hmod : (lettersValue (letters ++ [c]) - 1) % 26 = c.toNat - 65 := by
        rw [lettersValue_append]
        omega
      have hpos : lettersValue (letters ++ [c]) ≠ 0 := by
        rw [lettersValue_append]
        omega
      rw [lettersOfPositive_pos hpos, hdiv, hmod, hrest, columnLetter_of_isColumnLetter hc]

/-! ## Rows -/

theorem rowOfDigits_eq (digits : List Char) :
    rowOfDigits digits = Nat.ofDigitChars 10 digits 0 := by
  unfold rowOfDigits Decimal.ofDigits Nat.ofDigitChars
  rw [List.foldl_map]
  rfl

theorem rowOfDigits_digitChars (n : Nat) : rowOfDigits (Decimal.digitChars n) = n := by
  rw [rowOfDigits_eq]
  exact Nat.ofDigitChars_ten_toDigits

theorem isDigit_iff {c : Char} : c.isDigit ↔ 48 ≤ c.toNat ∧ c.toNat ≤ 57 := by
  have hc : c.toNat = c.val.toNat := rfl
  have h0 : '0'.val.toNat = 48 := rfl
  have h9 : '9'.val.toNat = 57 := rfl
  unfold Char.isDigit
  rw [Bool.and_eq_true, decide_eq_true_eq, decide_eq_true_eq, ge_iff_le, UInt32.le_iff_toNat_le,
    UInt32.le_iff_toNat_le]
  omega

theorem digitChar_of_isDigit {c : Char} (h : c.isDigit) : Nat.digitChar (c.toNat - 48) = c := by
  have hc := isDigit_iff.mp h
  apply Char.toNat_inj.mp
  rw [Nat.toNat_digitChar_of_lt_ten (by omega)]
  omega

/-- Digits that are written behind a number come to its end. -/
theorem toDigits_append_digits {digits : List Char} : ∀ {n : Nat}, 0 < n →
    (∀ c ∈ digits, c.isDigit) →
    Nat.toDigits 10 n ++ digits = Nat.toDigits 10 (Nat.ofDigitChars 10 digits n) := by
  induction digits with
  | nil =>
      intro n _ _
      rw [List.append_nil, Nat.ofDigitChars_nil]
  | cons c digits ih =>
      intro n hn h
      have hc := h c List.mem_cons_self
      have hd : c.toNat - 48 < 10 := by
        have := isDigit_iff.mp hc
        omega
      have hstep := Nat.toDigits_append_toDigits (b := 10) (by omega) hn hd
      rw [Nat.toDigits_of_lt_base hd, digitChar_of_isDigit hc] at hstep
      rw [Nat.ofDigitChars_cons, ← List.singleton_append, ← List.append_assoc, hstep]
      exact ih (by omega) fun d hd => h d (List.mem_cons_of_mem _ hd)

theorem digitChars_rowOfDigits {d : Char} {digits : List Char} (hd : d ≠ '0')
    (h : ∀ c ∈ d :: digits, c.isDigit) :
    Decimal.digitChars (rowOfDigits (d :: digits)) = d :: digits := by
  have hdigit := h d List.mem_cons_self
  have hrange := isDigit_iff.mp hdigit
  have hpos : 0 < d.toNat - 48 := by
    have hne : d.toNat ≠ '0'.toNat := fun he => hd (Char.toNat_inj.mp he)
    have h0 : '0'.toNat = 48 := rfl
    omega
  have hfirst : Nat.toDigits 10 (d.toNat - 48) = [d] := by
    rw [Nat.toDigits_of_lt_base (by omega), digitChar_of_isDigit hdigit]
  unfold Decimal.digitChars
  rw [rowOfDigits_eq, Nat.ofDigitChars_cons, Nat.mul_zero, Nat.zero_add]
  rw [show '0'.toNat = 48 from rfl,
    ← toDigits_append_digits hpos fun c hc => h c (List.mem_cons_of_mem _ hc), hfirst]
  rfl

theorem head_toDigits {n : Nat} : 0 < n → (Nat.toDigits 10 n).head? ≠ some '0' := by
  induction n using Nat.strongRecOn with
  | ind n ih =>
      intro hn
      rw [Nat.toDigits_eq_if (by omega)]
      split
      · rw [List.head?_cons]
        intro he
        have hzero := Nat.digitChar_eq_zero.mp (Option.some.inj he)
        omega
      · rw [List.head?_append_of_ne_nil _ Nat.toDigits_ne_nil]
        exact ih (n / 10) (by omega) (by omega)

/-- The digits of a positive number: there is one, none but digits, and the first is not zero. -/
theorem digitChars_of_pos {n : Nat} (h : 0 < n) : ∃ d digits, Decimal.digitChars n = d :: digits ∧
    d ≠ '0' ∧ ∀ c ∈ d :: digits, c.isDigit := by
  have hdigits : ∀ c ∈ Decimal.digitChars n, c.isDigit := fun c hc =>
    Nat.isDigit_of_mem_toDigits (by omega) (by omega) hc
  have hhead : (Decimal.digitChars n).head? ≠ some '0' := head_toDigits h
  cases he : Decimal.digitChars n with
  | nil => exact absurd he Nat.toDigits_ne_nil
  | cons d digits =>
      rw [he] at hdigits hhead
      exact ⟨d, digits, rfl, fun hd => hhead (congrArg some hd), hdigits⟩

/-! ## Reading and writing -/

/-- Whether a text is split into the letters of a column and the digits of a row. -/
theorem split?_eq_some_iff {cs letters digits : List Char} :
    split? cs = some (letters, digits) ↔ cs = letters ++ digits ∧
      letters ≠ [] ∧ (∀ c ∈ letters, isColumnLetter c) ∧
      (∀ c ∈ digits, c.isDigit) ∧ ∃ d rest, digits = d :: rest ∧ d ≠ '0' := by
  constructor
  · intro h
    unfold split? at h
    dsimp only at h
    cases hdigits : cs.dropWhile isColumnLetter with
    | nil =>
        rw [hdigits] at h
        cases h
    | cons d rest =>
        rw [hdigits] at h
        dsimp only at h
        split at h
        · cases h
        · rename_i hcond
          simp only [Bool.or_eq_true, not_or, Bool.not_eq_true, List.isEmpty_eq_false_iff,
            beq_eq_false_iff_ne, Bool.not_eq_false'] at hcond
          obtain ⟨⟨hletters, hd⟩, hall⟩ := hcond
          cases h
          refine ⟨?_, hletters, ?_, List.all_eq_true.mp hall, d, rest, rfl, hd⟩
          · rw [← hdigits, List.takeWhile_append_dropWhile]
          · exact fun c hc => List.mem_takeWhile_imp hc
  · rintro ⟨rfl, hletters, hl, hdigits, d, rest, rfl, hd⟩
    have hstop : isColumnLetter d = false := by
      have hrange := isDigit_iff.mp (hdigits d List.mem_cons_self)
      rw [Bool.eq_false_iff, ne_eq, isColumnLetter_iff]
      omega
    have htake : (letters ++ d :: rest).takeWhile isColumnLetter = letters := by
      rw [List.takeWhile_append_of_pos hl, List.takeWhile_cons_of_neg (by rw [hstop]; decide),
        List.append_nil]
    have hdrop : (letters ++ d :: rest).dropWhile isColumnLetter = d :: rest := by
      rw [List.dropWhile_append_of_pos hl, List.dropWhile_cons_of_neg (by rw [hstop]; decide)]
    have hcond : (letters.isEmpty || d == '0' || !(d :: rest).all Char.isDigit) = false := by
      rw [List.isEmpty_eq_false_iff.mpr hletters, beq_eq_false_iff_ne.mpr hd,
        List.all_eq_true.mpr hdigits]
      rfl
    unfold split?
    rw [htake, hdrop]
    dsimp only
    rw [hcond, if_neg Bool.false_ne_true]

theorem split?_chars (a : Address) : split? a.chars =
    some (lettersOfPositive (a.col + 1), Decimal.digitChars (a.row + 1)) := by
  obtain ⟨d, digits, he, hd, hdigits⟩ := digitChars_of_pos (Nat.succ_pos a.row)
  refine split?_eq_some_iff.mpr ⟨rfl, ?_, isColumnLetter_of_mem_lettersOfPositive _,
    fun c hc => ?_, d, digits, he, hd⟩
  · rw [lettersOfPositive_pos (Nat.succ_ne_zero _)]
    exact List.append_ne_nil_of_right_ne_nil _ (List.cons_ne_nil _ _)
  · rw [he] at hc
    exact hdigits c hc

/-- **What is written for a position is read as that position**, if its row can be read at all. -/
theorem decode_text {a : Address}
    (h : (Decimal.digitChars (a.row + 1)).length ≤ Number.maxDigits) :
    decode a.text = .ok (some a) := by
  have hcol : columnIndex (lettersOfPositive (a.col + 1)) = (a.col : Int) := by
    rw [columnIndex_eq (isColumnLetter_of_mem_lettersOfPositive _), lettersValue_lettersOfPositive]
    omega
  unfold decode text
  rw [String.toList_ofList, split?_chars]
  dsimp only
  rw [if_neg (Nat.not_lt.mpr h), rowOfDigits_digitChars, hcol]
  rfl

/-- **A text that is read as a position is what is written for it.** -/
theorem text_of_decode {s : String} {a : Address} (h : decode s = .ok (some a)) : a.text = s := by
  unfold decode at h
  cases hs : split? s.toList with
  | none =>
      rw [hs] at h
      cases h
  | some parts =>
      obtain ⟨letters, digits⟩ := parts
      rw [hs] at h
      dsimp only at h
      split at h
      · cases h
      · obtain ⟨hcs, hletters, hl, hdigits, d, rest, rfl, hd⟩ := split?_eq_some_iff.mp hs
        obtain rfl := Option.some.inj (Except.ok.inj h)
        -- neither the number of the row nor that of the column is zero, so one less is exact
        have hrow : rowOfDigits (d :: rest) ≠ 0 := by
          intro hzero
          have hwritten := digitChars_rowOfDigits hd hdigits
          rw [hzero] at hwritten
          exact hd (List.head_eq_of_cons_eq hwritten).symm
        have hcol : lettersValue letters ≠ 0 := by
          intro hzero
          have hwritten := lettersOfPositive_lettersValue hl
          rw [hzero, lettersOfPositive_zero] at hwritten
          exact hletters hwritten.symm
        have hletters' : (columnIndex letters).toNat + 1 = lettersValue letters := by
          rw [columnIndex_eq hl]
          omega
        have hdigits' : rowOfDigits (d :: rest) - 1 + 1 = rowOfDigits (d :: rest) := by omega
        unfold text chars
        rw [hletters', hdigits', lettersOfPositive_lettersValue hl,
          digitChars_rowOfDigits hd hdigits, ← hcs, String.ofList_toList]

/-- No two texts are addresses of the same position. -/
theorem decode_injective {s t : String} {a : Address} (hs : decode s = .ok (some a))
    (ht : decode t = .ok (some a)) : s = t :=
  (text_of_decode hs).symm.trans (text_of_decode ht)

/-! ## Rows that can be read -/

/-- Whether the row of an address, if the text is one, has no more digits than are read. -/
def RowReadable (s : String) : Prop :=
  ∀ parts ∈ split? s.toList, parts.2.length ≤ Number.maxDigits

instance (s : String) : Decidable (RowReadable s) :=
  inferInstanceAs (Decidable (∀ parts ∈ split? s.toList, _))

theorem decode_ok {s : String} (h : RowReadable s) : ∃ a, decode s = .ok a := by
  unfold decode
  cases hs : split? s.toList with
  | none => exact ⟨none, rfl⟩
  | some parts =>
      obtain ⟨letters, digits⟩ := parts
      dsimp only
      rw [if_neg (Nat.not_lt.mpr (h (letters, digits) hs))]
      exact ⟨_, rfl⟩

theorem rowReadable_of_decode {s : String} {a : Option Address} (h : decode s = .ok a) :
    RowReadable s := by
  rintro ⟨letters, digits⟩ hs
  unfold decode at h
  rw [Option.mem_def.mp hs] at h
  dsimp only at h
  by_contra hlong
  rw [if_pos (Nat.not_le.mp hlong)] at h
  cases h

/-- Whether a text is the address of a position, with a row that can be read. -/
def WellFormed (s : String) : Prop :=
  ∃ a, decode s = .ok (some a)

instance (s : String) : Decidable (WellFormed s) :=
  match h : decode s with
  | .ok (some a) => .isTrue ⟨a, h⟩
  | .ok none => .isFalse fun ⟨_, ha⟩ => nomatch h.symm.trans ha
  | .error _ => .isFalse fun ⟨_, ha⟩ => nomatch h.symm.trans ha

theorem WellFormed.rowReadable {s : String} (h : WellFormed s) : RowReadable s := by
  obtain ⟨a, h⟩ := h
  exact rowReadable_of_decode h

theorem length_digitChars_of_decode {s : String} {a : Address} (h : decode s = .ok (some a)) :
    (Decimal.digitChars (a.row + 1)).length ≤ Number.maxDigits := by
  refine rowReadable_of_decode h (lettersOfPositive (a.col + 1), Decimal.digitChars (a.row + 1)) ?_
  rw [← text_of_decode h, text, String.toList_ofList, split?_chars, Option.mem_some_iff]

theorem length_digitChars_mono {m n : Nat} (h : m ≤ n) :
    (Decimal.digitChars m).length ≤ (Decimal.digitChars n).length := by
  have hpos : 0 < (Decimal.digitChars n).length := Nat.length_toDigits_pos
  unfold Decimal.digitChars at hpos ⊢
  rw [Nat.length_toDigits_le_iff (by decide) hpos]
  exact Nat.lt_of_le_of_lt h ((Nat.length_toDigits_le_iff (by decide) hpos).mp (Nat.le_refl _))

/-! ## Row-major order -/

theorem rowMajorLE_some {a b : Address} :
    rowMajorLE (some a) (some b) ↔ a.row < b.row ∨ a.row = b.row ∧ a.col ≤ b.col := by
  unfold rowMajorLE
  simp only [Bool.or_eq_true, Bool.and_eq_true, decide_eq_true_eq, beq_iff_eq]

theorem rowMajorLE_total (a b : Option Address) : rowMajorLE a b || rowMajorLE b a := by
  cases a with
  | none => rfl
  | some a =>
      cases b with
      | none => rfl
      | some b =>
          rw [Bool.or_eq_true, rowMajorLE_some, rowMajorLE_some]
          omega

theorem rowMajorLE_trans {a b c : Option Address} (hab : rowMajorLE a b) (hbc : rowMajorLE b c) :
    rowMajorLE a c := by
  cases a with
  | none => rfl
  | some a =>
      cases b with
      | none => cases hab
      | some b =>
          cases c with
          | none => cases hbc
          | some c =>
              rw [rowMajorLE_some] at hab hbc ⊢
              omega

theorem eq_of_rowMajorLE {a b : Address} (hab : rowMajorLE (some a) (some b))
    (hba : rowMajorLE (some b) (some a)) : a = b := by
  rw [rowMajorLE_some] at hab hba
  have hrow : a.row = b.row := by omega
  have hcol : a.col = b.col := by omega
  cases a
  cases b
  exact Address.mk.injEq .. ▸ ⟨hrow, hcol⟩

theorem keyed_mapM {l : List String} {keyed : List (Option Address × String)}
    (h : l.mapM (fun s => do return (← decode s, s)) = .ok keyed) :
    keyed.map (·.2) = l ∧ ∀ k ∈ keyed, decode k.2 = .ok k.1 := by
  induction l generalizing keyed with
  | nil =>
      obtain rfl := Except.ok.inj h
      exact ⟨rfl, fun _ hk => absurd hk List.not_mem_nil⟩
  | cons s l ih =>
      rw [List.mapM_cons] at h
      obtain ⟨_, hs, h⟩ := exists_of_bind h
      obtain ⟨rest, hl, h⟩ := exists_of_bind h
      obtain ⟨a, ha, hs⟩ := exists_of_bind hs
      obtain rfl := Except.ok.inj hs
      obtain rfl := Except.ok.inj h
      obtain ⟨hmap, hdecode⟩ := ih hl
      refine ⟨by rw [List.map_cons, hmap], fun k hk => ?_⟩
      rcases List.mem_cons.mp hk with rfl | hk
      · exact ha
      · exact hdecode k hk

theorem sortRowMajor_ok {l : List String} (h : ∀ a ∈ l, RowReadable a) :
    ∃ l', sortRowMajor l = .ok l' := by
  unfold sortRowMajor
  refine ok_bind (mapM_ok fun a ha => ?_) fun keyed _ => ⟨_, rfl⟩
  exact ok_bind (decode_ok (h a ha)) fun position _ => ⟨(position, a), rfl⟩

/-- Sorting rearranges. -/
theorem perm_of_sortRowMajor {l sorted : List String} (h : sortRowMajor l = .ok sorted) :
    sorted.Perm l := by
  unfold sortRowMajor at h
  obtain ⟨keyed, hk, h⟩ := exists_of_bind h
  obtain rfl := Except.ok.inj h
  rw [← (keyed_mapM hk).1]
  exact (sortedBy_perm _ keyed).map _

theorem rowReadable_of_sortRowMajor {l sorted : List String} (h : sortRowMajor l = .ok sorted) :
    ∀ s ∈ l, RowReadable s := by
  unfold sortRowMajor at h
  obtain ⟨keyed, hk, _⟩ := exists_of_bind h
  obtain ⟨hmap, hdecode⟩ := keyed_mapM hk
  intro s hs
  rw [← hmap] at hs
  obtain ⟨k, hk, rfl⟩ := List.mem_map.mp hs
  exact rowReadable_of_decode (hdecode k hk)

/-- Sorting puts each text before those whose positions come later. -/
theorem pairwise_sortRowMajor {l sorted : List String} (h : sortRowMajor l = .ok sorted) :
    sorted.Pairwise fun s t => ∃ a b, decode s = .ok a ∧ decode t = .ok b ∧ rowMajorLE a b := by
  unfold sortRowMajor at h
  obtain ⟨keyed, hk, h⟩ := exists_of_bind h
  obtain rfl := Except.ok.inj h
  have hdecode := (keyed_mapM hk).2
  have hmem := fun k => (sortedBy_perm (fun a b => rowMajorLE a.1 b.1) keyed).mem_iff (a := k)
  have hsorted : (sortedBy (fun a b => rowMajorLE a.1 b.1) keyed).Pairwise fun a b =>
      rowMajorLE a.1 b.1 :=
    @sortedBy_pairwise _ (fun a b => rowMajorLE a.1 b.1) (fun _ _ _ => rowMajorLE_trans)
      (fun a b => rowMajorLE_total a.1 b.1) keyed
  rw [List.pairwise_map]
  refine hsorted.imp_of_mem fun {s t} hs ht hle => ?_
  exact ⟨s.1, t.1, hdecode s ((hmem s).mp hs), hdecode t ((hmem t).mp ht), hle⟩

end Worksheet.Address
