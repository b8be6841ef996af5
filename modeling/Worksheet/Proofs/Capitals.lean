import Mathlib
import Worksheet.Text.Case
import Worksheet.Proofs.Cycles

/-!
# Addresses in capital letters

The upper case of a text is its own upper case, so an address that has been put into capital letters
once stays as it is.  All addresses of cells are such: those that a sheet is built from, and those
that are set later in a session.
-/

namespace Worksheet

namespace Text

/-! ## Upper case twice -/

/-- The code points of a run. -/
def CaseRun.points (run : CaseRun) : List Nat :=
  (List.range ((run.2.1 - run.1) / run.2.2.1 + 1)).map fun i => run.1 + i * run.2.2.1

/-- The code points beyond ASCII that have another one as their upper case. -/
def loweredPoints : List Nat :=
  upperExpansions.map (·.1) ++ upperRuns.flatMap CaseRun.points

/-- The code points in the upper case of those. -/
def raisedPoints : List Nat :=
  upperExpansions.flatMap (·.2) ++
    upperRuns.flatMap fun run => run.points.map fun n : Nat => ((n : Int) + run.2.2.2).toNat

/-- A set of numbers, as the bits of one number. -/
def bitsOf (ns : List Nat) : Nat :=
  ns.foldr (fun n bits => bits ||| 2 ^ n) 0

theorem testBit_bitsOf {ns : List Nat} {n : Nat} : (bitsOf ns).testBit n ↔ n ∈ ns := by
  induction ns with
  | nil => simp [bitsOf]
  | cons m ns ih =>
      show (bitsOf ns ||| 2 ^ m).testBit n ↔ _
      rw [Nat.testBit_or, Bool.or_eq_true, ih, Nat.testBit_two_pow, decide_eq_true_eq,
        List.mem_cons, or_comm, eq_comm]

/-- No code point in the upper case of another one has an upper case itself. -/
theorem not_mem_loweredPoints {n : Nat} (h : n ∈ raisedPoints) :
    n ∉ loweredPoints ∧ n.isValidChar ∧ (97 ≤ n → n ≤ 122 → False) := by
  have hall : ∀ n ∈ raisedPoints, (bitsOf loweredPoints).testBit n = false ∧ n.isValidChar ∧
      (97 ≤ n → n ≤ 122 → False) := by
    decide +kernel
  obtain ⟨hbit, hvalid⟩ := hall n h
  refine ⟨fun hmem => ?_, hvalid⟩
  rw [testBit_bitsOf.mpr hmem] at hbit
  cases hbit

theorem mem_points {run : CaseRun} {n : Nat} (h₁ : run.1 ≤ n) (h₂ : n ≤ run.2.1)
    (hstride : (n - run.1) % run.2.2.1 = 0) : n ∈ run.points := by
  have hdiv : (n - run.1) / run.2.2.1 * run.2.2.1 = n - run.1 :=
    Nat.div_mul_cancel (Nat.dvd_of_mod_eq_zero hstride)
  refine List.mem_map.mpr ⟨(n - run.1) / run.2.2.1, List.mem_range.mpr ?_, by omega⟩
  exact Nat.lt_succ_of_le (Nat.div_le_div_right (by omega))

/-- The run that a code point is found in. -/
theorem exists_run_of_shift? {n : Nat} {d : Char} (h : CaseRun.shift? upperRuns n = some d) :
    ∃ run ∈ upperRuns, n ∈ run.points ∧ d = Char.ofNat (n + run.2.2.2).toNat := by
  obtain ⟨run, hfind, rfl⟩ := Option.map_eq_some_iff.mp h
  have hholds := List.find?_some hfind
  simp only [Bool.and_eq_true, decide_eq_true_eq, beq_iff_eq] at hholds
  exact ⟨run, List.mem_of_find?_eq_some hfind, mem_points hholds.1.1 hholds.1.2 hholds.2, rfl⟩

/-- A character without another upper case. -/
theorem upperChar_eq_self {c : Char} (h : c.toNat ∉ loweredPoints)
    (hletter : 97 ≤ c.toNat → c.toNat ≤ 122 → False) : upperChar c = [c] := by
  unfold upperChar
  split
  · have hupper : c.toUpper = c := dif_neg fun hc => hletter hc.1 hc.2
    rw [hupper]
  have hexpansion : upperExpansions.find? (·.1 == c.toNat) = none := by
    refine List.find?_eq_none.mpr fun e he heq => h (List.mem_append_left _ ?_)
    exact List.mem_map.mpr ⟨e, he, by simpa using heq⟩
  have hrun : CaseRun.shift? upperRuns c.toNat = none := by
    refine Option.eq_none_iff_forall_not_mem.mpr fun d hd => h (List.mem_append_right _ ?_)
    obtain ⟨run, hrun, hmem, _⟩ := exists_run_of_shift? hd
    exact List.mem_flatMap.mpr ⟨run, hrun, hmem⟩
  rw [hexpansion, hrun]
  rfl

theorem upperChar_ofNat {n : Nat} (h : n ∈ raisedPoints) :
    upperChar (Char.ofNat n) = [Char.ofNat n] := by
  obtain ⟨hmem, hvalid, hletter⟩ := not_mem_loweredPoints h
  have hn : (Char.ofNat n).toNat = n := by rw [Char.toNat_ofNat, if_pos hvalid]
  exact upperChar_eq_self (hn.symm ▸ hmem) (hn.symm ▸ hletter)

/-- The upper case of a character is made of characters without another upper case. -/
theorem upperChar_of_mem {c d : Char} (h : d ∈ upperChar c) : upperChar d = [d] := by
  have hascii : ∀ n < 128, upperChar (Char.ofNat n).toUpper = [(Char.ofNat n).toUpper] := by
    decide +kernel
  unfold upperChar at h
  split at h
  · next hlow =>
      rw [List.mem_singleton.mp h, ← Char.ofNat_toNat c]
      exact hascii c.toNat hlow
  split at h
  · next n image hfind =>
      obtain ⟨m, hm, rfl⟩ := List.mem_map.mp h
      refine upperChar_ofNat (List.mem_append_left _ (List.mem_flatMap.mpr ⟨(n, image), ?_, hm⟩))
      exact List.mem_of_find?_eq_some hfind
  · next hnone =>
      cases hshift : CaseRun.shift? upperRuns c.toNat with
      | some e =>
          rw [hshift] at h
          obtain ⟨run, hrun, hmem, rfl⟩ := exists_run_of_shift? hshift
          rw [List.mem_singleton.mp h]
          refine upperChar_ofNat (List.mem_append_right _ (List.mem_flatMap.mpr ⟨run, hrun, ?_⟩))
          exact List.mem_map.mpr ⟨_, hmem, rfl⟩
      | none =>
          rw [hshift] at h
          obtain rfl : d = c := List.mem_singleton.mp h
          unfold upperChar
          rw [if_neg ‹_›, hnone, hshift]
          rfl

theorem flatMap_upperChar (c : Char) : (upperChar c).flatMap upperChar = upperChar c := by
  rw [List.flatMap_congr fun d hd => upperChar_of_mem hd]
  exact List.flatMap_singleton' _

/-- **The upper case of a text is its own upper case.** -/
theorem upper_upper (s : String) : upper (upper s) = upper s := by
  unfold upper
  rw [String.toList_ofList, List.flatMap_assoc]
  exact congrArg String.ofList (List.flatMap_congr fun c _ => flatMap_upperChar c)

theorem upperChar_of_lt {c : Char} (h : c.toNat < 97) : upperChar c = [c] := by
  have hupper : c.toUpper = c := dif_neg fun hc => Nat.not_le.mpr h hc.1
  unfold upperChar
  rw [if_pos (Nat.lt_trans h (by decide)), hupper]

end Text

/-- An address of a position is in capital letters. -/
theorem Address.WellFormed.upper_eq {s : String} (h : WellFormed s) : Text.upper s = s := by
  obtain ⟨a, h⟩ := h
  have hchars : ∀ c ∈ a.chars, Text.upperChar c = [c] := by
    intro c hc
    refine Text.upperChar_of_lt ?_
    rcases List.mem_append.mp hc with hc | hc
    · have hletter := isColumnLetter_iff.mp (isColumnLetter_of_mem_lettersOfPositive _ c hc)
      omega
    · have hdigit := isDigit_iff.mp (Nat.isDigit_of_mem_toDigits (by decide) (by decide) hc)
      omega
  obtain rfl := text_of_decode h
  unfold Text.upper text
  rw [String.toList_ofList, List.flatMap_congr hchars, List.flatMap_singleton']

/-! ## Sheets -/

namespace Cells

theorem mem_keys_insert {cells : Cells} {a k : String} {v : Value} :
    k ∈ (cells.insert a v).keys ↔ k ∈ cells.keys ∨ k = a :=
  mem_keys_put

theorem mem_of_mem_keys_ofList {entries : List (String × Value)} {k : String} :
    k ∈ (ofList entries).keys → k ∈ entries.map (·.1) := by
  induction entries using List.reverseRecOn with
  | nil => exact fun h => h
  | append_singleton l e ih =>
      intro h
      rw [ofList, List.foldl_append] at h
      rw [List.map_append]
      rcases mem_keys_insert.mp h with h | rfl
      · exact List.mem_append_left _ (ih h)
      · exact List.mem_append_right _ (List.mem_singleton_self _)

end Cells

namespace Sheet

/-- Whether all addresses of cells are in capital letters. -/
def Capital (s : Sheet) : Prop :=
  ∀ k ∈ s.cells.keys, Text.upper k = k

instance (s : Sheet) : Decidable s.Capital :=
  inferInstanceAs (Decidable (∀ k ∈ s.cells.keys, _))

/-- Cells are put under addresses in capital letters. -/
theorem upper_of_mem_cellsOfList {entries : List (String × Value)} {k : String}
    (h : k ∈ (cellsOfList entries).keys) : Text.upper k = k := by
  obtain ⟨e, he, rfl⟩ := List.mem_map.mp (Cells.mem_of_mem_keys_ofList h)
  obtain ⟨entry, _, rfl⟩ := List.mem_map.mp he
  exact Text.upper_upper entry.1

theorem capital_ofEntries (entries : List (String × Value)) : (ofEntries entries).Capital :=
  fun _ => upper_of_mem_cellsOfList

/-- Setting a cell leaves all addresses in capital letters. -/
theorem Capital.set {s : Sheet} (h : s.Capital) (address : String) (v : Value) :
    (s.set address v).Capital := by
  have hinsert : ∀ w, ∀ k ∈ (s.cells.insert (Text.upper address) w).keys, Text.upper k = k := by
    intro w k hk
    rcases Cells.mem_keys_insert.mp hk with hk | rfl
    · exact h k hk
    · exact Text.upper_upper _
  intro k hk
  cases v with
  | null => exact h k ((List.filter_sublist.map _).subset hk)
  | _ => exact hinsert _ k hk

end Sheet

/-! ## Sessions -/

namespace Session

theorem capital_apply {s : Session} (hacc : s.pass.Accounted s.sheet []) (h : s.sheet.Capital)
    (operation : Operation) : (s.apply operation).sheet.Capital := by
  cases operation with
  | set address v => exact h.set address v
  | invalidate => exact h
  | call call =>
      obtain ⟨_, q, hrun, _⟩ := Keeps.call (False.elim : False → s.sheet.RowsReadable) call _ hacc
      show (StateT.run call.run.run ⟨s.sheet, s.pass⟩).2.sheet.Capital
      rw [hrun]
      exact h

/-- **Whatever is done with a session, the addresses of its cells stay in capital letters.** -/
theorem capital_perform (operations : List Operation) : ∀ {s : Session},
    s.pass.Accounted s.sheet [] → s.sheet.Capital → (s.perform operations).sheet.Capital := by
  induction operations with
  | nil => exact fun _ h => h
  | cons operation operations ih =>
      exact fun hacc h => ih (accounted_apply hacc operation) (capital_apply hacc h operation)

end Session

end Worksheet
