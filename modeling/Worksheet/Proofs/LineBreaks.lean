import Mathlib.Data.List.DropRight
import Worksheet.Proofs.JournalLines

/-!
# Text in pieces

An ASCII byte is part of no other character, so bytes are decoded in pieces before and from it on.
A line end cuts a text in two: the lines before it do not depend on what follows.  What follows the
last line end is unfinished, and goes on with what is appended.
-/

namespace Worksheet.Text

variable {cs : List Char}

/-! ## Decoding -/

/-- The bytes that go on with a character end before a byte that does not. -/
theorem tailBytes_append {low high : Nat} (hlow : 128 ≤ low) (count : Nat) (bs : List UInt8)
    {c : UInt8} (hc : c < 128) (rest : List UInt8) :
    tailBytes low high count (bs ++ c :: rest) = tailBytes low high count bs := by
  have hascii : c.toNat < 128 := UInt8.lt_iff_toNat_lt.mp hc
  induction bs generalizing low high count with
  | nil =>
      cases count with
      | zero => rfl
      | succ count =>
          have hout : ¬ isTail low high c := by
            simp only [isTail, Bool.and_eq_true, decide_eq_true_eq]
            omega
          exact if_neg hout
  | cons b bs ih =>
      cases count with
      | zero => rfl
      | succ count => rw [List.cons_append, tailBytes, tailBytes, ih (by decide)]

theorem length_tailBytes_le (low high count : Nat) (bs : List UInt8) :
    (tailBytes low high count bs).length ≤ bs.length := by
  fun_induction tailBytes low high count bs with
  | case1 => exact Nat.zero_le _
  | case2 => exact Nat.le_refl _
  | case3 _ _ _ _ _ _ ih => exact Nat.succ_le_succ ih
  | case4 => exact Nat.zero_le _

theorem le_low_of_tailOf? {b : UInt8} {low high count : Nat}
    (h : tailOf? b = some (low, high, count)) : 128 ≤ low := by
  unfold tailOf? at h
  dsimp only at h
  split_ifs at h <;> cases h <;> decide

theorem decodeFirst_append (b : UInt8) (bs : List UInt8) {c : UInt8} (hc : c < 128)
    (rest : List UInt8) : decodeFirst b (bs ++ c :: rest) = decodeFirst b bs := by
  unfold decodeFirst
  split
  · rfl
  · split
    · rfl
    · next htail =>
      dsimp only
      rw [tailBytes_append (le_low_of_tailOf? htail) _ bs hc]

theorem decodeFirst_le (b : UInt8) (bs : List UInt8) : (decodeFirst b bs).2 ≤ bs.length := by
  unfold decodeFirst
  split
  · exact Nat.zero_le _
  · split
    · exact Nat.zero_le _
    · exact length_tailBytes_le ..

/-- **Bytes are decoded in pieces** where the second piece starts with an ASCII byte. -/
theorem utf8Decode_append (bs : List UInt8) {c : UInt8} (hc : c < 128) (rest : List UInt8) :
    utf8Decode (bs ++ c :: rest) = utf8Decode bs ++ utf8Decode (c :: rest) := by
  induction hn : bs.length using Nat.strong_induction_on generalizing bs with
  | _ n ih =>
      cases bs with
      | nil =>
          rw [List.nil_append, utf8Decode.eq_1]
          rfl
      | cons b bs =>
          have hle := decodeFirst_le b bs
          rw [List.length_cons] at hn
          rw [List.cons_append, utf8Decode, decodeFirst_append b bs hc,
            List.drop_append_of_le_length hle, ih _ (by rw [List.length_drop]; omega) _ rfl,
            utf8Decode.eq_2 b bs, List.cons_append]

theorem utf8Decode_lineFeed (bs rest : List UInt8) :
    utf8Decode (bs ++ 10 :: rest) = utf8Decode bs ++ '\n' :: utf8Decode rest := by
  have hfirst : decodeFirst 10 rest = ('\n', 0) := rfl
  rw [utf8Decode_append bs (by decide), utf8Decode.eq_2, hfirst]
  rfl

/-- ASCII text is read back behind any bytes. -/
theorem utf8Decode_append_ascii (bs : List UInt8) {cs : List Char}
    (h : ∀ c ∈ cs, c.toNat < 128) : utf8Decode (bs ++ utf8Bytes cs) = utf8Decode bs ++ cs := by
  rw [utf8Bytes_ascii h]
  cases cs with
  | nil => rw [List.map_nil, List.append_nil, List.append_nil]
  | cons c cs =>
      have hc := h c List.mem_cons_self
      have hlow : asciiByte c < 128 := UInt8.lt_iff_toNat_lt.mpr ((toNat_asciiByte hc).symm ▸ hc)
      rw [List.map_cons, utf8Decode_append bs hlow, ← List.map_cons, utf8Decode_ascii h]

/-! ## Lines -/

/-- Whether a line can be cut off between two texts: the first one ends with a line end, and this is
not the first half of one that the second text goes on with. -/
def BreaksBetween (cs ds : List Char) : Prop :=
  (∃ c ∈ cs.getLast?, isLineEnd c) ∧ (cs.getLast? = some '\r' → ds.head? ≠ some '\n')

theorem BreaksBetween.tail {c d : Char} {cs ds : List Char} (h : BreaksBetween (c :: d :: cs) ds) :
    BreaksBetween (d :: cs) ds := by
  rwa [BreaksBetween, List.getLast?_cons_cons] at h

theorem splitLines_cons {c : Char} (hpair : c = '\r' → cs.head? ≠ some '\n') (line : List Char) :
    splitLines line (c :: cs) =
      if isLineEnd c then line.reverse :: splitLines [] cs else splitLines (c :: line) cs := by
  rw [splitLines]
  rintro rest rfl rfl
  exact hpair rfl rfl

/-- **The lines before a line end do not depend on what follows it.** -/
theorem splitLines_append {cs ds : List Char} (h : BreaksBetween cs ds) (line : List Char) :
    splitLines line (cs ++ ds) = splitLines line cs ++ splitLines [] ds := by
  fun_induction splitLines line cs with
  | case1 | case2 => simp [BreaksBetween] at h
  | case3 line cs ih =>
      rw [List.cons_append, List.cons_append, splitLines, List.cons_append]
      cases cs with
      | nil => rfl
      | cons c cs => rw [ih h.tail.tail]
  | case4 line c cs hpair hend ih =>
      cases cs with
      | nil =>
          have hfirst : c = '\r' → ds.head? ≠ some '\n' := fun hc => h.2 (hc ▸ rfl)
          show splitLines line (c :: ds) = _
          rw [splitLines_cons hfirst, if_pos hend]
          rfl
      | cons d cs =>
          have hfirst : c = '\r' → (d :: (cs ++ ds)).head? ≠ some '\n' := fun hc hd =>
            hpair cs hc (congrArg (· :: cs) (Option.some.inj hd))
          rw [List.cons_append, List.cons_append, splitLines_cons hfirst, if_pos hend,
            ← List.cons_append, ih h.tail, List.cons_append]
  | case5 line c cs hpair hend ih =>
      cases cs with
      | nil => exact absurd h.1 (by simpa using hend)
      | cons d cs =>
          have hfirst : c = '\r' → (d :: (cs ++ ds)).head? ≠ some '\n' := fun hc hd =>
            hpair cs hc (congrArg (· :: cs) (Option.some.inj hd))
          rw [List.cons_append, List.cons_append, splitLines_cons hfirst, if_neg hend,
            ← List.cons_append, ih h.tail]

theorem lines_append {cs ds : List Char} (h : BreaksBetween cs ds) :
    lines (cs ++ ds) = lines cs ++ lines ds :=
  splitLines_append h []

/-- A line feed ends the last line of a text, or adds an empty one. -/
theorem splitLines_concat (line cs : List Char) :
    splitLines line (cs ++ ['\n']) = splitLines line cs ∨
      splitLines line (cs ++ ['\n']) = splitLines line cs ++ [[]] := by
  fun_induction splitLines line cs with
  | case1 line hempty =>
      rw [List.isEmpty_iff.mp hempty]
      exact .inr rfl
  | case2 line hempty => exact .inl rfl
  | case3 line cs ih =>
      rw [List.cons_append, List.cons_append, splitLines]
      exact ih.imp (congrArg (line.reverse :: ·)) (congrArg (line.reverse :: ·))
  | case4 line c cs hpair hend ih =>
      by_cases hfirst : c = '\r' → (cs ++ ['\n']).head? ≠ some '\n'
      · rw [List.cons_append, splitLines_cons hfirst, if_pos hend]
        exact ih.imp (congrArg (line.reverse :: ·)) (congrArg (line.reverse :: ·))
      · -- the line feed is the second half of a line end
        obtain ⟨rfl, hhead⟩ := Classical.not_imp.mp hfirst
        cases cs with
        | nil => exact .inl rfl
        | cons d cs =>
            obtain rfl : d = '\n' := Option.some.inj (not_not.mp hhead)
            exact absurd rfl (hpair cs rfl)
  | case5 line c cs hpair hend ih =>
      have hfirst : c = '\r' → (cs ++ ['\n']).head? ≠ some '\n' := by
        rintro rfl
        exact absurd rfl hend
      rwa [List.cons_append, splitLines_cons hfirst, if_neg hend]

/-! ## The end of a text -/

/-- The lines of a text that have been ended, with their line ends. -/
def finished (cs : List Char) : List Char :=
  cs.rdropWhile fun c => !isLineEnd c

/-- What a text holds after its last line end. -/
def unfinished (cs : List Char) : List Char :=
  cs.rtakeWhile fun c => !isLineEnd c

theorem finished_append_unfinished (cs : List Char) : finished cs ++ unfinished cs = cs :=
  List.rdropWhile_append_rtakeWhile

theorem not_isLineEnd_unfinished (cs : List Char) : ∀ c ∈ unfinished cs, ¬ isLineEnd c := by
  intro c hc
  simpa using List.mem_rtakeWhile_imp hc

theorem breaksBetween_finished (cs : List Char) (hne : finished cs ≠ []) {ds : List Char}
    (hds : ds.head? ≠ some '\n') : BreaksBetween (finished cs) ds := by
  refine ⟨⟨_, List.getLast?_eq_some_getLast hne, ?_⟩, fun _ => hds⟩
  have hlast := List.rdropWhile_last_not (fun c => !isLineEnd c) cs hne
  rwa [Bool.not_eq_true', Bool.not_eq_false] at hlast

theorem lines_finished_append (cs : List Char) {ds : List Char} (hds : ds.head? ≠ some '\n') :
    lines (finished cs ++ ds) = lines (finished cs) ++ lines ds := by
  by_cases hne : finished cs = []
  · rw [hne]
    rfl
  · exact lines_append (breaksBetween_finished cs hne hds)

/-- **What is appended to a text goes on with its unfinished line.** -/
theorem lines_append_line (cs : List Char) {l : List Char} (hne : l ≠ [])
    (hl : ∀ c ∈ l, ¬ isLineEnd c) :
    lines (cs ++ (l ++ ['\n'])) = lines (finished cs) ++ [unfinished cs ++ l] := by
  have hends : ∀ c ∈ unfinished cs ++ l, ¬ isLineEnd c := fun c hc =>
    (List.mem_append.mp hc).elim (not_isLineEnd_unfinished cs c) (hl c)
  have hhead : (unfinished cs ++ l ++ ['\n']).head? ≠ some '\n' := fun h => by
    rw [List.head?_append_of_ne_nil _ (by simp [hne])] at h
    exact hends _ (List.mem_of_mem_head? h) (by decide)
  conv_lhs => rw [← finished_append_unfinished cs]
  rw [List.append_assoc, ← List.append_assoc (unfinished cs), lines_finished_append cs hhead, lines, lines,
    splitLines_ended hends]
  rfl

theorem splitLines_unended {l : List Char} (h : ∀ c ∈ l, ¬ isLineEnd c) (line : List Char)
    (hne : line.reverse ++ l ≠ []) : splitLines line l = [line.reverse ++ l] := by
  induction l generalizing line with
  | nil =>
      rw [List.append_nil] at hne ⊢
      rw [splitLines, if_neg (by simpa using hne)]
  | cons c l ih =>
      have hc := h c List.mem_cons_self
      have hpair : c = '\r' → l.head? ≠ some '\n' := by
        rintro rfl
        exact absurd (by decide) hc
      rw [splitLines_cons hpair, if_neg hc, ih fun d hd => h d (List.mem_cons_of_mem c hd)]
      · simp
      · simp

/-- A text without a line end is a single line. -/
theorem lines_unfinished {cs : List Char} (hne : unfinished cs ≠ []) :
    lines (unfinished cs) = [unfinished cs] :=
  splitLines_unended (not_isLineEnd_unfinished cs) [] hne

theorem lines_eq_append (cs : List Char) :
    lines cs = lines (finished cs) ++ lines (unfinished cs) := by
  have hhead : (unfinished cs).head? ≠ some '\n' := fun h =>
    not_isLineEnd_unfinished cs _ (List.mem_of_mem_head? h) (by decide)
  rw [← lines_finished_append cs hhead, finished_append_unfinished]

end Worksheet.Text
