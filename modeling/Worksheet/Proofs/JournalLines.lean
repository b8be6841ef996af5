import Mathlib
import Worksheet.Text.Lines
import Worksheet.Text.Utf8

/-!
# Files of ASCII lines

ASCII text has one byte for each character.  A file of ASCII lines that is cut anywhere still holds
whole lines after its first line feed: the last ones of the file.
-/

namespace Worksheet.Text

variable {cs : List Char} {ls : List (List Char)}

/-! ## ASCII -/

/-- The byte of an ASCII character. -/
def asciiByte (c : Char) : UInt8 :=
  UInt8.ofNat c.toNat

theorem toNat_asciiByte {c : Char} (h : c.toNat < 128) : (asciiByte c).toNat = c.toNat :=
  Nat.mod_eq_of_lt (by omega)

theorem utf8EncodeChar_ascii {c : Char} (h : c.toNat < 128) :
    String.utf8EncodeChar c = [asciiByte c] := by
  exact if_pos (Nat.le_of_lt_succ h)

theorem utf8Bytes_append (cs ds : List Char) :
    utf8Bytes (cs ++ ds) = utf8Bytes cs ++ utf8Bytes ds :=
  List.flatMap_append

theorem utf8Bytes_ascii (h : ∀ c ∈ cs, c.toNat < 128) : utf8Bytes cs = cs.map asciiByte := by
  induction cs with
  | nil => rfl
  | cons c cs ih =>
      rw [utf8Bytes, List.flatMap_cons, utf8EncodeChar_ascii (h c List.mem_cons_self),
        List.map_cons, ← ih fun d hd => h d (List.mem_cons_of_mem c hd)]
      rfl

/-- ASCII text is read back from its bytes. -/
theorem utf8Decode_ascii (h : ∀ c ∈ cs, c.toNat < 128) : utf8Decode (cs.map asciiByte) = cs := by
  induction cs with
  | nil => rw [List.map_nil, utf8Decode]
  | cons c cs ih =>
      have hc := toNat_asciiByte (h c List.mem_cons_self)
      have hlow : asciiByte c < 128 := UInt8.lt_iff_toNat_lt.mpr (hc ▸ h c List.mem_cons_self)
      rw [List.map_cons, utf8Decode, decodeFirst, if_pos hlow, hc, Char.ofNat_toNat, List.drop_zero,
        ih fun d hd => h d (List.mem_cons_of_mem c hd)]

theorem asciiByte_eq_lineFeed {c : Char} (h : c.toNat < 128) : asciiByte c = 10 ↔ c = '\n' := by
  rw [← UInt8.toNat_inj, toNat_asciiByte h, ← Char.toNat_inj]
  rfl

/-! ## Lines -/

/-- Lines, each of them ended by a line feed. -/
def endedLines (ls : List (List Char)) : List Char :=
  ls.flatMap (· ++ ['\n'])

theorem endedLines_cons (l : List Char) (ls : List (List Char)) :
    endedLines (l :: ls) = l ++ '\n' :: endedLines ls := by
  rw [endedLines, List.flatMap_cons, List.append_assoc]
  rfl

theorem length_endedLines_cons (l : List Char) (ls : List (List Char)) :
    (endedLines (l :: ls)).length = l.length + 1 + (endedLines ls).length := by
  rw [endedLines_cons, List.length_append, List.length_cons]
  omega

theorem splitLines_ended {l : List Char} (h : ∀ c ∈ l, ¬ isLineEnd c) (line cs : List Char) :
    splitLines line (l ++ '\n' :: cs) = (line.reverse ++ l) :: splitLines [] cs := by
  induction l generalizing line with
  | nil =>
      rw [List.nil_append, splitLines, if_pos (by decide), List.append_nil]
      exact fun _ hc => absurd hc (by decide)
  | cons c l ih =>
      have hc := h c List.mem_cons_self
      rw [List.cons_append, splitLines, if_neg hc, ih fun d hd => h d (List.mem_cons_of_mem c hd),
        List.reverse_cons, List.append_assoc, List.singleton_append]
      rintro _ rfl
      exact absurd rfl hc

/-- Lines that are ended by line feeds are found again. -/
theorem lines_endedLines (h : ∀ l ∈ ls, ∀ c ∈ l, ¬ isLineEnd c) : lines (endedLines ls) = ls := by
  induction ls with
  | nil => rfl
  | cons l ls ih =>
      have hls := ih fun l' hl' => h l' (List.mem_cons_of_mem l hl')
      rw [lines, endedLines_cons, splitLines_ended (h l List.mem_cons_self)]
      exact congrArg (l :: ·) hls

/-- How many lines start in front of a place in a file, or right there. -/
def startsUpTo : List (List Char) → Nat → Nat
  | [], _ => 0
  | l :: ls, k => if k ≤ l.length then 1 else startsUpTo ls (k - (l.length + 1)) + 1

/-- **What follows the first line feed after a cut is the lines that start after it.** -/
theorem drop_dropWhile_drop (h : ∀ l ∈ ls, '\n' ∉ l) (k : Nat) :
    (((endedLines ls).drop k).dropWhile (· ≠ '\n')).drop 1 =
      endedLines (ls.drop (startsUpTo ls k)) := by
  induction ls generalizing k with
  | nil => simp [endedLines]
  | cons l ls ih =>
      rw [endedLines_cons, startsUpTo]
      split
      · next hk =>
        -- the cut is in the first line, the end of which is left out
        have hl : ∀ c ∈ l.drop k, decide (c ≠ '\n') = true := fun c hc => by
          refine decide_eq_true fun hne => h l List.mem_cons_self ?_
          exact hne ▸ List.mem_of_mem_drop hc
        rw [List.drop_append_of_le_length hk, List.dropWhile_append_of_pos hl]
        rfl
      · next hk =>
        obtain ⟨n, rfl⟩ : ∃ n, k = l.length + (n + 1) := ⟨k - l.length - 1, by omega⟩
        have hn : l.length + (n + 1) - (l.length + 1) = n := by omega
        rw [hn, List.drop_length_add_append, List.drop_succ_cons,
          ih (fun l' hl' => h l' (List.mem_cons_of_mem l hl')) n, List.drop_succ_cons]

/-- A line starts where those before it end. -/
theorem lt_startsUpTo_iff {i : Nat} (hi : i < ls.length) (k : Nat) :
    i < startsUpTo ls k ↔ (endedLines (ls.take i)).length ≤ k := by
  induction ls generalizing i k with
  | nil => cases hi
  | cons l ls ih =>
      rw [startsUpTo]
      cases i with
      | zero =>
          have hpos : 0 < if k ≤ l.length then 1 else startsUpTo ls (k - (l.length + 1)) + 1 := by
            split <;> omega
          simp [hpos, endedLines]
      | succ i =>
          have hlength : (endedLines ((l :: ls).take (i + 1))).length =
              l.length + 1 + (endedLines (ls.take i)).length := by
            rw [List.take_succ_cons, length_endedLines_cons]
          rw [hlength]
          split
          · omega
          · rw [Nat.add_lt_add_iff_right, ih (Nat.lt_of_succ_lt_succ hi)]
            omega

end Worksheet.Text
