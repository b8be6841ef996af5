import Worksheet.Proofs.DamagedLines
import Worksheet.Proofs.JsonPieces

/-!
# Records behind a torn line

A file that was cut off in the middle of a line has no line end for that line.  The next record is
appended all the same, so that both stand in one line.  It is read if nothing but gaps is in front of
it, and no line ends in front of it otherwise.
-/

namespace Worksheet.Log

open Json

namespace Record

variable {r : Record}

theorem exists_joinWith (separator part : List Char) (parts : List (List Char)) :
    ∃ rest, joinWith separator (part :: parts) = part ++ rest := by
  cases parts with
  | nil => exact ⟨[], (List.append_nil part).symm⟩
  | cons next parts => exact ⟨_, List.append_assoc part separator _⟩

/-- The context comes first in the line of a record. -/
theorem exists_objectText {l : List Char} (h : r.line = .ok (l ++ ['\n'])) :
    ∃ cs, l = objectText 'c' cs := by
  obtain ⟨l', hl, hcompact, _⟩ := exists_of_line h
  obtain rfl := List.append_cancel_right hl
  obtain ⟨v, entries, hentries⟩ : ∃ v entries, r.toJson.sorted =
      .object ((CodePoint.ofString "context", v) :: entries) := ⟨_, _, rfl⟩
  rw [hentries] at hcompact
  obtain ⟨parts, hparts, hl⟩ := exists_of_bind hcompact
  obtain ⟨part, hpart, hrest⟩ := exists_of_bind hparts
  obtain ⟨parts', _, hparts'⟩ := exists_of_bind hrest
  obtain rfl := Except.ok.inj hparts'
  obtain ⟨rest, hjoin⟩ := exists_joinWith [',', ' ']
    (stringChars (CodePoint.ofString "context") ++ [':', ' '] ++ part) parts'
  rw [hjoin] at hl
  exact ⟨_, (Except.ok.inj hl).symm⟩

end Record

namespace Journal

variable {j j' : Journal} {r : Record}

/-- No token starts with the first letter of the first key of a record. -/
theorem tokens_key (cs : List Char) : tokens ('c' :: cs) = [.malformed] := by
  have hfirst : Token.first 'c' cs = (.malformed, 0) := rfl
  exact tokens_malformed (by decide) hfirst

/-- What is left of a line that has no end. -/
def torn (bytes : List UInt8) : List Char :=
  Text.unfinished (Text.utf8Decode bytes)

/-- The lines that have ended. -/
def endedIn (bytes : List UInt8) : List (List Char) :=
  Text.lines (Text.finished (Text.utf8Decode bytes))

theorem linesOf_eq (bytes : List UInt8) :
    linesOf bytes = endedIn bytes ++ Text.lines (torn bytes) :=
  Text.lines_eq_append _

/-- The line of a record goes on where a torn line ends. -/
theorem linesOf_append {l : List Char} (hne : l ≠ []) (hl : ∀ c ∈ l, IsPrintable c)
    (bytes : List UInt8) :
    linesOf (bytes ++ Text.utf8Bytes (l ++ ['\n'])) = endedIn bytes ++ [torn bytes ++ l] := by
  have hascii : ∀ c ∈ l ++ ['\n'], c.toNat < 128 := by
    intro c hc
    rcases List.mem_append.mp hc with hc | hc
    · exact Nat.lt_of_le_of_lt (hl c hc).2 (by decide)
    · exact List.mem_singleton.mp hc ▸ by decide
  rw [linesOf, Text.utf8Decode_append_ascii bytes hascii,
    Text.lines_append_line _ hne fun c hc => not_isLineEnd_of_isPrintable (hl c hc)]
  rfl

theorem read_recent {vs : List Json} (h : j.records = .ok vs) (n : Nat) :
    j.read none none n = .ok (vs.reverse.take n) := by
  unfold read
  rw [h]
  show Except.ok (takeUpTo n (vs.filter (isSought none none)).reverse) = _
  rw [filter_isSought_none, takeUpTo, if_neg (by omega), Int.toNat_natCast]

/-- Gaps are no JSON, and they do not matter in front of it. -/
theorem objectOfLine_gaps {gap : List Char} (hgap : ∀ c ∈ gap, Token.isGap c) (l : List Char) :
    objectOfLine (gap ++ l) = objectOfLine l := by
  rw [objectOfLine, objectOfLine, Json.read, Json.read, tokens_gaps hgap]

theorem objectIn?_gaps {gap : List Char} (hgap : ∀ c ∈ gap, Token.isGap c) (l : List Char) :
    objectIn? (gap ++ l) = objectIn? l := by
  rw [objectIn?, objectIn?, Json.read, Json.read, tokens_gaps hgap]

theorem objectsIn_of_gaps {bytes : List UInt8} (h : ∀ c ∈ torn bytes, Token.isGap c) :
    objectsIn bytes = (endedIn bytes).filterMap objectIn? := by
  rw [objectsIn, linesOf_eq, List.filterMap_append]
  by_cases hne : torn bytes = []
  · rw [hne]
    exact List.append_nil _
  · have hnone : objectIn? (torn bytes) = none := by
      rw [← List.append_nil (torn bytes), objectIn?_gaps h, objectIn?_nil]
    rw [torn, Text.lines_unfinished hne, ← torn, List.filterMap_cons_none hnone, List.filterMap_nil,
      List.append_nil]

theorem read_of_objectOfLine {l : List Char} {v : Json} (h : objectOfLine l = .ok (some v)) :
    Json.read l = .ok v := by
  unfold objectOfLine at h
  split at h
  · next w hread =>
    have hvalue := Except.ok.inj h
    split at hvalue
    · exact Option.some.inj hvalue ▸ hread
    · cases hvalue
  · cases h
  · cases h

section

variable {bytes : List UInt8} {l : List Char}
  (hfits : (j.bytes.length : Int) ≤ j.tailBytes)
  (hlines : linesOf j.bytes = endedIn bytes ++ [torn bytes ++ l])
  (hended : ∀ line ∈ endedIn bytes, IsReadable line)

include hfits hlines hended

theorem records_of_last {o : Option Json} (hlast : objectOfLine (torn bytes ++ l) = .ok o) :
    j.records = .ok ((endedIn bytes).filterMap objectIn? ++ o.toList) := by
  have hreadable := isReadable_of_objectOfLine hlast
  have hobject : objectIn? (torn bytes ++ l) = o :=
    Except.ok.inj ((objectOfLine_of_isReadable hreadable).symm.trans hlast)
  refine (records_eq_ok_iff hfits).mpr ⟨hlines ▸ List.forall_mem_append.mpr
    ⟨hended, List.forall_mem_singleton.mpr hreadable⟩, ?_⟩
  rw [objectsIn, hlines, List.filterMap_append]
  cases o with
  | none => rw [List.filterMap_cons_none hobject, List.filterMap_nil, Option.toList_none]
  | some v => rw [List.filterMap_cons_some hobject, List.filterMap_nil, Option.toList_some]

end

/-- A record behind a torn line is read if only gaps are in front of it, and is lost otherwise. -/
theorem read_of_write (hr : r.IsProper) (hwrite : j.write r = .ok j')
    (hreadable : ∀ line ∈ linesOf j.bytes, IsReadable line)
    (hfits : (j'.bytes.length : Int) ≤ j'.tailBytes) :
    ((∀ c ∈ torn j.bytes, Token.isGap c) → ∀ n : Nat, j'.read none none (n + 1 : Nat) =
        .ok (r.revived :: (objectsIn j.bytes).reverse.take n)) ∧
      ((∃ c ∈ torn j.bytes, ¬ Token.isGap c) → ∀ n : Nat,
        j'.read none none n = .ok (((endedIn j.bytes).filterMap objectIn?).reverse.take n) ∨
          j'.read none none n = .error .tooDeep) := by
  obtain ⟨line, hline, hj'⟩ := exists_of_bind hwrite
  obtain rfl := Except.ok.inj hj'
  obtain ⟨l, rfl, -, -⟩ := Record.exists_of_line hline
  obtain ⟨cs, rfl⟩ := Record.exists_objectText hline
  obtain ⟨-, hprintable, hobject⟩ := hr.isLine hline
  have hne : objectText 'c' cs ≠ [] := List.cons_ne_nil _ _
  have hlines := linesOf_append hne hprintable j.bytes
  have hended : ∀ line ∈ endedIn j.bytes, IsReadable line := fun line h =>
    hreadable line (linesOf_eq j.bytes ▸ List.mem_append_left _ h)
  refine ⟨fun hgap n => ?_, fun htoken n => ?_⟩
  · have hrecords := records_of_last hfits hlines hended ((objectOfLine_gaps hgap _).trans hobject)
    rw [read_recent hrecords, ← objectsIn_of_gaps hgap, Option.toList_some, List.reverse_concat]
    rfl
  · have htorn : IsReadable (torn j.bytes) := by
      refine hreadable _ (linesOf_eq j.bytes ▸ List.mem_append_right _ ?_)
      rw [torn, Text.lines_unfinished fun hnil => ?_]
      · exact List.mem_singleton_self _
      · obtain ⟨c, hc, _⟩ := htoken
        rw [torn, hnil] at hc
        cases hc
    have hread := read_of_objectOfLine hobject
    rcases read_append_object htorn htoken (tokens_key cs) hread with hlast | hlast
    · have hnone : objectOfLine (torn j.bytes ++ objectText 'c' cs) = .ok none := by
        rw [objectOfLine, hlast]
      have hrecords := records_of_last hfits hlines hended hnone
      rw [Option.toList_none, List.append_nil] at hrecords
      exact .inl (read_recent hrecords n)
    · have hdeep : objectOfLine (torn j.bytes ++ objectText 'c' cs) = .error .tooDeep := by
        rw [objectOfLine, hlast]
      exact .inr (read_of_objectOfLine_error hfits hlines hended hdeep none none n)

/-- **A record is kept exactly where no torn line is in front of it**, but for gaps.  Where a file is
read as a whole and each of its lines can be read, a standard record that is written to it comes first
in what is read.  Behind anything else than gaps in a line without an end it is lost together with that
line, or keeps the file from being read. -/
theorem read_afterWrite (hr : r.IsStandard) (hw : r.IsWritable)
    (hreadable : ∀ line ∈ linesOf j.bytes, IsReadable line) :
    ∃ j', j.write r = .ok j' ∧ Same r.toJson r.toJson.sorted ∧
      ((j'.bytes.length : Int) ≤ j'.tailBytes →
        ((∀ c ∈ torn j.bytes, Token.isGap c) → ∀ n : Nat, j'.read none none (n + 1 : Nat) =
          .ok (r.toJson.sorted :: (objectsIn j.bytes).reverse.take n)) ∧
        ((∃ c ∈ torn j.bytes, ¬ Token.isGap c) → ∀ n : Nat,
          j'.read none none n = .ok (((endedIn j.bytes).filterMap objectIn?).reverse.take n) ∨
            j'.read none none n = .error .tooDeep)) := by
  obtain ⟨l, hline, -⟩ := hr.line_ok hw
  have hwrite := write_of_line hline j
  refine ⟨_, hwrite, (hr.toJson hw.2).same_sorted, fun hfits => ?_⟩
  rw [← hr.revived hw.2]
  exact read_of_write hr.isProper hwrite hreadable hfits

/-- A file that ends in a line without an end. -/
def tornFile (content : String) : Journal :=
  ⟨some (Text.utf8Bytes content.toList), defaultTailBytes⟩

theorem write_startedRecord (content : String) : (tornFile content).write startedRecord =
    .ok ((tornFile content).append (Text.utf8Bytes (lineText startedRecord ++ ['\n']))) :=
  write_of_line (line_of_isOk (by decide +kernel)) _

/-- A record is read behind a gap, in front of the object of the line before. -/
theorem read_afterGap :
    startedRecord.IsStandard ∧ startedRecord.IsWritable ∧
      (∀ line ∈ linesOf (tornFile "\x7b\x7d\n ").bytes, IsReadable line) ∧
      ∃ j', (tornFile "\x7b\x7d\n ").write startedRecord = .ok j' ∧ ∃ older, older.length = 1 ∧
        j'.read none none defaultLimit = .ok (startedRecord.toJson.sorted :: older) := by
  have hw : startedRecord.IsWritable := by decide +kernel
  have hreadable : ∀ line ∈ linesOf (tornFile "\x7b\x7d\n ").bytes, IsReadable line := by
    decide +kernel
  have htorn : torn (tornFile "\x7b\x7d\n ").bytes = [' '] := by decide +kernel
  have hgap : ∀ c ∈ torn (tornFile "\x7b\x7d\n ").bytes, Token.isGap c := by
    rw [htorn]
    exact List.forall_mem_singleton.mpr rfl
  have hfits : (((tornFile "\x7b\x7d\n ").append
      (Text.utf8Bytes (lineText startedRecord ++ ['\n']))).bytes.length : Int) ≤
        defaultTailBytes := by decide +kernel
  obtain ⟨j', hj', -, hread⟩ := read_afterWrite isStandard_startedRecord hw hreadable
  obtain rfl := Except.ok.inj (hj'.symm.trans (write_startedRecord _))
  exact ⟨isStandard_startedRecord, hw, hreadable, _, hj', _, by decide +kernel,
    (hread hfits).1 hgap 199⟩

/-- A record behind an object that was cut off is lost. -/
theorem read_afterBrace : startedRecord.IsStandard ∧
    (∀ line ∈ linesOf (tornFile "\x7b\"a\":").bytes, IsReadable line) ∧
    ∃ j', (tornFile "\x7b\"a\":").write startedRecord = .ok j' ∧
      (j'.bytes.length : Int) ≤ j'.tailBytes ∧ j'.read none none defaultLimit = .ok [] := by
  have hreadable : ∀ line ∈ linesOf (tornFile "\x7b\"a\":").bytes, IsReadable line := by
    decide +kernel
  have hfits : (((tornFile "\x7b\"a\":").append
      (Text.utf8Bytes (lineText startedRecord ++ ['\n']))).bytes.length : Int) ≤
        defaultTailBytes := by decide +kernel
  exact ⟨isStandard_startedRecord, hreadable, _, write_startedRecord _, hfits,
    eq_ok_nil (by decide +kernel)⟩

end Journal

end Worksheet.Log
