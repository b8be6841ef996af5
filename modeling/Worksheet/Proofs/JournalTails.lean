import Worksheet.Proofs.DamagedLines

/-!
# The end of a journal

Only the end of a file is read, and it can start in the middle of a line.  What comes before the first
line feed in it is left out, so a line that starts with the part that is read is left out as well,
unless that part is the whole file.
-/

namespace Worksheet.Log.Journal

open Json

variable {j : Journal} {rs : List Record}

/-- Where the line of a record starts in a file to which records are written. -/
def lineStart (j : Journal) (rs : List Record) (i : Nat) : Nat :=
  (j.writeEach ((written rs).take i)).bytes.length

/-- How far it is from the start of a line to the end of the file. -/
def lineReach (j : Journal) (rs : List Record) (i : Nat) : Int :=
  (j.writeEach rs).bytes.length - j.lineStart rs i

theorem written_take (rs : List Record) (i : Nat) :
    written ((written rs).take i) = (written rs).take i :=
  List.filter_eq_self.mpr fun _ hr => isOk_of_mem_written (List.mem_of_mem_take hr)

section

variable (hfresh : j.content = none) (hr : ∀ r ∈ rs, r.IsProper)

include hr in
/-- The line of each record that is written holds the record. -/
theorem isLine_written :
    List.Forall₂ Record.IsLine ((written rs).map lineText) ((written rs).map Record.revived) := by
  rw [List.forall₂_map_left_iff, List.forall₂_map_right_iff, List.forall₂_same]
  intro r hmem
  have hproper := hr r (List.mem_of_mem_filter hmem)
  exact (hproper.isLine (line_of_isOk (isOk_of_mem_written hmem))).2

include hfresh in
theorem bytes_of_fresh (rs : List Record) : (j.writeEach rs).bytes =
    Text.utf8Bytes (Text.endedLines ((written rs).map lineText)) := by
  have hempty : j.bytes = [] := by rw [bytes, hfresh, Option.getD_none]
  rw [(bytes_writeEach_eq rs j).1, hempty, List.nil_append]

include hfresh hr in
theorem lineStart_eq (i : Nat) : j.lineStart rs i =
    (Text.endedLines (((written rs).map lineText).take i)).length := by
  have hprintable := left_of_forall₂ (isLine_written hr) fun _ _ hl => hl.1
  rw [lineStart, bytes_of_fresh hfresh, written_take, List.map_take]
  exact length_endedLines fun l hl => hprintable l (List.mem_of_mem_take hl)

include hfresh hr in
/-- The lines that are left out are those of which the read does not go beyond the start. -/
theorem linesCut_le_iff {i : Nat} (hi : i < (written rs).length) :
    (j.writeEach rs).linesCut ((written rs).map lineText) ≤ i ↔
      j.lineReach rs i < j.tailBytes ∨ j.lineReach rs i = j.tailBytes ∧ j.lineStart rs i = 0 := by
  have hi' : i < ((written rs).map lineText).length := by rwa [List.length_map]
  have hstarts := Text.lt_startsUpTo_iff hi' (j.writeEach rs).start
  rw [← lineStart_eq hfresh hr] at hstarts
  have hcut : (j.writeEach rs).start = ((j.writeEach rs).bytes.length - j.tailBytes).toNat := by
    rw [start, (bytes_writeEach_eq rs j).2]
  rw [linesCut, lineReach]
  split
  · omega
  · omega

end

/-- **A read leaves out a line that starts with the part of the file that is read.**  Of the records
that were written to a fresh journal it gives the last ones, the newest one first: those from the end
of which, back to the start of their line, it is less than what is read, and the first one if this is
the whole file. -/
theorem read_tail (hfresh : j.content = none) (hr : ∀ r ∈ rs, r.IsProper) :
    ∃ m, (∀ limit : Int, rs.length ≤ limit → (j.writeEach rs).read none none limit =
        .ok (((written rs).drop m).reverse.map Record.revived)) ∧
      (∀ i < (written rs).length, m ≤ i ↔ j.lineReach rs i < j.tailBytes ∨
        j.lineReach rs i = j.tailBytes ∧ j.lineStart rs i = 0) ∧
      ∀ r ∈ rs, r.IsStandard → r.IsWritable → r ∈ written rs ∧ r.revived = r.toJson.sorted ∧
        Same r.toJson r.toJson.sorted := by
  have hlines := isLine_written hr
  have hbytes := bytes_of_fresh hfresh rs
  have hrecords := records_of_isLine hlines hbytes
  refine ⟨(j.writeEach rs).linesCut ((written rs).map lineText), fun limit hlimit => ?_,
    fun i hi => ?_, fun r hmem hstandard hw => ?_⟩
  · have hlength : ((((written rs).map Record.revived).drop
        ((j.writeEach rs).linesCut ((written rs).map lineText))).length : Int) ≤ limit := by
      have := List.length_filter_le (·.line.isOk) rs
      rw [List.length_drop, List.length_map]
      unfold written
      omega
    have hread := read_of_records_ok hrecords none none hlength
    rw [hread, filter_isSought_none, ← List.map_drop, List.map_reverse]
  · exact linesCut_le_iff hfresh hr hi
  · obtain ⟨l, hline, -⟩ := hstandard.line_ok hw
    refine ⟨List.mem_filter.mpr ⟨hmem, ?_⟩, hstandard.revived hw.2, (hstandard.toJson hw.2).same_sorted⟩
    rw [hline]
    rfl

/-- A fresh file, of the end of which so many bytes are read. -/
def freshTail (tailBytes : Int) : Journal :=
  ⟨none, tailBytes⟩

/-- Of two lines of 159 bytes the second one is read from the last 160 bytes. -/
theorem read_secondOfTwo :
    (freshTail 160).content = none ∧ (∀ r ∈ [startedRecord, startedRecord], r.IsProper) ∧
      ((freshTail 160).writeEach [startedRecord, startedRecord]).read none none defaultLimit =
        .ok [startedRecord.toJson.sorted] := by
  have hproper : ∀ r ∈ [startedRecord, startedRecord], r.IsProper := by
    simp [isStandard_startedRecord.isProper]
  have hwritten : written [startedRecord, startedRecord] = [startedRecord, startedRecord] :=
    List.filter_eq_self.mpr (by simp; decide +kernel)
  have hfirst : (freshTail 160).lineReach [startedRecord, startedRecord] 0 = 318 := by
    decide +kernel
  have hsecond : (freshTail 160).lineReach [startedRecord, startedRecord] 1 = 159 := by
    decide +kernel
  have htail : (freshTail 160).tailBytes = 160 := rfl
  obtain ⟨m, hread, hkept, hsame⟩ := read_tail (j := freshTail 160) rfl hproper
  obtain ⟨-, hrevived, -⟩ := hsame startedRecord List.mem_cons_self isStandard_startedRecord
    (by decide +kernel)
  rw [hwritten] at hread hkept
  have hm : m = 1 := by
    have hlow := hkept 0 (by decide)
    have hhigh := hkept 1 (by decide)
    omega
  subst hm
  refine ⟨rfl, hproper, (hread defaultLimit (by decide)).trans ?_⟩
  rw [← hrevived]
  rfl

/-- From the last 159 bytes it is not, although it fits. -/
theorem read_exactTail : (∀ r ∈ [startedRecord, startedRecord], r.IsStandard) ∧
    (freshTail 159).lineReach [startedRecord, startedRecord] 1 ≤ (freshTail 159).tailBytes ∧
      ((freshTail 159).writeEach [startedRecord, startedRecord]).read none none defaultLimit =
        .ok [] := by
  have hstandard : ∀ r ∈ [startedRecord, startedRecord], r.IsStandard := by
    simp [isStandard_startedRecord]
  have hfits : (freshTail 159).lineReach [startedRecord, startedRecord] 1 ≤
      (freshTail 159).tailBytes := by decide +kernel
  exact ⟨hstandard, hfits, eq_ok_nil (by decide +kernel)⟩

end Worksheet.Log.Journal
