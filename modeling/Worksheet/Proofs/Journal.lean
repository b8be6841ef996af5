import Worksheet.Log.Journal
import Worksheet.Proofs.Failing
import Worksheet.Proofs.JournalLines
import Worksheet.Proofs.JsonReading

/-!
# What is read back from a journal

Each record that is written becomes one line, and a line is read back as its record.  Reading the
end of the file gives the last of the records that were written, none of them cut or run together
with another one.
-/

namespace Worksheet

namespace Log

open Json

/-! ## Records -/

/-- A record whose text is free of lone surrogates and whose context is plain. -/
structure Record.IsPlain (r : Record) : Prop where
  time : CodePoint.IsText r.time
  message : CodePoint.IsText r.event.message
  errorCode : ∀ s ∈ r.event.errorCode, CodePoint.IsText s
  context : (Json.object r.event.context).IsPlain

/-- A record whose text is free of lone surrogates and whose context is of standard JSON. -/
structure Record.IsStandard (r : Record) : Prop where
  time : CodePoint.IsText r.time
  message : CodePoint.IsText r.event.message
  errorCode : ∀ s ∈ r.event.errorCode, CodePoint.IsText s
  context : IsClean IsStandardNumber (.object r.event.context)

theorem Record.IsPlain.isStandard {r : Record} (h : r.IsPlain) : r.IsStandard :=
  ⟨h.time, h.message, h.errorCode, h.context.isStandard⟩

/-- Whether a record can be written: its context does not nest too deeply, and its version
does not have too many digits. -/
def Record.IsWritable (r : Record) : Prop :=
  heightEntries r.event.context ≤ maxContextHeight ∧ r.event.version.natAbs < 10 ^ Number.maxDigits

instance (r : Record) : Decidable r.IsWritable :=
  inferInstanceAs (Decidable (_ ∧ _))

/-- Whether a record is of a level and a topic, as far as they are asked for. -/
def Record.isSought (level topic : Option String) (r : Record) : Bool :=
  level.all (· == r.event.level.name) && topic.all (· == r.event.topic.name)

namespace Record

variable {r : Record}

/-- The entries of a record's JSON object. -/
def entries (r : Record) : Context :=
  Json.entry "ts" (.text r.time) :: r.event.fields

theorem keys_entries (r : Record) : r.entries.map (·.1) = ["ts", "schema_version", "level",
    "event_type", "context", "message", "error_code"].map CodePoint.ofString :=
  rfl

theorem distinct_entries (r : Record) : (r.entries.map (·.1)).Nodup := by
  rw [keys_entries]
  exact List.Nodup.map CodePoint.ofString_injective (by decide)

theorem get?_toJson {key : String} {v : Json} (h : Json.entry key v ∈ r.entries) :
    r.toJson.get? key = some v :=
  lookup_of_mem r.distinct_entries h

theorem get?_sorted {key : String} {v : Json} (h : Json.entry key v ∈ r.entries) :
    r.toJson.sorted.get? key = some v.sorted := by
  have hdistinct := (keys_sortedObject r.entries).nodup_iff.mpr r.distinct_entries
  rw [toJson, sorted_object]
  exact lookup_of_mem hdistinct (mem_sortedObject.mpr ⟨_, h, rfl⟩)

theorem hasField_sorted {key value : String} (h : Json.entry key (.ofString value) ∈ r.entries)
    (wanted : Option String) :
    Journal.hasField key wanted r.toJson.sorted = wanted.all (· == value) := by
  cases wanted with
  | none => rfl
  | some w =>
      have hvalue : (Json.ofString value).sorted = .text (CodePoint.ofString value) := rfl
      unfold Journal.hasField
      dsimp only
      rw [get?_sorted h, hvalue]
      show (CodePoint.ofString value == CodePoint.ofString w) = (w == value)
      rw [Bool.eq_iff_iff, beq_iff_eq, beq_iff_eq, CodePoint.ofString_injective.eq_iff, eq_comm]

theorem hasField_eq_isSought (level topic : Option String) (r : Record) :
    (Journal.hasField "level" level r.toJson.sorted &&
      Journal.hasField "event_type" topic r.toJson.sorted) = r.isSought level topic := by
  have hlevel : Json.entry "level" (.ofString r.event.level.name) ∈ r.entries := by
    simp [entries, Event.fields]
  have htopic : Json.entry "event_type" (.ofString r.event.topic.name) ∈ r.entries := by
    simp [entries, Event.fields]
  rw [hasField_sorted hlevel, hasField_sorted htopic]
  rfl

/-- What the entries of a standard record are. -/
theorem IsStandard.mem_entries (h : r.IsStandard) {e : List CodePoint × Json} (he : e ∈ r.entries) :
    e.2 = .text r.time ∨ e.2 = .ofInt r.event.version ∨ e.2 = .ofString r.event.level.name ∨
      e.2 = .ofString r.event.topic.name ∨ e.2 = .object r.event.context ∨
        e.2 = .text r.event.message ∨ e.2 = (r.event.errorCode.map Json.text).getD .null := by
  simp only [entries, Event.fields, h.context.withoutNonFinite fun _ hn => hn.finite,
    List.mem_cons, List.not_mem_nil, or_false] at he
  rcases he with rfl | rfl | rfl | rfl | rfl | rfl | rfl <;> simp [Json.entry]

theorem IsStandard.toJson (h : r.IsStandard)
    (hversion : r.event.version.natAbs < 10 ^ Number.maxDigits) :
    IsClean IsStandardNumber r.toJson := by
  refine .object r.distinct_entries (fun e he => ?_) fun e he => ?_
  · have hkey := List.mem_map_of_mem (f := (·.1)) he
    obtain ⟨key, _, hkey⟩ := List.mem_map.mp (keys_entries r ▸ hkey)
    exact hkey ▸ CodePoint.isText_ofString key
  · rcases h.mem_entries he with he | he | he | he | he | he | he <;> rw [he]
    · exact .text h.time
    · exact .number (isStandardNumber_int hversion)
    · exact .ofString _
    · exact .ofString _
    · exact h.context
    · exact .text h.message
    · cases hcode : r.event.errorCode with
      | none => exact .null
      | some s => exact .text (h.errorCode s hcode)

theorem height_toJson_le (r : Record) :
    r.toJson.height ≤ 2 + heightEntries r.event.context := by
  have hcontext : (withoutNonFinite (.object r.event.context)).height =
      1 + heightEntries r.event.context := by rw [height_withoutNonFinite, height]
  have hentries : heightEntries r.entries ≤ 1 + heightEntries r.event.context := by
    refine heightEntries_le_iff.mpr fun e he => ?_
    simp only [entries, Event.fields, List.mem_cons, List.not_mem_nil, or_false] at he
    rcases he with rfl | rfl | rfl | rfl | rfl | rfl | rfl
    case inr.inr.inr.inr.inl => exact hcontext.le
    case inr.inr.inr.inr.inr.inr => cases r.event.errorCode <;> exact Nat.le_add_right _ _
    all_goals exact Nat.le_add_right _ _
  show height (.object r.entries) ≤ _
  rw [height]
  omega

/-- A record all numbers of which belong to the format. -/
def IsProper (r : Record) : Prop :=
  (Json.object r.event.context).IsProper

theorem IsProper.toJson (h : r.IsProper) : r.toJson.IsProper := by
  refine .object fun e he => ?_
  simp only [Event.fields, List.mem_cons, List.not_mem_nil, or_false] at he
  rcases he with rfl | rfl | rfl | rfl | rfl | rfl | rfl
  · exact .text _
  · exact .number trivial
  · exact .text _
  · exact .text _
  · exact Json.IsProper.withoutNonFinite h
  · exact .text _
  · cases r.event.errorCode with
    | none => exact .null
    | some s => exact .text s

theorem IsStandard.isProper (h : r.IsStandard) : r.IsProper :=
  h.context.isProper fun _ hn => hn.representable

/-- The object of a plain record is of standard JSON. -/
theorem IsPlain.toJson (h : r.IsPlain) (hversion : r.event.version.natAbs < 10 ^ Number.maxDigits) :
    IsClean IsStandardNumber r.toJson :=
  h.isStandard.toJson hversion

/-! ## Lines -/

/-- Whether a line is printable and holds an object. -/
def IsLine (line : List Char) (v : Json) : Prop :=
  (∀ c ∈ line, IsPrintable c) ∧ Journal.objectOfLine line = .ok (some v)

/-- Whether a line is printable and holds a record. -/
def IsLineOf (line : List Char) (r : Record) : Prop :=
  (∀ c ∈ line, IsPrintable c) ∧ Journal.objectOfLine line = .ok (some r.toJson.sorted)

/-- What is written for a record is its text and a line feed. -/
theorem exists_of_line {cs : List Char} (h : r.line = .ok cs) :
    ∃ l, cs = l ++ ['\n'] ∧ r.toJson.sorted.compact = .ok l ∧
      heightEntries r.event.context ≤ maxContextHeight := by
  unfold line at h
  split at h
  · cases h
  next hheight =>
    split at h
    · next l hl => exact ⟨l, (Except.ok.inj h).symm, hl, Nat.not_lt.mp hheight⟩
    · cases h

/-- What is read back from the line of a record. -/
def revived (r : Record) : Json :=
  r.toJson.sorted.revived

theorem isObject_revived (r : Record) : r.revived.isObject := by
  rw [revived, toJson, sorted_object]
  rfl

theorem height_sorted_toJson_le (h : heightEntries r.event.context ≤ maxContextHeight) :
    r.toJson.sorted.height ≤ maxDepth := by
  have hsorted := height_sorted_le r.toJson
  have hjson := r.height_toJson_le
  unfold maxContextHeight at h
  unfold maxDepth
  omega

/-- **A record is read back from its line.** -/
theorem IsProper.isLine (h : r.IsProper) {l : List Char} (hl : r.line = .ok (l ++ ['\n'])) :
    IsTextOf l r.toJson.sorted ∧ IsLine l r.revived := by
  obtain ⟨l', hl', hcompact, hheight⟩ := exists_of_line hl
  obtain rfl := List.append_cancel_right hl'
  have htext := h.toJson.sorted.isTextOf l hcompact
  refine ⟨htext, htext.printable, ?_⟩
  rw [Journal.objectOfLine, htext.read (height_sorted_toJson_le hheight)]
  exact congrArg Except.ok (if_pos r.isObject_revived)

theorem IsStandard.revived (h : r.IsStandard)
    (hversion : r.event.version.natAbs < 10 ^ Number.maxDigits) :
    r.revived = r.toJson.sorted :=
  (h.toJson hversion).sorted.revived

/-- **A standard record is written as a line that it is read from.** -/
theorem IsStandard.line_ok (h : r.IsStandard) (hw : r.IsWritable) :
    ∃ l, r.line = .ok (l ++ ['\n']) ∧ IsLineOf l r := by
  obtain ⟨l, hl⟩ := (h.toJson hw.2).sorted.compact_ok
  have hline : r.line = .ok (l ++ ['\n']) := by
    rw [line, if_neg (Nat.not_lt.mpr hw.1), hl]
  refine ⟨l, hline, ?_⟩
  have hrevived := (h.isProper.isLine hline).2
  rwa [h.revived hw.2] at hrevived

theorem line_error (hw : ¬ r.IsWritable) : ∃ fault, r.line = .error fault := by
  unfold line
  split
  · exact ⟨_, rfl⟩
  next hheight =>
    have hversion : 10 ^ Number.maxDigits ≤ r.event.version.natAbs := by
      refine Nat.not_lt.mp fun hv => hw ⟨Nat.not_lt.mp hheight, hv⟩
    have hmem : Json.entry "schema_version" (.ofInt r.event.version) ∈ r.entries := by
      simp [entries, Event.fields]
    have herror : ∃ e ∈ sortedObject r.entries, ∃ cause, e.2.compact = .error cause := by
      refine ⟨_, mem_sortedObject.mpr ⟨_, hmem, rfl⟩, .integerTooLongToWrite, ?_⟩
      show numberChars (.int r.event.version) = _
      rw [numberChars, Number.intText, Nat.pow_eq, if_pos hversion]
      rfl
    obtain ⟨cause, hcause⟩ := compactEntries_error herror
    have hcompact : r.toJson.sorted.compact = .error cause := by
      show (Json.object r.entries).sorted.compact = _
      rw [sorted_object, compact, hcause]
      rfl
    rw [hcompact]
    exact ⟨_, rfl⟩

end Record

/-! ## The file -/

namespace Journal

variable {j : Journal} {r : Record} {rs : List Record}

/-- Writes records one after the other.  What cannot be written is left out. -/
def writeEach (j : Journal) (rs : List Record) : Journal :=
  rs.foldl (fun j r =>
    match j.write r with
    | .ok j => j
    | .error _ => j) j

/-- The bytes of the file. -/
def bytes (j : Journal) : List UInt8 :=
  j.content.getD []

theorem bytes_append (j : Journal) (bs : List UInt8) : (j.append bs).bytes = j.bytes ++ bs :=
  rfl

theorem writeEach_cons (j : Journal) (r : Record) (rs : List Record) :
    j.writeEach (r :: rs) = (match j.write r with
      | .ok j => j
      | .error _ => j).writeEach rs :=
  rfl

theorem write_of_line {cs : List Char} (h : r.line = .ok cs) (j : Journal) :
    j.write r = .ok (j.append (Text.utf8Bytes cs)) := by
  rw [write, h]
  rfl

theorem write_error {fault : WriteFault} (h : r.line = .error fault) (j : Journal) :
    j.write r = .error fault := by
  rw [write, h]
  rfl

/-- The records that can be written. -/
def written (rs : List Record) : List Record :=
  rs.filter (·.line.isOk)

theorem written_cons_of_pos (h : r.line.isOk) (rs : List Record) :
    written (r :: rs) = r :: written rs :=
  List.filter_cons_of_pos h

theorem written_cons_of_neg (h : ¬ r.line.isOk) (rs : List Record) :
    written (r :: rs) = written rs :=
  List.filter_cons_of_neg h

theorem isOk_of_mem_written (h : r ∈ written rs) : r.line.isOk :=
  (List.mem_filter.mp h).2

/-- The text of the line of a record. -/
def lineText (r : Record) : List Char :=
  match r.toJson.sorted.compact with
  | .ok l => l
  | .error _ => []

theorem line_of_isOk (h : r.line.isOk) : r.line = .ok (lineText r ++ ['\n']) := by
  cases hline : r.line with
  | error fault =>
      rw [hline] at h
      cases h
  | ok cs =>
      obtain ⟨l, rfl, hl, _⟩ := Record.exists_of_line hline
      rw [lineText, hl]

/-- **Writing puts a line for each record at the end of the file.** -/
theorem bytes_writeEach_eq (rs : List Record) (j : Journal) :
    (j.writeEach rs).bytes =
        j.bytes ++ Text.utf8Bytes (Text.endedLines ((written rs).map lineText)) ∧
      (j.writeEach rs).tailBytes = j.tailBytes := by
  induction rs generalizing j with
  | nil => exact ⟨(List.append_nil _).symm, rfl⟩
  | cons r rs ih =>
      rw [writeEach_cons]
      cases hline : r.line with
      | error fault =>
          have hfailed : ¬ r.line.isOk := by simp [hline, Except.isOk, Except.toBool]
          rw [write_error hline, written_cons_of_neg hfailed]
          exact ih j
      | ok cs =>
          have hok : r.line.isOk := by
            rw [hline]
            rfl
          obtain ⟨hbytes, htail⟩ := ih (j.append (Text.utf8Bytes (lineText r ++ ['\n'])))
          rw [write_of_line (line_of_isOk hok), written_cons_of_pos hok]
          refine ⟨hbytes.trans ?_, htail⟩
          rw [bytes_append, List.append_assoc, ← Text.utf8Bytes_append, List.map_cons,
            Text.endedLines_cons, List.append_assoc, List.singleton_append]

theorem written_of_isPlain (h : ∀ r ∈ rs, r.IsPlain) : written rs = rs.filter (·.IsWritable) := by
  refine List.filter_congr fun r hr => ?_
  by_cases hw : r.IsWritable
  · obtain ⟨l, hl, _⟩ := (h r hr).isStandard.line_ok hw
    rw [hl, decide_eq_true hw]
    rfl
  · obtain ⟨fault, hfault⟩ := Record.line_error hw
    rw [hfault, decide_eq_false hw]
    rfl

/-- Of plain records each one has a line that it is read back from. -/
theorem bytes_writeEach (h : ∀ r ∈ rs, r.IsPlain) (j : Journal) :
    ∃ ls, List.Forall₂ Record.IsLineOf ls (rs.filter (·.IsWritable)) ∧
      (j.writeEach rs).bytes = j.bytes ++ Text.utf8Bytes (Text.endedLines ls) ∧
        (j.writeEach rs).tailBytes = j.tailBytes := by
  refine ⟨(written rs).map lineText, ?_, bytes_writeEach_eq rs j⟩
  rw [← written_of_isPlain h, List.forall₂_map_left_iff, List.forall₂_same]
  intro r hr
  have hmem := (written_of_isPlain h ▸ hr)
  obtain ⟨hrs, hw⟩ := List.mem_filter.mp hmem
  obtain ⟨l, hl, hline⟩ := (h r hrs).isStandard.line_ok (of_decide_eq_true hw)
  have hsame := hl.symm.trans (line_of_isOk (isOk_of_mem_written hr))
  rwa [← List.append_cancel_right (Except.ok.inj hsame)]

/-! ## Reading -/

theorem afterLineFeed_ascii {cs : List Char} (h : ∀ c ∈ cs, c.toNat < 128) :
    afterLineFeed (cs.map Text.asciiByte) =
      ((cs.dropWhile (· ≠ '\n')).drop 1).map Text.asciiByte := by
  induction cs with
  | nil => rfl
  | cons c cs ih =>
      have hc := Text.asciiByte_eq_lineFeed (h c List.mem_cons_self)
      have hrest := ih fun d hd => h d (List.mem_cons_of_mem c hd)
      unfold afterLineFeed at hrest ⊢
      by_cases hne : c = '\n'
      · rw [List.map_cons, List.dropWhile_cons_of_neg (by simpa using hc.mpr hne),
          List.dropWhile_cons_of_neg (by simpa using hne)]
        rfl
      · rw [List.map_cons, List.dropWhile_cons_of_pos (by simpa [hc] using hne),
          List.dropWhile_cons_of_pos (by simpa using hne)]
        exact hrest

theorem ascii_endedLines {ls : List (List Char)} (h : ∀ l ∈ ls, ∀ c ∈ l, IsPrintable c) :
    ∀ c ∈ Text.endedLines ls, c.toNat < 128 := by
  intro c hc
  obtain ⟨l, hl, hc⟩ := List.mem_flatMap.mp hc
  rcases List.mem_append.mp hc with hc | hc
  · exact Nat.lt_of_le_of_lt (h l hl c hc).2 (by decide)
  · exact List.mem_singleton.mp hc ▸ by decide

theorem not_isLineEnd_of_isPrintable {c : Char} (h : IsPrintable c) : ¬ Text.isLineEnd c := by
  obtain ⟨hlow, hhigh⟩ := h
  simp only [Text.isLineEnd, Bool.or_eq_true, Bool.and_eq_true, decide_eq_true_eq, beq_iff_eq]
  omega

/-- Where the part of the file starts that is read. -/
def start (j : Journal) : Nat :=
  (j.bytes.length - j.tailBytes).toNat

/-- How many lines of a file are left out when it is read: those that start in front of the part
that is read or with it, unless this is the whole file. -/
def linesCut (j : Journal) (ls : List (List Char)) : Nat :=
  if j.start = 0 then 0 else Text.startsUpTo ls j.start

/-- The end of a file of printable lines is its last lines. -/
theorem decode_tail {ls : List (List Char)} (h : ∀ l ∈ ls, ∀ c ∈ l, IsPrintable c)
    (hbytes : j.bytes = Text.utf8Bytes (Text.endedLines ls)) :
    Text.utf8Decode j.tail = Text.endedLines (ls.drop (j.linesCut ls)) := by
  have hascii := ascii_endedLines h
  have hnone : ∀ l ∈ ls, '\n' ∉ l := fun l hl hc => absurd (h l hl _ hc) (by decide)
  rw [Text.utf8Bytes_ascii hascii] at hbytes
  by_cases hstart : j.start = 0
  · have htail : j.tail = j.bytes := if_pos hstart
    rw [htail, hbytes, Text.utf8Decode_ascii hascii, linesCut, if_pos hstart, List.drop_zero]
  · have htail : j.tail = afterLineFeed (j.bytes.drop j.start) := if_neg hstart
    rw [linesCut, if_neg hstart]
    generalize j.start = start at htail
    have hcut : ∀ c ∈ (Text.endedLines ls).drop start, c.toNat < 128 := fun c hc =>
      hascii c (List.mem_of_mem_drop hc)
    have hlast := ascii_endedLines fun l hl =>
      h l (List.mem_of_mem_drop (i := Text.startsUpTo ls start) hl)
    rw [htail, hbytes, ← List.map_drop, afterLineFeed_ascii hcut,
      Text.drop_dropWhile_drop hnone, Text.utf8Decode_ascii hlast]

/-- Lines that each hold an object are read as these objects. -/
theorem mapM_objectOfLine {ls : List (List Char)} {vs : List Json}
    (h : List.Forall₂ Record.IsLine ls vs) :
    List.filterMap id <$> ls.mapM objectOfLine = .ok vs := by
  induction h with
  | nil => rfl
  | cons hl _ ih =>
      rw [filterMap_mapM_cons, hl.2, ih]
      rfl

/-- **The records of a file of lines are the objects that its last lines hold.** -/
theorem records_of_isLine {ls : List (List Char)} {vs : List Json}
    (h : List.Forall₂ Record.IsLine ls vs)
    (hbytes : j.bytes = Text.utf8Bytes (Text.endedLines ls)) :
    j.records = .ok (vs.drop (j.linesCut ls)) := by
  have hprintable := left_of_forall₂ h fun _ _ hl => hl.1
  have hends : ∀ l ∈ ls.drop (j.linesCut ls), ∀ c ∈ l, ¬ Text.isLineEnd c := fun l hl c hc =>
    not_isLineEnd_of_isPrintable (hprintable l (List.mem_of_mem_drop hl) c hc)
  rw [records, decode_tail hprintable hbytes, Text.lines_endedLines hends]
  exact (map_eq_pure_bind _ _).symm.trans (mapM_objectOfLine (List.forall₂_drop _ h))

theorem records_of_lines {ls : List (List Char)} (h : List.Forall₂ Record.IsLineOf ls rs)
    (hbytes : j.bytes = Text.utf8Bytes (Text.endedLines ls)) :
    ∃ m, j.records = .ok ((rs.drop m).map fun r => r.toJson.sorted) ∧
      ((j.bytes.length : Int) ≤ j.tailBytes → m = 0) := by
  have hvalues : List.Forall₂ Record.IsLine ls (rs.map fun r => r.toJson.sorted) :=
    List.forall₂_map_right_iff.mpr h
  refine ⟨_, (records_of_isLine hvalues hbytes).trans (by rw [List.map_drop]), fun hle => ?_⟩
  exact if_pos (Int.toNat_eq_zero.mpr (by omega))

/-- Newest first, the records that are sought among those at the end of the file. -/
theorem read_of_records (h : j.records = .ok (rs.map fun r => r.toJson.sorted))
    (level topic : Option String) (n : Nat) : j.read level topic n =
      .ok (((rs.reverse.filter (·.isSought level topic)).take n).map fun r => r.toJson.sorted) := by
  have hfilter : (rs.map fun r => r.toJson.sorted).filter (fun v =>
      hasField "level" level v && hasField "event_type" topic v) =
        (rs.filter (·.isSought level topic)).map fun r => r.toJson.sorted := by
    rw [List.filter_map]
    refine congrArg _ (List.filter_congr fun r _ => ?_)
    exact Record.hasField_eq_isSought level topic r
  unfold read
  rw [h]
  show Except.ok (takeUpTo n (List.filter _ _).reverse) = _
  rw [hfilter, takeUpTo, if_neg (by omega), Int.toNat_natCast, ← List.map_reverse, ← List.map_take,
    List.filter_reverse]

/-- **What is written to a fresh journal is read back.**  A read gives the newest of the records
that were written, each of them whole and its own, the newest one first: all of them if the file is
no longer than what is read of it.  A level, a topic and a limit select among these. -/
theorem read_writeEach (j : Journal) (hfresh : j.content = none) (h : ∀ r ∈ rs, r.IsPlain) :
    ∃ recent, recent <:+ rs.filter (·.IsWritable) ∧
      (((j.writeEach rs).bytes.length : Int) ≤ j.tailBytes →
        recent = rs.filter (·.IsWritable)) ∧
      (∀ level topic (n : Nat), (j.writeEach rs).read level topic n =
        .ok (((recent.reverse.filter (·.isSought level topic)).take n).map fun r =>
          r.toJson.sorted)) ∧
      ∀ r ∈ recent, Same r.toJson r.toJson.sorted ∧
        r.toJson.get? "context" = some (.object r.event.context) := by
  obtain ⟨ls, hls, hbytes, htail⟩ := bytes_writeEach h j
  have hempty : j.bytes = [] := by rw [bytes, hfresh, Option.getD_none]
  rw [hempty, List.nil_append] at hbytes
  obtain ⟨m, hrecords, hall⟩ := records_of_lines hls hbytes
  refine ⟨_, List.drop_suffix m _, fun hle => ?_, read_of_records hrecords, fun r hr => ?_⟩
  · rw [hall (htail ▸ hle), List.drop_zero]
  · obtain ⟨hmem, hw⟩ := List.mem_filter.mp (List.mem_of_mem_drop hr)
    have hplain := h r hmem
    have hcontext : Json.entry "context" (.object r.event.context) ∈ r.entries := by
      simp [Record.entries, Event.fields, hplain.context.withoutNonFinite]
    exact ⟨(hplain.toJson (of_decide_eq_true hw).2).same_sorted, Record.get?_toJson hcontext⟩

/-- A record of a cycle, with text in its context that has to be escaped. -/
def cycleRecord : Record where
  time := CodePoint.ofString "2024-05-01T10:00:00.000000Z"
  event := event .warning .cycleDetected "cycle"
    [Json.entry "path" (.array [.ofString "A1", .null]), Json.entry "note" (.ofString "𝑥\n\"")] none

/-- A record of a failed cell. -/
def failureRecord : Record where
  time := CodePoint.ofString "2024-05-01T10:00:01.000000Z"
  event := event .error .cellError "failed" [Json.entry "code" (.ofInt (-7))] (some "reference")

theorem isPlain_cycleRecord : cycleRecord.IsPlain where
  time := CodePoint.isText_ofString _
  message := CodePoint.isText_ofString _
  errorCode _ h := by cases h
  context := by
    have hpath : (Json.array [.ofString "A1", .null]).IsPlain :=
      .array (by simp [IsPlain.ofString, IsPlain.null])
    refine .object (by decide +kernel) ?_ ?_
    · simp [cycleRecord, event, Json.entry, CodePoint.isText_ofString]
    · simp [cycleRecord, event, Json.entry, hpath, IsPlain.ofString]

theorem isPlain_failureRecord : failureRecord.IsPlain where
  time := CodePoint.isText_ofString _
  message := CodePoint.isText_ofString _
  errorCode s h := Option.some.inj h ▸ CodePoint.isText_ofString _
  context := by
    have hcode : (Json.ofInt (-7)).IsPlain := .int (by decide +kernel)
    refine .object (by decide +kernel) ?_ ?_
    · simp [failureRecord, event, Json.entry, CodePoint.isText_ofString]
    · simp [failureRecord, event, Json.entry, hcode]

/-- A fresh journal of which 600 bytes are read. -/
def freshJournal : Journal :=
  ⟨none, 600⟩

/-- Two records that take up less than 600 bytes are both read back, the newer one first. -/
theorem read_freshJournal :
    freshJournal.content = none ∧ (∀ r ∈ [cycleRecord, failureRecord], r.IsPlain) ∧
      (freshJournal.writeEach [cycleRecord, failureRecord]).read none none (5 : Nat) =
        .ok [failureRecord.toJson.sorted, cycleRecord.toJson.sorted] := by
  have hplain : ∀ r ∈ [cycleRecord, failureRecord], r.IsPlain := by
    simp [isPlain_cycleRecord, isPlain_failureRecord]
  have hkept : [cycleRecord, failureRecord].filter (·.IsWritable) =
      [cycleRecord, failureRecord] := by
    refine List.filter_eq_self.mpr ?_
    simp only [List.forall_mem_cons, List.not_mem_nil, false_implies, implies_true, and_true]
    decide +kernel
  have hfits : ((freshJournal.writeEach [cycleRecord, failureRecord]).bytes.length : Int) ≤
      freshJournal.tailBytes := by decide +kernel
  obtain ⟨recent, _, hall, hread, _⟩ := read_writeEach freshJournal rfl hplain
  obtain rfl := (hall hfits).trans hkept
  exact ⟨rfl, hplain, hread none none 5⟩

end Journal

end Log

end Worksheet
