import Worksheet.Proofs.Journal
import Worksheet.Proofs.JsonFaults
import Worksheet.Proofs.LineBreaks

/-!
# Damaged journals

A line that holds no JSON object is passed over, whatever it holds, and the lines around it are read
all the same.  Only two kinds of line stop a read altogether: one with an integer of too many digits,
and one that nests too deeply.
-/

namespace Worksheet.Log.Journal

open Json

/-- The lines that the bytes of a file are read as. -/
def linesOf (bytes : List UInt8) : List (List Char) :=
  Text.lines (Text.utf8Decode bytes)

/-- The JSON object that a line holds, if it holds one. -/
def objectIn? (line : List Char) : Option Json :=
  match Json.read line with
  | .ok v => if v.isObject then some v else none
  | .error _ => none

/-- The JSON objects in the lines of a file, oldest first. -/
def objectsIn (bytes : List UInt8) : List Json :=
  (linesOf bytes).filterMap objectIn?

/-- Whether reading a line comes to a value or finds out that it is no JSON. -/
def IsReadable (line : List Char) : Prop :=
  ∀ fault, Json.read line = .error fault → fault = .malformed

instance (line : List Char) : Decidable (IsReadable line) :=
  match h : Json.read line with
  | .ok _ => isTrue fun fault hfault => by cases h.symm.trans hfault
  | .error .malformed => isTrue fun fault hfault => (Except.error.inj (h.symm.trans hfault)).symm
  | .error (.integerTooLong _) => isFalse fun hreadable => by cases hreadable _ h
  | .error .tooDeep => isFalse fun hreadable => by cases hreadable _ h

/-- Whether a value is of a level and a topic, as far as they are asked for. -/
def isSought (level topic : Option String) (v : Json) : Bool :=
  hasField "level" level v && hasField "event_type" topic v

variable {j : Journal} {line : List Char}

/-! ## One line -/

theorem objectOfLine_of_isReadable (h : IsReadable line) :
    objectOfLine line = .ok (objectIn? line) := by
  unfold objectOfLine objectIn?
  cases hread : Json.read line with
  | ok v => rfl
  | error fault =>
      obtain rfl := h fault hread
      rfl

theorem isReadable_of_objectOfLine {o : Option Json} (h : objectOfLine line = .ok o) :
    IsReadable line := by
  intro fault hread
  unfold objectOfLine at h
  rw [hread] at h
  cases fault with
  | malformed => rfl
  | integerTooLong | tooDeep => cases h

/-- A line that stops a read holds too long an integer or too many brackets. -/
theorem of_not_isReadable (h : ¬ IsReadable line) :
    (∃ digits, digits <:+: line ∧ Number.maxDigits < digits.length ∧ ∀ c ∈ digits, c.isDigit) ∨
      maxDepth < line.countP isOpening := by
  obtain ⟨fault, hfault⟩ := not_forall.mp h
  obtain ⟨hread, hne⟩ := Classical.not_imp.mp hfault
  exact read_error hread hne

theorem objectIn?_nil : objectIn? [] = none := by
  have hread : Json.read [] = .error .malformed := by
    rw [Json.read, tokens, List.dropWhile_nil]
    rfl
  rw [objectIn?, hread]

/-! ## The whole file -/

/-- **What is between two line feeds does not affect what is before and after them.** -/
theorem objectsIn_append (before after : List UInt8) :
    objectsIn (before ++ 10 :: after) = objectsIn before ++ objectsIn after := by
  have hbreak : Text.BreaksBetween (Text.utf8Decode before ++ ['\n']) (Text.utf8Decode after) :=
    ⟨⟨'\n', by simp, by decide⟩, by simp⟩
  have hends : (Text.lines (Text.utf8Decode before ++ ['\n'])).filterMap objectIn? =
      (Text.lines (Text.utf8Decode before)).filterMap objectIn? := by
    rcases Text.splitLines_concat [] (Text.utf8Decode before) with h | h
    · exact congrArg _ h
    · rw [Text.lines, h, List.filterMap_append, List.filterMap_cons_none objectIn?_nil,
        List.filterMap_nil, List.append_nil]
      rfl
  rw [objectsIn, linesOf, Text.utf8Decode_lineFeed, List.append_cons, Text.lines_append hbreak,
    List.filterMap_append, hends]
  rfl

theorem records_of_fits (h : (j.bytes.length : Int) ≤ j.tailBytes) :
    j.records = List.filterMap id <$> (linesOf j.bytes).mapM objectOfLine := by
  have htail : j.tail = j.bytes := if_pos (Int.toNat_eq_zero.mpr (by simpa [bytes] using h))
  rw [records, htail]
  exact (map_eq_pure_bind _ _).symm

/-- Where every line can be read, the records are the objects in the lines. -/
theorem mapM_objectOfLine_of_isReadable {ls : List (List Char)} (h : ∀ l ∈ ls, IsReadable l) :
    List.filterMap id <$> ls.mapM objectOfLine = .ok (ls.filterMap objectIn?) := by
  rw [mapM_congr fun l hl => objectOfLine_of_isReadable (h l hl)]
  exact filterMap_mapM_ok ls

theorem isReadable_of_mapM {ls : List (List Char)} {os : List (Option Json)}
    (h : ls.mapM objectOfLine = .ok os) : ∀ l ∈ ls, IsReadable l := by
  induction ls generalizing os with
  | nil => simp
  | cons l ls ih =>
      rw [List.mapM_cons] at h
      obtain ⟨o, hl, hrest⟩ := exists_of_bind h
      obtain ⟨os', hls, _⟩ := exists_of_bind hrest
      exact List.forall_mem_cons.mpr ⟨isReadable_of_objectOfLine hl, ih hls⟩

/-- The records of a file can be read if every line of it can. -/
theorem records_eq_ok_iff (h : (j.bytes.length : Int) ≤ j.tailBytes) {vs : List Json} :
    j.records = .ok vs ↔ (∀ line ∈ linesOf j.bytes, IsReadable line) ∧ objectsIn j.bytes = vs := by
  rw [records_of_fits h]
  constructor
  · intro hvs
    have hreadable : ∀ line ∈ linesOf j.bytes, IsReadable line := by
      cases hos : (linesOf j.bytes).mapM objectOfLine with
      | error fault =>
          rw [hos] at hvs
          cases hvs
      | ok os => exact isReadable_of_mapM hos
    rw [mapM_objectOfLine_of_isReadable hreadable] at hvs
    exact ⟨hreadable, Except.ok.inj hvs⟩
  · rintro ⟨hreadable, rfl⟩
    exact mapM_objectOfLine_of_isReadable hreadable

theorem read_of_records_ok {vs : List Json} (h : j.records = .ok vs) (level topic : Option String)
    {limit : Int} (hlimit : (vs.length : Int) ≤ limit) :
    j.read level topic limit = .ok (vs.filter (isSought level topic)).reverse := by
  have hlength := (vs.filter_sublist (p := isSought level topic)).length_le
  unfold read
  rw [h]
  show Except.ok (takeUpTo limit (vs.filter (isSought level topic)).reverse) = _
  rw [takeUpTo, if_neg (by omega), List.take_of_length_le (by rw [List.length_reverse]; omega)]

/-- Every value is sought where neither a level nor a topic is asked for. -/
theorem filter_isSought_none (vs : List Json) : vs.filter (isSought none none) = vs :=
  List.filter_eq_self.mpr fun _ _ => rfl

theorem exists_records_of_read {level topic : Option String} {limit : Int} {found : List Json}
    (h : j.read level topic limit = .ok found) : ∃ vs, j.records = .ok vs := by
  unfold read at h
  obtain ⟨vs, hvs, _⟩ := exists_of_bind h
  exact ⟨vs, hvs⟩

theorem linesOf_endedLines {ls : List (List Char)} (h : ∀ l ∈ ls, ∀ c ∈ l, IsPrintable c) :
    linesOf (Text.utf8Bytes (Text.endedLines ls)) = ls := by
  have hascii := ascii_endedLines h
  rw [linesOf, Text.utf8Bytes_ascii hascii, Text.utf8Decode_ascii hascii,
    Text.lines_endedLines fun l hl c hc => not_isLineEnd_of_isPrintable (h l hl c hc)]

theorem length_endedLines {ls : List (List Char)} (h : ∀ l ∈ ls, ∀ c ∈ l, IsPrintable c) :
    (Text.utf8Bytes (Text.endedLines ls)).length = (Text.endedLines ls).length := by
  rw [Text.utf8Bytes_ascii (ascii_endedLines h), List.length_map]

/-- The first line that cannot be read stops the read. -/
theorem read_of_objectOfLine_error (hfits : (j.bytes.length : Int) ≤ j.tailBytes)
    {front back : List (List Char)} {l : List Char} (hlines : linesOf j.bytes = front ++ l :: back)
    (hfront : ∀ l ∈ front, IsReadable l) {fault : Fault} (hfault : objectOfLine l = .error fault)
    (level topic : Option String) (limit : Int) : j.read level topic limit = .error fault := by
  obtain ⟨os, hos⟩ : ∃ os, front.mapM objectOfLine = .ok os :=
    mapM_ok fun l hl => ⟨_, objectOfLine_of_isReadable (hfront l hl)⟩
  have hmap : (front ++ l :: back).mapM objectOfLine = .error fault := by
    rw [List.mapM_append, hos, List.mapM_cons, hfault]
    rfl
  rw [read, records_of_fits hfits, hlines, hmap]
  rfl

theorem eq_ok_nil {outcome : Except Fault (List Json)}
    (h : outcome.toOption.map List.length = some 0) : outcome = .ok [] := by
  cases outcome with
  | error => cases h
  | ok found => rw [List.eq_nil_of_length_eq_zero (Option.some.inj h)]

/-- **A damaged file is read but for integers that are too long and values that are too deep.**
Where each of its lines can be read, a read gives the JSON objects among the lines that are sought,
newest first, and fails otherwise.  A line that cannot be read has too many digits in a row or too
many brackets.  What stands between two line feeds does not affect the lines around it. -/
theorem read_damaged (hfits : (j.bytes.length : Int) ≤ j.tailBytes) (level topic : Option String)
    {limit : Int} (hlimit : ((linesOf j.bytes).length : Int) ≤ limit) :
    ((∃ found, j.read level topic limit = .ok found) ↔
        ∀ line ∈ linesOf j.bytes, IsReadable line) ∧
      (∀ found, j.read level topic limit = .ok found →
        found = ((objectsIn j.bytes).filter (isSought level topic)).reverse) ∧
      (∀ line ∈ linesOf j.bytes, ¬ IsReadable line →
        (∃ digits, digits <:+: line ∧ Number.maxDigits < digits.length ∧
          ∀ c ∈ digits, c.isDigit) ∨ maxDepth < line.countP isOpening) ∧
      ∀ before after, objectsIn (before ++ 10 :: after) = objectsIn before ++ objectsIn after := by
  have hlength : ((objectsIn j.bytes).length : Int) ≤ limit := by
    have := List.length_filterMap_le objectIn? (linesOf j.bytes)
    rw [objectsIn]
    omega
  have hread : (∀ line ∈ linesOf j.bytes, IsReadable line) → j.read level topic limit =
      .ok ((objectsIn j.bytes).filter (isSought level topic)).reverse := fun hreadable =>
    read_of_records_ok ((records_eq_ok_iff hfits).mpr ⟨hreadable, rfl⟩) level topic hlength
  have hreadable : ∀ found, j.read level topic limit = .ok found →
      ∀ line ∈ linesOf j.bytes, IsReadable line := fun found hfound => by
    obtain ⟨vs, hvs⟩ := exists_records_of_read hfound
    exact ((records_eq_ok_iff hfits).mp hvs).1
  refine ⟨⟨fun ⟨found, hfound⟩ => hreadable found hfound, fun h => ⟨_, hread h⟩⟩,
    fun found hfound => ?_, fun line _ => of_not_isReadable, objectsIn_append⟩
  exact Except.ok.inj (hfound.symm.trans (hread (hreadable found hfound)))

/-- A file that starts with a line that is cut off and holds a byte of no text, followed by an array
and an object. -/
def damagedFile : Journal :=
  ⟨some (0x7b :: 0xff :: 10 :: Text.utf8Bytes "[1]\n\x7b\"level\": \"info\"\x7d\n".toList), 100⟩

/-- The object is read from between the damaged lines. -/
theorem read_damagedFile :
    (damagedFile.bytes.length : Int) ≤ damagedFile.tailBytes ∧
      ((linesOf damagedFile.bytes).length : Int) ≤ 3 ∧
      ∃ found, damagedFile.read (some "info") none 3 = .ok found ∧ found.length = 1 := by
  have hfits : (damagedFile.bytes.length : Int) ≤ damagedFile.tailBytes := by decide +kernel
  have hlimit : ((linesOf damagedFile.bytes).length : Int) ≤ 3 := by decide +kernel
  obtain ⟨hread, hfound, _⟩ := read_damaged hfits (some "info") none hlimit
  obtain ⟨found, hok⟩ := hread.mpr (by decide +kernel)
  refine ⟨hfits, hlimit, found, hok, ?_⟩
  rw [hfound found hok]
  decide +kernel

/-- A file that holds an integer of 4301 digits. -/
def overlongFile : Journal :=
  ⟨some (Text.utf8Bytes (List.replicate 4301 '1' ++ ['\n'])), defaultTailBytes⟩

/-- A record of the start of a recalculation. -/
def startedRecord : Record where
  time := CodePoint.ofString "2024-01-01T00:00:00.000000Z"
  event := event .info .recalcStarted "m" [] none

theorem isStandard_startedRecord : startedRecord.IsStandard where
  time := CodePoint.isText_ofString _
  message := CodePoint.isText_ofString _
  errorCode _ h := by cases h
  context := .object List.nodup_nil nofun nofun

/-- A line with too long an integer keeps the record after it from being read. -/
theorem read_overlongFile : ∃ j, overlongFile.write startedRecord = .ok j ∧
    (j.bytes.length : Int) ≤ j.tailBytes ∧ ((linesOf j.bytes).length : Int) ≤ 2 ∧
      j.read none none 2 = .error (.integerTooLong 4301) := by
  have hline := line_of_isOk (r := startedRecord) (by decide +kernel)
  have hlength : (lineText startedRecord).length ≤ 1000 := by decide +kernel
  obtain ⟨digits, hdigits, hcount⟩ : ∃ digits : List Char,
      List.replicate 4301 '1' = '1' :: digits ∧ digits.length = 4300 :=
    ⟨List.replicate 4300 '1', List.replicate_succ, List.length_replicate⟩
  have hdigit : ∀ c ∈ '1' :: digits, c.isDigit := fun c hc =>
    (List.mem_replicate.mp (hdigits ▸ hc)).2 ▸ by decide
  have hfault : objectOfLine ('1' :: digits) = .error (.integerTooLong 4301) := by
    rw [objectOfLine, read_longInteger (by decide) hdigit (by rw [List.length_cons, hcount]; decide),
      List.length_cons, hcount]
  have hprintable : ∀ l ∈ ['1' :: digits, lineText startedRecord], ∀ c ∈ l, IsPrintable c :=
    List.forall_mem_cons.mpr ⟨fun c hc => isPrintable_of_isDigit (hdigit c hc),
      List.forall_mem_singleton.mpr (isStandard_startedRecord.isProper.isLine hline).2.1⟩
  have hbytes : (overlongFile.append (Text.utf8Bytes (lineText startedRecord ++ ['\n']))).bytes =
      Text.utf8Bytes (Text.endedLines ['1' :: digits, lineText startedRecord]) := by
    have hlines : Text.endedLines ['1' :: digits, lineText startedRecord] =
        (List.replicate 4301 '1' ++ ['\n']) ++ (lineText startedRecord ++ ['\n']) := by
      rw [hdigits]
      simp [Text.endedLines]
    rw [hlines, bytes_append, bytes, overlongFile, Option.getD_some, ← Text.utf8Bytes_append]
  have hfits : ((overlongFile.append (Text.utf8Bytes (lineText startedRecord ++ ['\n']))).bytes.length
      : Int) ≤ defaultTailBytes := by
    have hnil : (Text.endedLines []).length = 0 := rfl
    rw [hbytes, length_endedLines hprintable, Text.length_endedLines_cons,
      Text.length_endedLines_cons, List.length_cons, hcount, hnil, defaultTailBytes]
    omega
  have hlines : linesOf (overlongFile.append (Text.utf8Bytes (lineText startedRecord ++ ['\n']))).bytes =
      [] ++ ('1' :: digits) :: [lineText startedRecord] :=
    (congrArg linesOf hbytes).trans (linesOf_endedLines hprintable)
  refine ⟨_, write_of_line hline overlongFile, hfits, ?_,
    read_of_objectOfLine_error hfits hlines (List.forall_mem_nil _) hfault none none 2⟩
  rw [hlines]
  exact Int.le_refl 2

end Worksheet.Log.Journal
