import Worksheet.Calendar.IsoText
import Worksheet.Calendar.Moment
import Worksheet.Proofs.Calendar
import Worksheet.Proofs.Integers
import Worksheet.Text.Blank
import Mathlib.Data.String.Basic

/-!
# Dates are read back from their text

A date is written with a number of digits that is fixed for each of its parts, and its text is read
as that date.  A point in time is written as its date, a time of day and the sign of universal time,
and the date is read back from that as well.  Only the year is written without zeros in front here,
and what is shorter than four digits is read as no year.
-/

namespace Worksheet

/-! ## Texts without blanks -/

namespace Text

/-- A text without blanks has none around it. -/
theorem trimBlanks_eq_self {cs : List Char} (h : ∀ c ∈ cs, isBlank c = false) :
    trimBlanks cs = cs := by
  have hkeeps : ∀ l : List Char, (∀ c ∈ l, isBlank c = false) → l.dropWhile isBlank = l := by
    intro l hl
    cases l with
    | nil => rfl
    | cons c l => rw [List.dropWhile_cons_of_neg (by simp [hl c List.mem_cons_self])]
  unfold trimBlanks trimRight
  rw [hkeeps cs h, hkeeps cs.reverse fun c hc => h c (List.mem_reverse.mp hc), List.reverse_reverse]

theorem not_isBlank_of_isDigit {c : Char} (h : c.isDigit) : isBlank c = false := by
  have := Address.isDigit_iff.mp h
  refine Bool.eq_false_iff.mpr fun hblank => ?_
  simp only [isBlank, Bool.or_eq_true, Bool.and_eq_true, decide_eq_true_eq, beq_iff_eq] at hblank
  omega

end Text

/-! ## Numbers of a fixed width -/

namespace Date

variable {n width : Nat}

theorem isDigit_of_mem_padded {c : Char} (h : c ∈ padded width n) : c.isDigit := by
  rcases List.mem_append.mp h with h | h
  · rw [List.eq_of_mem_replicate h]
    decide
  · exact Decimal.isDigit_of_mem_digitChars c h

theorem length_padded (hwidth : 0 < width) (h : n < 10 ^ width) : (padded width n).length = width := by
  have hle : (Decimal.digitChars n).length ≤ width :=
    (Nat.length_toDigits_le_iff (by decide) hwidth).mpr h
  unfold padded Decimal.zeros
  rw [List.length_append, List.length_replicate]
  omega

theorem padded_cons (hwidth : 0 < width) (h : n < 10 ^ width) :
    ∃ c cs, padded width n = c :: cs ∧ c.isDigit := by
  have hlength := length_padded hwidth h
  cases he : padded width n with
  | nil =>
      rw [he, List.length_nil] at hlength
      omega
  | cons c cs => exact ⟨c, cs, rfl, isDigit_of_mem_padded (he ▸ List.mem_cons_self)⟩

/-- A number with enough digits of its own needs no zeros. -/
theorem padded_of_le (hwidth : 0 < width) (h : 10 ^ width ≤ n) :
    padded (width + 1) n = Decimal.digitChars n := by
  have hlt : width < (Decimal.digitChars n).length := by
    refine Nat.not_le.mp fun hle => ?_
    exact absurd ((Nat.length_toDigits_le_iff (by decide) hwidth).mp hle) (Nat.not_lt.mpr h)
  unfold padded
  dsimp only
  rw [Nat.sub_eq_zero_of_le (Nat.succ_le_of_lt hlt)]
  rfl

theorem ofDigitChars_padded : Nat.ofDigitChars 10 (padded width n) 0 = n := by
  have hzeros : ∀ k, Nat.ofDigitChars 10 (Decimal.zeros k) 0 = 0 := fun k => by
    induction k with
    | zero => rfl
    | succ k ih => exact ih
  unfold padded
  rw [Nat.ofDigitChars_append, hzeros]
  exact Nat.ofDigitChars_ten_toDigits

/-! The parts of a date have four digits, two and two. -/

theorem year_lt (d : Date) : d.year < 10 ^ 4 :=
  Nat.lt_succ_of_le d.year_le

theorem month_lt (d : Date) : d.month < 10 ^ 2 :=
  Nat.lt_of_le_of_lt d.month_le (by decide)

theorem day_lt (d : Date) : d.day < 10 ^ 2 :=
  Nat.lt_of_le_of_lt (Nat.le_trans d.day_le (daysInMonth_le _ _)) (by decide)

end Date

namespace IsoText

open Date

variable {n width : Nat}

theorem digits?_append {ds : List Char} (h : ∀ c ∈ ds, c.isDigit) (n : Nat) (rest : List Char) :
    digits? ds.length n (ds ++ rest) = some (Nat.ofDigitChars 10 ds n, rest) := by
  induction ds generalizing n with
  | nil => rfl
  | cons c ds ih =>
      rw [List.length_cons, List.cons_append, digits?, if_pos (h c List.mem_cons_self),
        ih fun c hc => h c (List.mem_cons_of_mem _ hc)]
      rfl

/-- **A number of a fixed width is read back.** -/
theorem digits?_padded (hwidth : 0 < width) (h : n < 10 ^ width) (rest : List Char) :
    digits? width 0 (padded width n ++ rest) = some (n, rest) := by
  have hread : digits? (padded width n).length 0 (padded width n ++ rest) =
      some (Nat.ofDigitChars 10 (padded width n) 0, rest) :=
    digits?_append (fun c hc => isDigit_of_mem_padded hc) 0 rest
  rwa [length_padded hwidth h, ofDigitChars_padded] at hread

/-- There are not enough digits where there is a place without one. -/
theorem digits?_eq_none {count i : Nat} {cs : List Char} (hi : i < count)
    (h : ∀ c, cs[i]? = some c → c.isDigit = false) (n : Nat) : digits? count n cs = none := by
  induction count generalizing i n cs with
  | zero => omega
  | succ count ih =>
      cases cs with
      | nil => rfl
      | cons c cs =>
          rw [digits?]
          split
          · next hc =>
              cases i with
              | zero => rw [h c rfl] at hc; cases hc
              | succ i => exact ih (Nat.lt_of_succ_lt_succ hi) h _
          · rfl

/-! ## Dates -/

/-- A date is read back, whatever follows it. -/
theorem datePart?_isoChars (d : Date) (rest : List Char) :
    datePart? (d.isoChars ++ rest) = some d := by
  have hyear := d.year_lt
  have hmonth := d.month_lt
  have hday := d.day_lt
  have htext : d.isoChars ++ rest = padded 4 d.year ++
      '-' :: (padded 2 d.month ++ '-' :: (padded 2 d.day ++ rest)) := by
    unfold isoChars
    simp only [List.append_assoc, List.cons_append]
  obtain ⟨c, cs, hc, hdigit⟩ := padded_cons (by decide) hmonth
  have hmonthRead := digits?_padded (by decide) hmonth ('-' :: (padded 2 d.day ++ rest))
  rw [hc, List.cons_append] at hmonthRead
  unfold datePart?
  rw [htext, digits?_padded (by decide) hyear, hc, List.cons_append]
  simp only [bind, Option.bind]
  split
  · next hW =>
      obtain ⟨rfl, -⟩ := List.cons.inj hW
      cases hdigit
  · rw [hmonthRead]
    simp only [hyphen?, if_true]
    rw [digits?_padded (by decide) hday]
    exact ofParts?_date d

theorem utf8ByteSize_of_ascii {cs : List Char} (h : ∀ c ∈ cs, c.toNat < 128) :
    (String.ofList cs).utf8ByteSize = cs.length := by
  rw [String.utf8ByteSize_ofList]
  induction cs with
  | nil => rfl
  | cons c cs ih =>
      have hsize : c.utf8Size = 1 := by
        have := h c List.mem_cons_self
        rw [Char.utf8Size_eq_one_iff, UInt32.le_iff_toNat_le]
        exact Nat.le_of_lt_succ this
      rw [String.utf8Len_cons, ih fun c hc => h c (List.mem_cons_of_mem _ hc), hsize]
      rfl

/-- What is in the text of a date: digits and hyphens. -/
theorem mem_isoChars {d : Date} {c : Char} (h : c ∈ d.isoChars) : c.isDigit ∨ c = '-' := by
  unfold isoChars at h
  simp only [List.mem_append, List.mem_cons] at h
  rcases h with h | h | h | h | h
  · exact .inl (isDigit_of_mem_padded h)
  · exact .inr h
  · exact .inl (isDigit_of_mem_padded h)
  · exact .inr h
  · exact .inl (isDigit_of_mem_padded h)

theorem length_isoChars (d : Date) : d.isoChars.length = 10 := by
  unfold isoChars
  rw [List.length_append, List.length_cons, List.length_append, List.length_cons,
    length_padded (by decide) d.year_lt, length_padded (by decide) d.month_lt,
    length_padded (by decide) d.day_lt]

/-- **A date is read back from its text.** -/
theorem read?_isoChars (d : Date) : read? d.isoChars = some d := by
  have hascii : ∀ c ∈ d.isoChars, c.toNat < 128 := fun c hc => by
    rcases mem_isoChars hc with h | rfl
    · have := Address.isDigit_iff.mp h
      omega
    · decide
  have hread := datePart?_isoChars d []
  rw [List.append_nil] at hread
  unfold read? date?
  dsimp only
  rw [utf8ByteSize_of_ascii hascii, length_isoChars, if_pos (by decide), hread]
  rfl

/-! ## Times of day -/

section Clock

variable {parts : Nat} {colons : Option Bool} {read : List Nat} {c : Char} {rest : List Char}

/-- A part of a time is followed by a colon and the other parts. -/
theorem clockParts?_colon (hn : n < 10 ^ 2) (hcolons : colons.getD true = true) :
    clockParts? (parts + 1) colons read (padded 2 n ++ ':' :: c :: rest) =
      clockParts? parts (some true) (n :: read) (c :: rest) := by
  rw [clockParts?, digits?_padded (by decide) hn]
  simp [hcolons]

/-- The last part is followed by a point and its fraction. -/
theorem clockParts?_point (hn : n < 10 ^ 2) {microsecond : Nat}
    (hfraction : fraction? (c :: rest) = some (microsecond, .nothing)) :
    clockParts? (parts + 1) colons read (padded 2 n ++ '.' :: c :: rest) =
      some (n :: read, microsecond, .nothing) := by
  rw [clockParts?, digits?_padded (by decide) hn]
  simp [hfraction]

theorem fraction?_padded (hn : n < 10 ^ 3) :
    fraction? (padded 3 n) = some (n * 1000, .nothing) := by
  have hread := digits?_padded (by decide) hn []
  rw [List.append_nil] at hread
  unfold fraction?
  rw [length_padded (by decide) hn]
  simp [hread]

end Clock

end IsoText

namespace Moment

open Date IsoText

variable {m : Moment}

/-- Whether the time of a moment exists on a day. -/
structure OnDay (m : Moment) : Prop where
  hour_lt : m.hour < 24
  minute_lt : m.minute < 60
  second_lt : m.second < 60
  microsecond_lt : m.microsecond < 1000000

/-- The time of day as the text of a moment shows it. -/
def timeChars (m : Moment) : List Char :=
  padded 2 m.hour ++ ':' :: (padded 2 m.minute ++ ':' :: (padded 2 m.second ++
    '.' :: padded 3 (m.microsecond / 1000)))

theorem mem_timeChars {c : Char} (h : c ∈ m.timeChars) : c.isDigit ∨ c = ':' ∨ c = '.' := by
  unfold timeChars at h
  simp only [List.mem_append, List.mem_cons] at h
  rcases h with h | h | h | h | h | h | h
  · exact .inl (isDigit_of_mem_padded h)
  · exact .inr (.inl h)
  · exact .inl (isDigit_of_mem_padded h)
  · exact .inr (.inl h)
  · exact .inl (isDigit_of_mem_padded h)
  · exact .inr (.inr h)
  · exact .inl (isDigit_of_mem_padded h)

/-- The text of a time is read as a time. -/
theorem clock?_timeChars (h : m.OnDay) :
    clock? m.timeChars =
      some (⟨m.hour, m.minute, m.second, m.microsecond / 1000 * 1000⟩, .nothing) := by
  have hhour : m.hour < 10 ^ 2 := by
    have := h.hour_lt
    omega
  have hminute : m.minute < 10 ^ 2 := by
    have := h.minute_lt
    omega
  have hsecond : m.second < 10 ^ 2 := by
    have := h.second_lt
    omega
  have hfraction : m.microsecond / 1000 < 10 ^ 3 := by
    have := h.microsecond_lt
    omega
  obtain ⟨c, cs, hc, -⟩ := padded_cons (by decide) hminute
  obtain ⟨c', cs', hc', -⟩ := padded_cons (by decide) hsecond
  obtain ⟨c'', cs'', hc'', -⟩ := padded_cons (by decide) hfraction
  have hread := fraction?_padded hfraction
  rw [hc''] at hread
  have hclock : clockParts? 3 none [] m.timeChars =
      some ([m.second, m.minute, m.hour], m.microsecond / 1000 * 1000, .nothing) := by
    unfold timeChars
    rw [hc, List.cons_append, clockParts?_colon hhour rfl, ← List.cons_append, ← hc, hc',
      List.cons_append, clockParts?_colon hminute rfl, ← List.cons_append, ← hc', hc'',
      clockParts?_point hsecond hread]
  unfold clock?
  rw [hclock]
  rfl

/-- The text of a time, and that of universal time. -/
theorem isTime_timeChars (h : m.OnDay) : isTime (m.timeChars ++ "+00:00".toList) = true := by
  have hfront : (m.timeChars ++ "+00:00".toList).takeWhile
      (fun c => c != '+' && c != '-' && c != 'Z') = m.timeChars := by
    rw [List.takeWhile_append_of_pos]
    · exact List.append_nil _
    · intro c hc
      rcases mem_timeChars hc with hdigit | rfl | rfl
      · have hne : c ≠ '+' ∧ c ≠ '-' ∧ c ≠ 'Z' := by
          refine ⟨?_, ?_, ?_⟩ <;> rintro rfl <;> cases hdigit
        simp [hne]
      · decide
      · decide
  have htime : (⟨m.hour, m.minute, m.second, m.microsecond / 1000 * 1000⟩ : Clock).isTimeOfDay =
      true := by
    simp [Clock.isTimeOfDay, h.hour_lt, h.minute_lt, h.second_lt]
  have hzone : "+00:00".toList = ['+', '0', '0', ':', '0', '0'] := by decide
  have hoffset : clock? ['0', '0', ':', '0', '0'] = some (⟨0, 0, 0, 0⟩, .nothing) := by
    decide
  unfold isTime
  dsimp only
  rw [hfront, clock?_timeChars h, List.drop_left]
  dsimp only
  rw [htime, hzone]
  simp [hoffset, Clock.isOffset]

/-! ## Points in time -/

theorem toList_stamp (m : Moment) : m.stamp.toList = Decimal.digitChars m.date.year ++
    '-' :: (padded 2 m.date.month ++ '-' :: (padded 2 m.date.day ++
      'T' :: (m.timeChars ++ ['Z']))) := by
  unfold stamp timeChars
  rw [String.toList_ofList]
  simp only [List.append_assoc, List.cons_append]

/-- A year with four digits is written as in a date. -/
theorem toList_stamp_of_le (h : 1000 ≤ m.date.year) :
    m.stamp.toList = m.date.isoChars ++ 'T' :: (m.timeChars ++ ['Z']) := by
  have hyear : padded 4 m.date.year = Decimal.digitChars m.date.year :=
    padded_of_le (by decide) h
  rw [toList_stamp, ← hyear]
  unfold isoChars
  simp only [List.append_assoc, List.cons_append]

theorem mem_stamp {c : Char} (h : c ∈ m.stamp.toList) :
    c.isDigit ∨ c ∈ ['-', ':', '.', 'T', 'Z'] := by
  rw [toList_stamp] at h
  simp only [List.mem_append, List.mem_cons, List.not_mem_nil, or_false] at h
  rcases h with h | rfl | h | rfl | h | rfl | h | rfl
  · exact .inl (Decimal.isDigit_of_mem_digitChars c h)
  · exact .inr (by decide)
  · exact .inl (isDigit_of_mem_padded h)
  · exact .inr (by decide)
  · exact .inl (isDigit_of_mem_padded h)
  · exact .inr (by decide)
  · rcases mem_timeChars h with h | rfl | rfl
    · exact .inl h
    · exact .inr (by decide)
    · exact .inr (by decide)
  · exact .inr (by decide)

theorem separatorPlace_isoChars (d : Date) (c : Char) (rest : List Char) :
    separatorPlace (d.isoChars ++ c :: rest) = 10 := by
  have hlength : (d.isoChars ++ c :: rest).length ≠ 7 := by
    rw [List.length_append, length_isoChars]
    omega
  obtain ⟨c', cs, hc, hdigit⟩ := padded_cons (by decide) d.month_lt
  have htext : d.isoChars ++ c :: rest =
      padded 4 d.year ++ '-' :: c' :: (cs ++ '-' :: (padded 2 d.day ++ c :: rest)) := by
    unfold isoChars
    rw [hc]
    simp only [List.append_assoc, List.cons_append]
  have hyear := length_padded (by decide) d.year_lt
  have hhyphen : (d.isoChars ++ c :: rest)[4]? = some '-' := by
    rw [htext, List.getElem?_append_right (by omega), hyear]
    rfl
  have hmonth : (d.isoChars ++ c :: rest)[5]? ≠ some 'W' := by
    rw [htext, List.getElem?_append_right (by omega), hyear]
    rintro h
    obtain rfl := Option.some.inj h
    cases hdigit
  unfold separatorPlace
  dsimp only
  rw [if_neg hlength, if_pos hhyphen, if_neg hmonth]

theorem dateTime?_isoChars (h : m.OnDay) (d : Date) :
    dateTime? (d.isoChars ++ 'T' :: (m.timeChars ++ "+00:00".toList)) = some d := by
  have htake : (d.isoChars ++ 'T' :: (m.timeChars ++ "+00:00".toList)).take 10 = d.isoChars :=
    List.take_left' (length_isoChars d)
  have hdrop : (d.isoChars ++ 'T' :: (m.timeChars ++ "+00:00".toList)).drop 10 =
      'T' :: (m.timeChars ++ "+00:00".toList) := List.drop_left' (length_isoChars d)
  have hdate := datePart?_isoChars d []
  rw [List.append_nil] at hdate
  unfold dateTime?
  dsimp only
  rw [separatorPlace_isoChars, htake, hdrop, hdate]
  simp only [bind, Option.bind, isTime_timeChars h, if_true]
  rfl

/-- **The date of a moment is read back from its text, if the year has four digits.** -/
theorem read?_stamp (h : m.OnDay) (hyear : 1000 ≤ m.date.year) :
    read? m.stamp.toList = some m.date := by
  have hascii : ∀ c ∈ m.stamp.toList, c.toNat < 128 := fun c hc => by
    rcases mem_stamp hc with hdigit | hc
    · have := Address.isDigit_iff.mp hdigit
      omega
    · fin_cases hc <;> decide
  have hlong : 11 ≤ m.stamp.toList.length := by
    rw [toList_stamp_of_le hyear, List.length_append, length_isoChars, List.length_cons]
    omega
  have hdate : date? m.stamp.toList = none := by
    unfold date?
    dsimp only
    rw [utf8ByteSize_of_ascii hascii, if_neg]
    simp only [Bool.or_eq_true, decide_eq_true_eq]
    omega
  have hreverse : m.stamp.toList.reverse = 'Z' :: (m.date.isoChars ++ 'T' :: m.timeChars).reverse := by
    rw [toList_stamp_of_le hyear, ← List.cons_append, ← List.append_assoc, List.reverse_append]
    rfl
  unfold read?
  rw [hdate, hreverse, Option.none_or]
  simp only [List.reverse_reverse, List.append_assoc, List.cons_append]
  exact dateTime?_isoChars h m.date

/-- No date is read where a hyphen stands in place of a digit of the year. -/
theorem read?_eq_none {cs : List Char} {i : Nat} (hi : i < 4) (h : cs[i]? = some '-') :
    read? cs = none := by
  have hdate : ∀ cs' : List Char, (∀ c, cs'[i]? = some c → c = '-') → datePart? cs' = none := by
    intro cs' hcs'
    unfold datePart?
    rw [digits?_eq_none hi fun c hc => by rw [hcs' c hc]; rfl]
    rfl
  have hdateTime : ∀ cs' : List Char, (∀ c, cs'[i]? = some c → c = '-') → dateTime? cs' = none := by
    intro cs' hcs'
    unfold dateTime?
    dsimp only
    rw [hdate]
    · rfl
    · intro c hc
      rw [List.getElem?_take] at hc
      split at hc
      · exact hcs' c hc
      · cases hc
  have hthis : ∀ c, cs[i]? = some c → c = '-' := fun c hc => Option.some.inj (hc.symm.trans h)
  unfold read? date?
  dsimp only
  rw [hdate cs hthis, ite_self, Option.none_or]
  split
  · next front hfront =>
      refine hdateTime _ fun c hc => ?_
      have hcs : cs = front.reverse ++ ['Z'] := by
        rw [← List.reverse_cons, ← hfront, List.reverse_reverse]
      -- the sign at the end is no hyphen, so the hyphen is before it
      rw [hcs] at hthis h
      rcases Nat.lt_or_ge i front.reverse.length with hlt | hge
      · rw [List.getElem?_append_left hlt] at hc
        exact hthis c (by rw [List.getElem?_append_left hlt]; exact hc)
      · rw [List.getElem?_append_right hge] at h
        exact absurd (List.mem_singleton.mp (List.mem_of_getElem? h)) (by decide)
  · exact hdateTime cs hthis

/-- **No date is read from the text of a moment if the year has fewer digits.** -/
theorem read?_stamp_of_lt (hyear : m.date.year < 1000) : read? m.stamp.toList = none := by
  have hshort : (Decimal.digitChars m.date.year).length ≤ 3 :=
    (Nat.length_toDigits_le_iff (by decide) (by decide)).mpr hyear
  refine read?_eq_none (Nat.lt_succ_of_le hshort) ?_
  rw [toList_stamp, List.getElem?_append_right le_rfl, Nat.sub_self]
  rfl

/-! ## A clock in universal time -/

/-- A time stays one of a day in universal time. -/
theorem OnDay.toUniversal {u : Moment} (h : m.OnDay) (hu : m.toUniversal? = some u) : u.OnDay := by
  unfold toUniversal? at hu
  split at hu
  · exact Option.some.inj hu ▸ h
  · obtain ⟨date, -, rfl⟩ := Option.map_eq_some_iff.mp hu
    generalize htime : (m.date.ordinal * microsecondsPerDay + m.ofDay - _ : Int) = time
    have hlt : Int.fmod time microsecondsPerDay < 86400000000 :=
      Int.fmod_lt_of_pos time (by decide)
    refine ⟨?_, Nat.mod_lt _ (by decide), Nat.mod_lt _ (by decide), Nat.mod_lt _ (by decide)⟩
    dsimp only
    omega

end Moment

end Worksheet
