import Worksheet.Calendar.Date
import Mathlib.Data.Option.Basic
import Mathlib.Tactic.Ring

/-!
# The calendar

A date is known by its parts, and by its number in the row of all days: years, months and days are
found again from the number.  Months are counted in one row as well, and the last day of a month is
the one that the first day of the next month follows.
-/

namespace Worksheet

theorem daysInMonth_pos (year month : Nat) : 1 ≤ daysInMonth year month := by
  unfold daysInMonth
  split
  · split <;> omega
  · split <;> omega

theorem daysInMonth_le (year month : Nat) : daysInMonth year month ≤ 31 := by
  unfold daysInMonth
  split
  · split <;> omega
  · split <;> omega

namespace Date

variable {d e : Date}

/-! ## Parts -/

/-- Whether three numbers are the year, the month and the day of a date. -/
def AreParts (year month day : Int) : Prop :=
  1 ≤ year ∧ year ≤ 9999 ∧ 1 ≤ month ∧ month ≤ 12 ∧ 1 ≤ day ∧
    day ≤ daysInMonth year.toNat month.toNat

theorem areParts_iff {year month day : Int} :
    AreParts year month day ↔ ∃ d : Date, (d.year : Int) = year ∧ (d.month : Int) = month ∧
      (d.day : Int) = day := by
  constructor
  · rintro ⟨hy, hy', hm, hm', hd, hd'⟩
    exact ⟨⟨year.toNat, month.toNat, day.toNat, by omega, by omega, by omega, by omega, by omega,
      by omega⟩, Int.toNat_of_nonneg (by omega), Int.toNat_of_nonneg (by omega),
      Int.toNat_of_nonneg (by omega)⟩
  · rintro ⟨d, rfl, rfl, rfl⟩
    have := d.year_pos
    have := d.year_le
    have := d.month_pos
    have := d.month_le
    have := d.day_pos
    have := d.day_le
    unfold AreParts
    rw [Int.toNat_natCast, Int.toNat_natCast]
    omega

theorem ofParts_date (shown : String) (d : Date) : ofParts shown d.year d.month d.day = .ok d := by
  have hy : ¬ ¬ (1 ≤ (d.year : Int) ∧ (d.year : Int) ≤ 9999) := by
    have := d.year_pos
    have := d.year_le
    omega
  have hm : ¬ ¬ (1 ≤ (d.month : Int) ∧ (d.month : Int) ≤ 12) := by
    have := d.month_pos
    have := d.month_le
    omega
  have hd : ¬ ¬ (1 ≤ (d.day : Int) ∧
      (d.day : Int) ≤ daysInMonth (d.year : Int).toNat (d.month : Int).toNat) := by
    have := d.day_pos
    have := d.day_le
    rw [Int.toNat_natCast, Int.toNat_natCast]
    omega
  unfold ofParts
  rw [dif_neg hy, dif_neg hm, dif_neg hd]
  rfl

theorem ofParts?_date (d : Date) : ofParts? d.year d.month d.day = some d := by
  unfold ofParts?
  rw [ofParts_date]
  rfl

/-- Numbers that are no parts of a date have a first one that is out of range. -/
theorem exists_ofParts_error (shown : String) {year month day : Int}
    (h : ¬ AreParts year month day) : ∃ fault, ofParts shown year month day = .error fault := by
  cases hparts : ofParts shown year month day with
  | error fault => exact ⟨fault, rfl⟩
  | ok d =>
      unfold ofParts at hparts
      split at hparts
      · cases hparts
      split at hparts
      · cases hparts
      split at hparts
      · cases hparts
      exact absurd (by unfold AreParts; omega) h

/-! ## Months in a row -/

/-- The number of a month in the row of all months. -/
def monthNumber (d : Date) : Int :=
  d.year * 12 + (d.month - 1)

/-- Years of twelve months. -/
theorem fdiv_monthNumber (d : Date) : Int.fdiv d.monthNumber 12 = d.year := by
  have := d.month_pos
  have := d.month_le
  rw [Int.fdiv_eq_ediv_of_nonneg _ (by decide)]
  unfold monthNumber
  omega

theorem fmod_monthNumber (d : Date) : Int.fmod d.monthNumber 12 + 1 = d.month := by
  have := d.month_pos
  have := d.month_le
  rw [Int.fmod_eq_emod_of_nonneg _ (by decide)]
  unfold monthNumber
  omega

/-- Whether a date is the last one of its month. -/
def EndsMonth (d : Date) : Prop :=
  d.day = daysInMonth d.year d.month

theorem endOfMonth?_eq_some_iff {year month : Int} :
    endOfMonth? year month = some e ↔ (e.year : Int) = year ∧ (e.month : Int) = month ∧
      e.EndsMonth := by
  unfold endOfMonth? EndsMonth
  constructor
  · intro h
    by_cases hparts : AreParts year month (daysInMonth year.toNat month.toNat)
    · obtain ⟨d, hy, hm, hd⟩ := areParts_iff.mp hparts
      rw [← hd, ← hy, ← hm, ofParts?_date] at h
      obtain rfl := Option.some.inj h
      refine ⟨hy, hm, ?_⟩
      rw [← hy, ← hm, Int.toNat_natCast, Int.toNat_natCast] at hd
      exact_mod_cast hd
    · obtain ⟨fault, hfault⟩ := exists_ofParts_error "" hparts
      unfold ofParts? at h
      rw [hfault] at h
      cases h
  · rintro ⟨rfl, rfl, hday⟩
    rw [Int.toNat_natCast, Int.toNat_natCast, ← hday, ofParts?_date]

/-! ## Days in a row -/

theorem daysBeforeMonth_succ {month : Nat} (h : 1 ≤ month) (year : Nat) :
    daysBeforeMonth year (month + 1) = daysBeforeMonth year month + daysInMonth year month := by
  obtain ⟨k, rfl⟩ := Nat.exists_eq_add_of_le h
  unfold daysBeforeMonth
  rw [Nat.add_sub_cancel, Nat.add_sub_cancel_left, Nat.add_comm 1 k, List.range'_1_concat,
    List.map_append, List.foldl_append, Nat.add_comm 1 k]
  rfl

/-- A year has as many days as its twelve months. -/
theorem daysBeforeMonth_year (year : Nat) :
    daysBeforeMonth year 13 = if isLeapYear year then 366 else 365 := by
  cases h : isLeapYear year <;> simp [daysBeforeMonth, daysInMonth, List.range', h]

theorem isLeapYear_iff {year : Nat} :
    isLeapYear year = true ↔ year % 4 = 0 ∧ (year % 100 ≠ 0 ∨ year % 400 = 0) := by
  simp [isLeapYear]

/-- A year lies a number of whole cycles of the calendar after the first one: `a` of 400 years, `b` of
100, `c` of four, and `e` years. -/
theorem exists_cycles {year : Nat} (h : 1 ≤ year) : ∃ a b c e, b ≤ 3 ∧ c ≤ 24 ∧ e ≤ 3 ∧
    year = 400 * a + 100 * b + 4 * c + e + 1 :=
  ⟨(year - 1) / 400, (year - 1) % 400 / 100, (year - 1) % 100 / 4, (year - 1) % 4, by omega, by omega,
    by omega, by omega⟩

section Cycles

variable {a b c e : Nat}

theorem daysBeforeYear_cycles (hb : b ≤ 3) (hc : c ≤ 24) (he : e ≤ 3) :
    daysBeforeYear (400 * a + 100 * b + 4 * c + e + 1) =
      146097 * a + 36524 * b + 1461 * c + 365 * e := by
  unfold daysBeforeYear
  dsimp only
  omega

theorem isLeapYear_cycles_iff (hb : b ≤ 3) (hc : c ≤ 24) (he : e ≤ 3) :
    isLeapYear (400 * a + 100 * b + 4 * c + e + 1) = true ↔ e = 3 ∧ (c < 24 ∨ b = 3) := by
  rw [isLeapYear_iff]
  omega

end Cycles

/-- The next year starts when the days of a year have passed. -/
theorem daysBeforeYear_succ {year : Nat} (h : 1 ≤ year) :
    daysBeforeYear (year + 1) = daysBeforeYear year + daysBeforeMonth year 13 := by
  obtain ⟨a, b, c, e, hb, hc, he, rfl⟩ := exists_cycles h
  rw [daysBeforeMonth_year, daysBeforeYear_cycles hb hc he]
  unfold daysBeforeYear
  dsimp only
  split
  · next hleap =>
      have := (isLeapYear_cycles_iff hb hc he).mp hleap
      omega
  · next hleap =>
      have := mt (isLeapYear_cycles_iff hb hc he).mpr hleap
      omega

theorem daysBeforeMonth_mono (year : Nat) {month month' : Nat} (hpos : 1 ≤ month) (h : month ≤ month') :
    daysBeforeMonth year month ≤ daysBeforeMonth year month' := by
  induction h with
  | refl => exact Nat.le_refl _
  | step h ih =>
      rw [daysBeforeMonth_succ (Nat.le_trans hpos h)]
      exact Nat.le_add_right_of_le ih

/-- The months before a day of the year are passed over. -/
theorem monthOfDay_of_daysBefore {year day : Nat} {month : Nat} (hday : day < daysInMonth year month) :
    ∀ {months start : Nat}, 1 ≤ start → start ≤ month → month < start + months →
      monthOfDay year (daysBeforeMonth year month - daysBeforeMonth year start + day) months start =
        (month, day + 1) := by
  intro months
  induction months with
  | zero => intro start _ hle hlt; omega
  | succ months ih =>
      intro start hpos hle hlt
      rw [monthOfDay]
      rcases Nat.lt_or_eq_of_le hle with hbefore | rfl
      · have hnext := daysBeforeMonth_succ hpos year
        have hmono := daysBeforeMonth_mono year (Nat.le_add_left 1 start) hbefore
        rw [if_neg (by omega)]
        have hih := ih (Nat.le_add_left 1 start) hbefore (by omega)
        rw [hnext] at hih hmono
        rw [← hih]
        congr 1
        omega
      · rw [Nat.sub_self, Nat.zero_add, if_pos hday]

/-- A day of a year that is `a` times 400, `b` times 100, `c` times 4 and `e` years after the first
one.  The day behind 365 others is in a leap year. -/
theorem ofOrdinal?_eq {a b c e r : Nat} (hb : b ≤ 3) (hc : c ≤ 24) (he : e ≤ 3)
    (hr : r < 365 ∨ r = 365 ∧ e = 3 ∧ (c < 24 ∨ b = 3)) :
    ofOrdinal? (146097 * a + 36524 * b + 1461 * c + 365 * e + r + 1 : Nat) =
      ofParts? (400 * a + 100 * b + 4 * c + e + 1 : Nat)
        (monthOfDay (400 * a + 100 * b + 4 * c + e + 1) r 12 1).1
        (monthOfDay (400 * a + 100 * b + 4 * c + e + 1) r 12 1).2 := by
  have hfourHundreds : (146097 * a + 36524 * b + 1461 * c + 365 * e + r) / 146097 = a := by omega
  have hrest : (146097 * a + 36524 * b + 1461 * c + 365 * e + r) % 146097 =
      36524 * b + 1461 * c + 365 * e + r := by omega
  have hhundreds : min 3 ((36524 * b + 1461 * c + 365 * e + r) / 36524) = b := by omega
  have hrest' : 36524 * b + 1461 * c + 365 * e + r - b * 36524 = 1461 * c + 365 * e + r := by omega
  have hfours : (1461 * c + 365 * e + r) / 1461 = c := by omega
  have hrest'' : (1461 * c + 365 * e + r) % 1461 = 365 * e + r := by omega
  have hones : min 3 ((365 * e + r) / 365) = e := by omega
  have hday : 365 * e + r - e * 365 = r := by omega
  unfold ofOrdinal?
  rw [if_neg (by omega)]
  dsimp only
  rw [Int.toNat_natCast, Nat.add_sub_cancel, hfourHundreds, hrest, hhundreds, hrest', hfours,
    hrest'', hones, hday]

/-- **A date is found from its number in the row of all days.** -/
theorem ofOrdinal?_ordinal (d : Date) : ofOrdinal? d.ordinal = some d := by
  have hyear := d.year_pos
  have hmonth := d.month_pos
  have hmonth' := d.month_le
  have hday := d.day_pos
  have hday' := d.day_le
  obtain ⟨a, b, c, e, hb, hc, he, hcycles⟩ := exists_cycles hyear
  have hbefore : daysBeforeYear d.year = 146097 * a + 36524 * b + 1461 * c + 365 * e :=
    hcycles ▸ daysBeforeYear_cycles hb hc he
  have hwithin : daysBeforeMonth d.year d.month + daysInMonth d.year d.month ≤
      daysBeforeMonth d.year 13 := by
    rw [← daysBeforeMonth_succ hmonth]
    exact daysBeforeMonth_mono _ (Nat.le_add_left 1 _) (by omega)
  have hlast : daysBeforeMonth d.year d.month + (d.day - 1) < 365 ∨
      daysBeforeMonth d.year d.month + (d.day - 1) = 365 ∧ e = 3 ∧ (c < 24 ∨ b = 3) := by
    rw [daysBeforeMonth_year] at hwithin
    split at hwithin
    · next hleap =>
        rw [hcycles, isLeapYear_cycles_iff hb hc he] at hleap
        omega
    · omega
  have hfound : monthOfDay d.year
      (daysBeforeMonth d.year d.month - daysBeforeMonth d.year 1 + (d.day - 1)) 12 1 =
        (d.month, d.day - 1 + 1) :=
    monthOfDay_of_daysBefore (by omega) le_rfl hmonth (by omega)
  have hnone : daysBeforeMonth d.year 1 = 0 := rfl
  rw [hnone, Nat.sub_zero, Nat.sub_add_cancel hday] at hfound
  have hordinal : d.ordinal = 146097 * a + 36524 * b + 1461 * c + 365 * e +
      (daysBeforeMonth d.year d.month + (d.day - 1)) + 1 := by
    unfold ordinal
    omega
  rw [hordinal, ofOrdinal?_eq hb hc he hlast, ← hcycles, hfound]
  exact ofParts?_date d

/-- The next date has the next number. -/
theorem ofOrdinal?_succ {next : Date} (h : d.ordinal + 1 = next.ordinal) :
    ofOrdinal? (d.ordinal + 1 : Nat) = some next := by
  rw [h]
  exact ofOrdinal?_ordinal next

/-- The day after the last one of a month is the first one of the next month, until there are no
more years. -/
theorem ofOrdinal?_succ_of_endsMonth (h : d.EndsMonth) :
    (d.year = 9999 ∧ d.month = 12 ∧ ofOrdinal? (d.ordinal + 1 : Nat) = none) ∨
      ∃ next, ofOrdinal? (d.ordinal + 1 : Nat) = some next ∧ next.day = 1 ∧
        next.monthNumber = d.monthNumber + 1 := by
  have hyear := d.year_pos
  have hyear' := d.year_le
  have hmonth := d.month_pos
  have hmonth' := d.month_le
  have hsucc := daysBeforeMonth_succ hmonth d.year
  rw [← show d.day = _ from h] at hsucc
  rcases Nat.lt_or_eq_of_le hmonth' with hmonth' | hmonth'
  · right
    let next : Date := ⟨d.year, d.month + 1, 1, hyear, hyear', by omega, hmonth', le_rfl,
      daysInMonth_pos _ _⟩
    have hnext : d.ordinal + 1 = next.ordinal := by
      unfold ordinal
      show _ = daysBeforeYear d.year + daysBeforeMonth d.year (d.month + 1) + 1
      omega
    refine ⟨next, ofOrdinal?_succ hnext, rfl, ?_⟩
    unfold monthNumber
    show (d.year : Int) * 12 + ((d.month + 1 : Nat) - 1) = _
    omega
  · have hwhole : daysBeforeMonth d.year 13 = daysBeforeMonth d.year d.month + d.day := by
      rw [← hsucc, hmonth']
    rcases Nat.lt_or_eq_of_le hyear' with hyear' | hyear'
    · right
      let next : Date := ⟨d.year + 1, 1, 1, by omega, hyear', le_rfl, by decide, le_rfl,
        daysInMonth_pos _ _⟩
      have hnext : d.ordinal + 1 = next.ordinal := by
        unfold ordinal
        show _ = daysBeforeYear (d.year + 1) + 0 + 1
        rw [daysBeforeYear_succ hyear, hwhole]
        omega
      refine ⟨next, ofOrdinal?_succ hnext, rfl, ?_⟩
      unfold monthNumber
      show ((d.year + 1 : Nat) : Int) * 12 + ((1 : Nat) - 1) = _
      omega
    · left
      have hbefore : daysBeforeYear 9999 = 3651694 := by decide
      have hdays : daysBeforeMonth 9999 13 = 365 :=
        (daysBeforeMonth_year 9999).trans (if_neg (by decide))
      have hordinal : d.ordinal = 3652059 := by
        unfold ordinal
        rw [hyear'] at hwhole ⊢
        omega
      refine ⟨hyear', hmonth', ?_⟩
      rw [hordinal]
      decide

end Date

end Worksheet
