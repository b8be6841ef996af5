import Worksheet.Proofs.DateParts

/-!
# The ends of months

`EOMONTH` counts months from that of a date and comes to the last day of the month that it arrives at.
How far into its month the date was makes no difference, so going on from the last day of a month is
the same as going all the way at once.
-/

namespace Worksheet.Formula

namespace DateFunction

variable {f : DateFunction} {start start' last : Date} {m n : Int} {x : Scalar}

/-- Which function reads an argument makes no difference for the date. -/
theorem dateArgument_ok (h : f.dateArgument x = .ok start) (g : DateFunction) :
    g.dateArgument x = .ok start := by
  have htext : ∀ t, f.ofText t = .ok start → g.ofText t = .ok start := by
    intro t ht
    unfold ofText at ht ⊢
    split at ht
    · exact ht
    · cases ht
  cases x with
  | number n =>
      obtain ⟨serial, hserial, h⟩ := exists_of_bind h
      unfold ofSerial at h
      unfold dateArgument ofSerial
      dsimp only
      rw [bind_of_ok hserial]
      split at h
      · exact h
      · obtain ⟨_, -, h⟩ := exists_of_bind h
        cases h
  | bool b => cases h
  | text t => exact htext t h
  | cellText t => exact htext t h

theorem endOfMonthAfter_eq_ok_iff :
    endOfMonthAfter start n = .ok last ↔
      last.monthNumber = start.monthNumber + n ∧ last.EndsMonth := by
  have hparts (total : Int) : (last.year : Int) = Int.fdiv total 12 ∧
      (last.month : Int) = Int.fmod total 12 + 1 ↔ last.monthNumber = total := by
    constructor
    · rintro ⟨hyear, hmonth⟩
      have hwhole := Int.fmod_add_mul_fdiv total 12
      unfold Date.monthNumber
      omega
    · rintro rfl
      exact ⟨last.fdiv_monthNumber.symm, last.fmod_monthNumber.symm⟩
  have hfound : endOfMonthAfter start n = .ok last ↔
      Date.endOfMonth? (Int.fdiv (start.monthNumber + n) 12)
        (Int.fmod (start.monthNumber + n) 12 + 1) = some last := by
    unfold endOfMonthAfter Date.monthNumber
    dsimp only
    split
    · next d hd =>
        rw [hd]
        exact ⟨fun h => congrArg some (Except.ok.inj h), fun h => congrArg Except.ok (Option.some.inj h)⟩
    · next hd =>
        rw [hd]
        refine ⟨fun h => ?_, nofun⟩
        obtain ⟨_, -, h⟩ := exists_of_bind h
        cases h
  rw [hfound, Date.endOfMonth?_eq_some_iff, ← and_assoc, hparts]

/-- The end of a month depends on the number of the month. -/
theorem endOfMonthAfter_congr (h : start.monthNumber + m = start'.monthNumber + n) :
    endOfMonthAfter start m = endOfMonthAfter start' n := by
  unfold Date.monthNumber at h
  unfold endOfMonthAfter
  dsimp only
  rw [h]

/-- A month of no year of the calendar is a failure of the domain, even if the year is too long to be
told. -/
theorem kind_of_endOfMonthAfter {cause : Failure} (h : endOfMonthAfter start n = .error cause) :
    cause.kind = .domain := by
  unfold endOfMonthAfter at h
  dsimp only at h
  split at h
  · cases h
  · unfold Number.intText at h
    split at h
    · cases h
      rfl
    · cases h
      rfl

end DateFunction

/-! ## Calls -/

variable {cells : Cells} {s : Setting} {d : Nat} {e p q total : Expr} {x y : Scalar} {m n : Int}

theorem comesTo_endOfMonth (he : e.ComesTo s cells (d + argumentCost) (.ok x))
    (hp : p.ComesTo s cells (d + argumentCost) (.ok (.number (.int n)))) :
    (Expr.call "EOMONTH(" [e, p]).ComesTo s cells d (do
      let start ← DateFunction.dateArgument .endOfMonth x
      let last ← DateFunction.endOfMonthAfter start n
      return .text last.iso) := by
  have hf : Function.named? (nameOfOpener "EOMONTH(") = some (.date .endOfMonth) := by
    decide
  have hdeep : ∀ depth ≤ d, s.exceeds depth = false := fun depth hdepth =>
    he.not_exceeds (Nat.le_add_right_of_le hdepth)
  exact .callDate hdeep hf (.cons he (.cons hp .nil))

/-- **`EOMONTH` comes to the last day of a month, and months are added up.**  When it succeeds, the
month is as many months after that of the date as were asked for, the day is the last one in it, and
the next day is the first one of the next month, if the calendar goes on.  From there it comes to the
same as from the first date with the sum of the months: the last day of a month, or a failure of the
domain. -/
theorem endOfMonth_add (he : e.ComesTo s cells (d + argumentCost + argumentCost) (.ok x))
    (hp : p.ComesTo s cells (d + argumentCost + argumentCost) (.ok (.number (.int m))))
    (hq : q.ComesTo s cells (d + argumentCost) (.ok (.number (.int n))))
    (htotal : total.ComesTo s cells (d + argumentCost) (.ok (.number (.int (m + n)))))
    (h : (Expr.call "EOMONTH(" [e, p]).ComesTo s cells d (.ok y)) :
    (∃ start last : Date, y = .text last.iso ∧
      (∀ part : DatePart, (part.call e).ComesTo s cells d
        (.ok (.number (.int (part.of start))))) ∧
      (∀ part : DatePart, (part.call (.call "EOMONTH(" [e, p])).ComesTo s cells d
        (.ok (.number (.int (part.of last))))) ∧
      last.monthNumber = start.monthNumber + m ∧
      last.day = daysInMonth last.year last.month ∧
      ((last.year = 9999 ∧ last.month = 12 ∧ Date.ofOrdinal? (last.ordinal + 1 : Nat) = none) ∨
        ∃ next, Date.ofOrdinal? (last.ordinal + 1 : Nat) = some next ∧ next.day = 1 ∧
          next.monthNumber = last.monthNumber + 1)) ∧
    ∃ r, (Expr.call "EOMONTH(" [.call "EOMONTH(" [e, p], q]).ComesTo s cells d r ∧
      (Expr.call "EOMONTH(" [e, total]).ComesTo s cells d r ∧
      ((∃ date : Date, r = .ok (.text date.iso)) ∨ ∃ cause, r = .error cause ∧
        cause.kind = .domain) := by
  have hinner := comesTo_endOfMonth he hp
  have hvalue := (hinner.mono (Nat.le_add_right d argumentCost)).unique h
  obtain ⟨start, hstart, hvalue⟩ := exists_of_bind hvalue
  obtain ⟨last, hlast, hvalue⟩ := exists_of_bind hvalue
  obtain rfl := Except.ok.inj hvalue
  obtain ⟨hmonth, hends⟩ := DateFunction.endOfMonthAfter_eq_ok_iff.mp hlast
  rw [bind_of_ok hstart, bind_of_ok hlast] at hinner
  refine ⟨⟨start, last, rfl, fun part => ?_, fun part => comesTo_part_iso part hinner, hmonth, hends,
    Date.ofOrdinal?_succ_of_endsMonth hends⟩, ?_⟩
  · have hpart := comesTo_part part (he.mono (Nat.le_add_right _ argumentCost))
    rwa [DateFunction.dateArgument_ok hstart part.function] at hpart
  · have hagain := comesTo_endOfMonth hinner hq
    have hwhole := comesTo_endOfMonth (he.mono (Nat.le_add_right _ argumentCost)) htotal
    have hsame : DateFunction.endOfMonthAfter last n =
        DateFunction.endOfMonthAfter start (m + n) :=
      DateFunction.endOfMonthAfter_congr (by rw [hmonth, Int.add_assoc])
    rw [bind_of_ok DateFunction.dateArgument_iso, hsame] at hagain
    rw [bind_of_ok hstart] at hwhole
    refine ⟨_, hagain, hwhole, ?_⟩
    cases hend : DateFunction.endOfMonthAfter start (m + n) with
    | ok date => exact .inl ⟨date, rfl⟩
    | error cause => exact .inr ⟨cause, rfl, DateFunction.kind_of_endOfMonthAfter hend⟩

/-- From the last day of January by a month to that of February in a leap year, and on by a year. -/
theorem endOfMonth_overLeapDay :
    let s : Setting := ⟨false, noon, none, []⟩
    let start : Expr := .text "\"2024-01-31\""
    let one : Expr := .number "1"
    let twelve : Expr := .number "12"
    let sum : Expr := .binary .add one twelve
    start.ComesTo s .empty 6 (.ok (.text "2024-01-31")) ∧
      one.ComesTo s .empty 6 (.ok (.number (.int 1))) ∧
      twelve.ComesTo s .empty 3 (.ok (.number (.int 12))) ∧
      sum.ComesTo s .empty 3 (.ok (.number (.int (1 + 12)))) ∧
      (Expr.call "EOMONTH(" [start, one]).ComesTo s .empty 0 (.ok (.text "2024-02-29")) ∧
      (Expr.call "EOMONTH(" [.call "EOMONTH(" [start, one], twelve]).ComesTo s .empty 0
        (.ok (.text "2025-02-28")) ∧
      (Expr.call "EOMONTH(" [start, sum]).ComesTo s .empty 0 (.ok (.text "2025-02-28")) := by
  intro s start one twelve sum
  have hdeep : ∀ depth ≤ 0 + argumentCost + argumentCost, s.exceeds depth = false := fun _ _ => rfl
  have hstart : start.ComesTo s .empty (0 + argumentCost + argumentCost)
      (.ok (.text "2024-01-31")) := by
    have hliteral : textLiteral "\"2024-01-31\"" = "2024-01-31" := by decide
    rw [← hliteral]
    exact .text hdeep
  have hone : one.ComesTo s .empty (0 + argumentCost + argumentCost) (.ok (.number (.int 1))) :=
    .number hdeep (by cbv)
  have htwelve : twelve.ComesTo s .empty (0 + argumentCost + argumentCost)
      (.ok (.number (.int 12))) := .number hdeep (by cbv)
  have hshallow : 0 + argumentCost ≤ 0 + argumentCost + argumentCost := Nat.le_add_right _ _
  have hplus : arithmetic? .add = some Number.add := rfl
  have hoperand : 0 + argumentCost + operandCost ≤ 0 + argumentCost + argumentCost := by decide
  have hsum : sum.ComesTo s .empty (0 + argumentCost) (.ok (.number (.int (1 + 12)))) :=
    .arithmetic hplus (hone.mono hoperand) rfl (htwelve.mono hoperand) rfl
  have hmonth := comesTo_endOfMonth (hstart.mono hshallow) (hone.mono hshallow)
  have hvalue : (do
      let start ← DateFunction.dateArgument .endOfMonth (.text "2024-01-31")
      let last ← DateFunction.endOfMonthAfter start 1
      return .text last.iso : Except Failure Scalar) = .ok (.text "2024-02-29") := by
    decide
  have hvalue' : (do
      let start ← DateFunction.dateArgument .endOfMonth (.text "2024-01-31")
      let last ← DateFunction.endOfMonthAfter start (1 + 12)
      return .text last.iso : Except Failure Scalar) = .ok (.text "2025-02-28") := by
    decide
  rw [hvalue] at hmonth
  obtain ⟨-, r, hagain, hwhole, -⟩ := endOfMonth_add hstart hone (htwelve.mono hshallow) hsum hmonth
  have hyear := comesTo_endOfMonth (hstart.mono hshallow) hsum
  rw [hvalue'] at hyear
  obtain rfl := hwhole.unique hyear
  exact ⟨hstart, hone, htwelve.mono hshallow, hsum, hmonth, hagain, hwhole⟩

end Worksheet.Formula
