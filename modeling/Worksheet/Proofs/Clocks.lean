import Worksheet.Proofs.DateParts

/-!
# The date of a clock

`TODAY` and `NOW` ask the same clock, and both show it in universal time, one as a date and one as a
date with the time.  `YEAR`, `MONTH` and `DAY` read both texts.  They agree on them from the year 1000
on.  Before that, `NOW` does not write the year with four digits, and no date is read from its text.
-/

namespace Worksheet.Formula

namespace DateFunction

variable {f : DateFunction} {m : Moment}

theorem trimBlanks_stamp (m : Moment) : Text.trimBlanks m.stamp.toList = m.stamp.toList := by
  refine Text.trimBlanks_eq_self fun c hc => ?_
  rcases Moment.mem_stamp hc with hdigit | hc
  · exact Text.not_isBlank_of_isDigit hdigit
  · fin_cases hc <;> rfl

theorem dateArgument_stamp (h : m.OnDay) (hyear : 1000 ≤ m.date.year) :
    f.dateArgument (.text m.stamp) = .ok m.date := by
  unfold dateArgument ofText
  dsimp only
  rw [trimBlanks_stamp, Moment.read?_stamp h hyear]

theorem dateArgument_stamp_of_lt (hyear : m.date.year < 1000) :
    f.dateArgument (.text m.stamp) = .error (.notADate f.name (Text.quoted m.stamp)) := by
  unfold dateArgument ofText
  dsimp only
  rw [trimBlanks_stamp, Moment.read?_stamp_of_lt hyear]

end DateFunction

variable {cells : Cells} {s : Setting} {d : Nat} {x : Scalar}

theorem comesTo_today (cells : Cells) (hdeep : ∀ depth ≤ d, s.exceeds depth = false) :
    (Expr.call "TODAY(" []).ComesTo s cells d
      ((fun u => .text u.date.iso) <$> DateFunction.universal s.clock) := by
  have hf : Function.named? (nameOfOpener "TODAY(") = some (.date .today) := by decide
  exact .callDate hdeep hf .nil

theorem comesTo_now (cells : Cells) (hdeep : ∀ depth ≤ d, s.exceeds depth = false) :
    (Expr.call "NOW(" []).ComesTo s cells d
      ((fun u => .text u.stamp) <$> DateFunction.universal s.clock) := by
  have hf : Function.named? (nameOfOpener "NOW(") = some (.date .now) := by decide
  exact .callDate hdeep hf .nil

/-- **The parts of `NOW` are those of `TODAY` exactly from the year 1000 on.**  Whatever a clock with or
without a zone shows, if it is on a date in universal time, then the parts of that date are those of
`TODAY`.  If its year has four digits, they are those of `NOW` as well, and if not, no part of `NOW`
can be read. -/
theorem now_agrees_iff (hclock : s.clock.OnDay)
    (h : (Expr.call "TODAY(" []).ComesTo s cells (d + argumentCost) (.ok x)) :
    ∃ u : Moment, s.clock.toUniversal? = some u ∧
      (∀ part : DatePart, (part.call (.call "TODAY(" [])).ComesTo s cells d
        (.ok (.number (.int (part.of u.date))))) ∧
      ((∀ part : DatePart, (part.call (.call "NOW(" [])).ComesTo s cells d
        (.ok (.number (.int (part.of u.date))))) ↔ 1000 ≤ u.date.year) ∧
      (u.date.year < 1000 → ∀ part : DatePart, ∃ cause,
        (part.call (.call "NOW(" [])).ComesTo s cells d (.error cause) ∧ cause.kind = .value) := by
  have hdeep : ∀ depth ≤ d + argumentCost, s.exceeds depth = false := fun _ => h.not_exceeds
  have htoday := comesTo_today cells hdeep
  have hnow := comesTo_now cells hdeep
  cases hu : s.clock.toUniversal? with
  | none =>
      have hnone : DateFunction.universal s.clock = .error .momentOutOfRange := by
        unfold DateFunction.universal
        rw [hu]
      rw [hnone] at htoday
      cases h.unique htoday
  | some u =>
      have hsome : DateFunction.universal s.clock = .ok u := by
        unfold DateFunction.universal
        rw [hu]
      rw [hsome] at htoday hnow
      have hfails : u.date.year < 1000 → ∀ part : DatePart,
          (part.call (.call "NOW(" [])).ComesTo s cells d
            (.error (.notADate part.function.name (Text.quoted u.stamp))) := by
        intro hyear part
        have hpart := comesTo_part part hnow
        rwa [DateFunction.dateArgument_stamp_of_lt hyear] at hpart
      refine ⟨u, rfl, fun part => comesTo_part_iso part htoday, ⟨fun hparts => ?_, ?_⟩,
        fun hyear part => ⟨_, hfails hyear part, rfl⟩⟩
      · refine Nat.not_lt.mp fun hyear => ?_
        cases (hparts .year).unique (hfails hyear .year)
      · intro hyear part
        have hpart := comesTo_part part hnow
        rwa [DateFunction.dateArgument_stamp (hclock.toUniversal hu) hyear] at hpart

/-- An hour and a half after midnight on New Year's Day, two hours ahead of universal time. -/
def newYear : Moment where
  date := (Date.ofParts? 2000 1 1).getD noon.date
  hour := 1
  minute := 30
  second := 0
  microsecond := 0
  offset := some ⟨7200000000⟩

/-- It is still the old year in universal time, for both. -/
theorem now_newYear :
    let s : Setting := ⟨false, newYear, none, []⟩
    newYear.OnDay ∧
      (Expr.call "TODAY(" []).ComesTo s .empty 3 (.ok (.text "1999-12-31")) ∧
      (DatePart.year.call (.call "TODAY(" [])).ComesTo s .empty 0 (.ok (.number (.int 1999))) ∧
      (DatePart.year.call (.call "NOW(" [])).ComesTo s .empty 0 (.ok (.number (.int 1999))) := by
  intro s
  have hclock : newYear.OnDay := ⟨by decide, by decide, by decide, by decide⟩
  have htoday := comesTo_today .empty (s := s) (d := 0 + argumentCost) fun _ _ => rfl
  have hvalue : ((fun u => .text u.date.iso) <$> DateFunction.universal s.clock : Except Failure Scalar)
      = .ok (.text "1999-12-31") := by decide
  rw [hvalue] at htoday
  obtain ⟨u, hu, hparts, hagrees, -⟩ := now_agrees_iff hclock htoday
  have hyear : newYear.toUniversal?.map (·.date.year) = some 1999 := by decide
  have hyear : u.date.year = 1999 := by
    rw [show newYear.toUniversal? = some u from hu] at hyear
    exact Option.some.inj hyear
  have htodayYear := hparts .year
  have hnowYear := hagrees.mpr (by omega) .year
  rw [show DatePart.year.of u.date = 1999 from hyear] at htodayYear hnowYear
  exact ⟨hclock, htoday, htodayYear, hnowYear⟩

/-- Midnight in a year with three digits. -/
def earlyMidnight : Moment where
  date := (Date.ofParts? 999 1 1).getD noon.date
  hour := 0
  minute := 0
  second := 0
  microsecond := 0
  offset := none

/-- The year of `TODAY` is found and that of `NOW` is not. -/
theorem now_earlyMidnight :
    evaluate false earlyMidnight none .empty (.text "=YEAR(TODAY())") =
        pure (.ok (.number (.int 999))) ∧
      evaluate false earlyMidnight none .empty (.text "=YEAR(NOW())") =
        pure (.error (.notADate "YEAR" "'999-01-01T00:00:00.000Z'")) := by
  have htodayParse : parse "=YEAR(TODAY())" = .ok (.call "YEAR(" [.call "TODAY(" []]) := by cbv
  have hnowParse : parse "=YEAR(NOW())" = .ok (.call "YEAR(" [.call "NOW(" []]) := by cbv
  have hyear : DatePart.year.call = fun e => .call "YEAR(" [e] := by
    have hopener : DatePart.year.function.name ++ "(" = "YEAR(" := by decide
    funext e
    rw [DatePart.call, hopener]
  have hdeep : ∀ depth ≤ 0 + argumentCost,
      (Setting.mk false earlyMidnight none []).exceeds depth = false := fun _ _ => rfl
  have htoday := comesTo_part_iso .year (comesTo_today .empty hdeep)
  have hnow := comesTo_part .year (comesTo_now .empty hdeep)
  rw [hyear] at htoday hnow
  have hrefused : (fun date => .number (.int (DatePart.year.of date))) <$>
      DateFunction.dateArgument .year (.text earlyMidnight.stamp) =
        (.error (.notADate "YEAR" "'999-01-01T00:00:00.000Z'") : Except Failure Scalar) := by
    decide
  refine ⟨htoday.evaluate_eq (by cbv) htodayParse, ?_⟩
  refine Eq.trans (hnow.evaluate_eq (by cbv) hnowParse) ?_
  exact congrArg (fun r => pure (Scalar.toValue <$> r)) hrefused

end Worksheet.Formula
