import Worksheet.Proofs.Calls
import Worksheet.Proofs.IsoDates
import Worksheet.Proofs.Results

/-!
# The parts of dates

`DATE` makes a date of a year, a month and a day, and `YEAR`, `MONTH` and `DAY` find them again in its
text.  Three integers that are no parts of a date are refused.  If all of them fit 32 bits that is a
failure of the domain, but a part that does not fit is refused before anyone asks for a date, and
that counts as a failure of arithmetic.
-/

namespace Worksheet.Formula

/-! ## Texts of dates as arguments -/

namespace DateFunction

variable {f : DateFunction} {date : Date} {m : Moment}

theorem dateArgument_iso : f.dateArgument (.text date.iso) = .ok date := by
  have hblanks : Text.trimBlanks date.iso.toList = date.isoChars := by
    unfold Date.iso
    rw [String.toList_ofList]
    refine Text.trimBlanks_eq_self fun c hc => ?_
    rcases IsoText.mem_isoChars hc with hdigit | rfl
    · exact Text.not_isBlank_of_isDigit hdigit
    · decide
  unfold dateArgument ofText
  dsimp only
  rw [hblanks, IsoText.read?_isoChars]

end DateFunction

/-! ## Parts of a date -/

/-- A part of a date that a formula can ask for. -/
inductive DatePart where
  | year
  | month
  | day

namespace DatePart

/-- The function that asks for a part. -/
def function : DatePart → DateFunction
  | year => .year
  | month => .month
  | day => .day

/-- The part of a date. -/
def of : DatePart → Date → Nat
  | year, d => d.year
  | month, d => d.month
  | day, d => d.day

/-- The call that asks for a part of what an expression comes to. -/
def call (p : DatePart) (e : Expr) : Expr :=
  .call (p.function.name ++ "(") [e]

end DatePart

variable {cells : Cells} {s : Setting} {d : Nat} {e : Expr} {x : Scalar}

/-- What a call of a date function comes to. -/
theorem Expr.ComesTo.callDate {opener : String} {f : DateFunction} {args : List Expr}
    {xs : List Scalar} (hdeep : ∀ depth ≤ d, s.exceeds depth = false)
    (hf : Function.named? (nameOfOpener opener) = some (.date f))
    (h : List.Forall₂ (fun e x => e.ComesTo s cells (d + argumentCost) (.ok x)) args xs) :
    (Expr.call opener args).ComesTo s cells d (f.apply s.strict s.clock xs) :=
  .callWithin hdeep hf (by simp) (by simp) h (.ofExcept _)

/-- A part of a date is that of the date that the argument stands for. -/
theorem comesTo_part (p : DatePart) (he : e.ComesTo s cells (d + argumentCost) (.ok x)) :
    (p.call e).ComesTo s cells d
      ((fun date => .number (.int (p.of date))) <$> p.function.dateArgument x) := by
  have hf : Function.named? (nameOfOpener (p.function.name ++ "(")) = some (.date p.function) := by
    cases p <;> decide
  have hdeep : ∀ depth ≤ d, s.exceeds depth = false := fun depth hdepth =>
    he.not_exceeds (Nat.le_add_right_of_le hdepth)
  have hcall := Expr.ComesTo.callDate hdeep hf (.cons he .nil)
  have happly : p.function.apply s.strict s.clock [x] =
      (fun date => .number (.int (p.of date))) <$> p.function.dateArgument x := by
    cases p <;> rfl
  rwa [happly] at hcall

theorem comesTo_part_iso {date : Date} (p : DatePart)
    (he : e.ComesTo s cells (d + argumentCost) (.ok (.text date.iso))) :
    (p.call e).ComesTo s cells d (.ok (.number (.int (p.of date)))) := by
  have hpart := comesTo_part p he
  rwa [DateFunction.dateArgument_iso] at hpart

/-! ## Dates of parts -/

namespace DateFunction

/-- Whether an integer has 32 bits, as a part of a date has to. -/
def FitsPart (n : Int) : Prop :=
  -0x80000000 ≤ n ∧ n < 0x80000000

theorem checkPart_cases (n : Int) :
    FitsPart n ∧ checkPart n = .ok () ∨
      ¬ FitsPart n ∧ ∃ cause, checkPart n = .error cause ∧ cause.kind = .arithmetic := by
  unfold checkPart FitsPart
  split
  · next h =>
      simp only [Bool.or_eq_true, decide_eq_true_eq] at h
      exact .inr ⟨by omega, _, rfl, rfl⟩
  · split
    · exact .inr ⟨by omega, _, rfl, rfl⟩
    · split
      · exact .inr ⟨by omega, _, rfl, rfl⟩
      · exact .inl ⟨by omega, rfl⟩

variable {year month day : Int}

/-- Parts of a date make that date, and other integers are refused, for one of two reasons. -/
inductive Makes (year month day : Int) : Except Failure Date → Prop where
  | date (d : Date) : (d.year : Int) = year → (d.month : Int) = month → (d.day : Int) = day →
      Makes year month day (.ok d)
  | noDate (fault : DateFault) : ¬ Date.AreParts year month day →
      FitsPart year ∧ FitsPart month ∧ FitsPart day →
      Makes year month day (.error (.noSuchDate fault))
  | tooLong {cause : Failure} : ¬ (FitsPart year ∧ FitsPart month ∧ FitsPart day) →
      cause.kind = .arithmetic → Makes year month day (.error cause)

theorem makes_ofParts (year month day : Int) : Makes year month day (ofParts year month day) := by
  unfold ofParts
  rcases checkPart_cases year with ⟨hy, hcheck⟩ | ⟨hy, cause, hcheck, hkind⟩
  case inr => rw [hcheck]; exact .tooLong (fun h => hy h.1) hkind
  rw [hcheck]
  rcases checkPart_cases month with ⟨hm, hcheck⟩ | ⟨hm, cause, hcheck, hkind⟩
  case inr => rw [hcheck]; exact .tooLong (fun h => hm h.2.1) hkind
  rw [hcheck]
  rcases checkPart_cases day with ⟨hd, hcheck⟩ | ⟨hd, cause, hcheck, hkind⟩
  case inr => rw [hcheck]; exact .tooLong (fun h => hd h.2.2) hkind
  rw [hcheck]
  by_cases h : Date.AreParts year month day
  · obtain ⟨d, rfl, rfl, rfl⟩ := Date.areParts_iff.mp h
    simp only [Date.ofParts_date]
    exact .date d rfl rfl rfl
  · obtain ⟨fault, hfault⟩ := Date.exists_ofParts_error (toString year) h
    simp only [hfault]
    exact .noDate fault h ⟨hy, hm, hd⟩

/-- The parts of a date have 32 bits. -/
theorem fitsPart_of_areParts (h : Date.AreParts year month day) :
    FitsPart year ∧ FitsPart month ∧ FitsPart day := by
  obtain ⟨d, rfl, rfl, rfl⟩ := Date.areParts_iff.mp h
  have := d.year_lt
  have := d.month_lt
  have := d.day_lt
  unfold FitsPart
  omega

end DateFunction

variable {a b c : Expr} {year month day : Int}

theorem comesTo_date (ha : a.ComesTo s cells (d + argumentCost) (.ok (.number (.int year))))
    (hb : b.ComesTo s cells (d + argumentCost) (.ok (.number (.int month))))
    (hc : c.ComesTo s cells (d + argumentCost) (.ok (.number (.int day)))) :
    (Expr.call "DATE(" [a, b, c]).ComesTo s cells d
      ((fun date => .text date.iso) <$> DateFunction.ofParts year month day) := by
  have hf : Function.named? (nameOfOpener "DATE(") = some (.date .date) := by decide
  have hdeep : ∀ depth ≤ d, s.exceeds depth = false := fun depth hdepth =>
    ha.not_exceeds (Nat.le_add_right_of_le hdepth)
  exact .callDate hdeep hf (.cons ha (.cons hb (.cons hc .nil)))

/-- **`DATE` makes the dates that there are.**  It succeeds exactly for the year, the month and the day
of a date, and these are the parts of what it comes to.  Any other integers are refused, with a
failure of the domain exactly if all three have 32 bits, and one of arithmetic if not. -/
theorem date_succeeds_iff
    (ha : a.ComesTo s cells (d + argumentCost + argumentCost) (.ok (.number (.int year))))
    (hb : b.ComesTo s cells (d + argumentCost + argumentCost) (.ok (.number (.int month))))
    (hc : c.ComesTo s cells (d + argumentCost + argumentCost) (.ok (.number (.int day)))) :
    ((∃ x, (Expr.call "DATE(" [a, b, c]).ComesTo s cells d (.ok x)) ↔
      Date.AreParts year month day) ∧
    (Date.AreParts year month day →
      (DatePart.year.call (.call "DATE(" [a, b, c])).ComesTo s cells d
        (.ok (.number (.int year))) ∧
      (DatePart.month.call (.call "DATE(" [a, b, c])).ComesTo s cells d
        (.ok (.number (.int month))) ∧
      (DatePart.day.call (.call "DATE(" [a, b, c])).ComesTo s cells d
        (.ok (.number (.int day)))) ∧
    (¬ Date.AreParts year month day → ∃ cause,
      (Expr.call "DATE(" [a, b, c]).ComesTo s cells d (.error cause) ∧
      (cause.kind = .domain ∨ cause.kind = .arithmetic) ∧
      (cause.kind = .domain ↔ DateFunction.FitsPart year ∧ DateFunction.FitsPart month ∧
        DateFunction.FitsPart day)) := by
  have hcall := comesTo_date ha hb hc
  have hmakes := DateFunction.makes_ofParts year month day
  generalize DateFunction.ofParts year month day = result at hcall hmakes
  cases hmakes with
  | date date hyear hmonth hday =>
      have hparts : Date.AreParts year month day := Date.areParts_iff.mpr ⟨date, hyear, hmonth, hday⟩
      refine ⟨⟨fun _ => hparts, fun _ => ⟨_, hcall.mono (Nat.le_add_right _ _)⟩⟩,
        fun _ => ⟨?_, ?_, ?_⟩, fun h => absurd hparts h⟩
      · exact hyear ▸ comesTo_part_iso .year hcall
      · exact hmonth ▸ comesTo_part_iso .month hcall
      · exact hday ▸ comesTo_part_iso .day hcall
  | noDate fault hparts hfits =>
      have hfails := hcall.mono (Nat.le_add_right d argumentCost)
      refine ⟨⟨?_, fun h => absurd h hparts⟩, fun h => absurd h hparts,
        fun _ => ⟨_, hfails, .inl rfl, fun _ => hfits, fun _ => rfl⟩⟩
      rintro ⟨x, hx⟩
      cases hx.unique hfails
  | tooLong hfits hkind =>
      have hfails := hcall.mono (Nat.le_add_right d argumentCost)
      have hparts : ¬ Date.AreParts year month day :=
        mt DateFunction.fitsPart_of_areParts hfits
      refine ⟨⟨?_, fun h => absurd h hparts⟩, fun h => absurd h hparts,
        fun _ => ⟨_, hfails, .inr hkind, ?_, fun h => absurd h hfits⟩⟩
      · rintro ⟨x, hx⟩
        cases hx.unique hfails
      · rw [hkind]
        exact nofun

/-- The last day of a February with 29 days, and the day after it. -/
theorem date_leapDay :
    let s : Setting := ⟨false, noon, none, []⟩
    let year : Expr := .number "2000"
    let month : Expr := .number "2"
    let day : Expr := .number "29"
    let next : Expr := .number "30"
    year.ComesTo s .empty 6 (.ok (.number (.int 2000))) ∧
      month.ComesTo s .empty 6 (.ok (.number (.int 2))) ∧
      day.ComesTo s .empty 6 (.ok (.number (.int 29))) ∧
      next.ComesTo s .empty 6 (.ok (.number (.int 30))) ∧
      (DatePart.day.call (.call "DATE(" [year, month, day])).ComesTo s .empty 0
        (.ok (.number (.int 29))) ∧
      ∃ cause, (Expr.call "DATE(" [year, month, next]).ComesTo s .empty 0 (.error cause) ∧
        cause.kind = .domain := by
  intro s year month day next
  have hdeep : ∀ depth ≤ 0 + argumentCost + argumentCost, s.exceeds depth = false := fun _ _ => rfl
  have hyear : year.ComesTo s .empty (0 + argumentCost + argumentCost)
      (.ok (.number (.int 2000))) := .number hdeep (by cbv)
  have hmonth : month.ComesTo s .empty (0 + argumentCost + argumentCost)
      (.ok (.number (.int 2))) := .number hdeep (by cbv)
  have hday : day.ComesTo s .empty (0 + argumentCost + argumentCost)
      (.ok (.number (.int 29))) := .number hdeep (by cbv)
  have hnext : next.ComesTo s .empty (0 + argumentCost + argumentCost)
      (.ok (.number (.int 30))) := .number hdeep (by cbv)
  have hexists : Date.AreParts 2000 2 29 := by unfold Date.AreParts; decide
  have hnone : ¬ Date.AreParts 2000 2 30 := by unfold Date.AreParts; decide
  obtain ⟨-, hparts, -⟩ := date_succeeds_iff hyear hmonth hday
  obtain ⟨-, -, hrefused⟩ := date_succeeds_iff hyear hmonth hnext
  obtain ⟨cause, hcause, -, hkind⟩ := hrefused hnone
  exact ⟨hyear, hmonth, hday, hnext, (hparts hexists).2.2, cause, hcause,
    hkind.mpr (by unfold DateFunction.FitsPart; decide)⟩

/-- A year that does not fit 32 bits. -/
theorem date_beyondWord :
    evaluate false noon none .empty (.text "=DATE(3000000000,1,1)") =
        pure (.error .datePartTooGreat) ∧
      ¬ Date.AreParts 3000000000 1 1 ∧ Failure.kind .datePartTooGreat ≠ .domain := by
  have hparse : parse "=DATE(3000000000,1,1)" =
      .ok (.call "DATE(" [.number "3000000000", .number "1", .number "1"]) := by cbv
  have hdeep : ∀ depth ≤ 0 + argumentCost, (Setting.mk false noon none []).exceeds depth = false :=
    fun _ _ => rfl
  have hyear : (Expr.number "3000000000").ComesTo ⟨false, noon, none, []⟩ .empty (0 + argumentCost)
      (.ok (.number (.int 3000000000))) := .number hdeep (by cbv)
  have hone : (Expr.number "1").ComesTo ⟨false, noon, none, []⟩ .empty (0 + argumentCost)
      (.ok (.number (.int 1))) := .number hdeep (by cbv)
  have hfails : DateFunction.ofParts 3000000000 1 1 = .error .datePartTooGreat := by
    decide
  have hcall := comesTo_date hyear hone hone
  rw [hfails] at hcall
  exact ⟨hcall.evaluate_eq (by cbv) hparse, by unfold Date.AreParts; decide, by decide⟩

end Worksheet.Formula
