import Worksheet.Proofs.Calls
import Worksheet.Proofs.Integers
import Worksheet.Proofs.Parsing

/-!
# Numbers in formulas and numbers in cells

What the grammar takes for a number is a numeral as well, also with blanks around it.  So a number
comes to the same in a formula and in a cell: an integer if it is digits alone and a binary64 number
otherwise, unless it has too many digits or is too large.
-/

namespace Worksheet

/-! ## Blanks around a text -/

namespace Text

theorem dropWhile_blanks {front : List Char} (h : ∀ c ∈ front, isBlank c) (cs : List Char) :
    (front ++ cs).dropWhile isBlank = cs.dropWhile isBlank :=
  List.dropWhile_append_of_pos h

theorem trimRight_blanks {back : List Char} (h : ∀ c ∈ back, isBlank c) (cs : List Char) :
    trimRight (cs ++ back) = trimRight cs := by
  unfold trimRight
  rw [List.reverse_append, dropWhile_blanks fun c hc => h c (List.mem_reverse.mp hc)]

/-- Blanks at the end make no difference. -/
theorem trimBlanks_append {back : List Char} (h : ∀ c ∈ back, isBlank c) (cs : List Char) :
    trimBlanks (cs ++ back) = trimBlanks cs := by
  unfold trimBlanks
  rw [List.dropWhile_append]
  split
  next hnone =>
      have hback := dropWhile_blanks h []
      rw [List.append_nil, List.dropWhile_nil] at hback
      rw [hback, List.isEmpty_iff.mp hnone]
  next => exact trimRight_blanks h _

/-- A text that neither starts nor ends with a blank has none around it. -/
theorem trimBlanks_of_ends {cs : List Char} (hhead : ∀ c ∈ cs.head?, ¬ isBlank c)
    (hlast : ∀ c ∈ cs.getLast?, ¬ isBlank c) : trimBlanks cs = cs := by
  have hkeeps : ∀ l : List Char, (∀ c ∈ l.head?, ¬ isBlank c) → l.dropWhile isBlank = l := by
    intro l hl
    cases l with
    | nil => rfl
    | cons c l => exact List.dropWhile_cons_of_neg (hl c rfl)
  unfold trimBlanks trimRight
  rw [hkeeps cs hhead, hkeeps cs.reverse (by rwa [List.head?_reverse]), List.reverse_reverse]

/-- Blanks around a text make no difference. -/
theorem trimBlanks_surrounded {front back cs : List Char} (hfront : ∀ c ∈ front, isBlank c)
    (hback : ∀ c ∈ back, isBlank c) (hhead : ∀ c ∈ cs.head?, ¬ isBlank c)
    (hlast : ∀ c ∈ cs.getLast?, ¬ isBlank c) : trimBlanks (front ++ cs ++ back) = cs := by
  rw [trimBlanks_append hback]
  have hfront' : trimBlanks (front ++ cs) = trimBlanks cs := by
    unfold trimBlanks
    rw [dropWhile_blanks hfront]
  rw [hfront', trimBlanks_of_ends hhead hlast]

end Text

namespace Formula

open Decimal

/-- An exponent is read whole. -/
theorem IsExponent.read {cs : List Char} (h : IsExponent cs) :
    EndsDigits cs ∧
      ∃ power, Numeral.readExponent? cs = some power ∧ (power.isNone ↔ cs = []) := by
  obtain rfl | ⟨e, sign, digits, rfl, he, hsign, hdigits⟩ := h
  · exact ⟨by simp [EndsDigits], none, rfl, by simp⟩
  obtain ⟨d, ds, rfl, hd⟩ := hdigits.head
  obtain ⟨negative, hspan⟩ : ∃ negative, spanSign (sign ++ d :: ds) = (negative, d :: ds) := by
    rcases hsign with rfl | rfl | rfl
    · exact ⟨false, spanSign_of_isDigit hd ds⟩
    · exact ⟨false, rfl⟩
    · exact ⟨true, rfl⟩
  have he' : (decide (e = 'e') || decide (e = 'E')) = true := by simpa using he
  have hread : ∃ n, Numeral.readExponent? (e :: (sign ++ d :: ds)) = some (some n) := by
    rw [Numeral.readExponent?, if_pos he', hspan]
    dsimp only
    rw [spanDigits_of_isDigit hdigits.2]
    exact ⟨_, rfl⟩
  obtain ⟨n, hread⟩ := hread
  refine ⟨fun c hc => ?_, some n, hread, by simp⟩
  obtain rfl := Option.some.inj hc
  rcases he with rfl | rfl <;> exact ⟨rfl, by decide⟩

/-- **What the grammar takes for a number is a numeral**, and one without point and exponent exactly
if it is digits alone. -/
theorem read?_of_isNumber {cs : List Char} (h : IsNumber cs) :
    ∃ n, Numeral.read? cs = some n ∧ (n.isInteger ↔ IsDigits cs) := by
  obtain ⟨mantissa, exponent, rfl, hmantissa, hexponent⟩ := h
  obtain ⟨hends, power, hpower, hnone⟩ := hexponent.read
  rcases hmantissa with hdigits | ⟨whole, fraction, rfl, hwhole, hfraction, hne⟩
  · refine ⟨_, read?_whole hdigits.1 hdigits.2 hends hpower, ?_⟩
    simp only [Numeral.isInteger, Option.isNone_none, Bool.true_and, hnone]
    constructor
    · rintro rfl
      rwa [List.append_nil]
    · intro hall
      cases exponent with
      | nil => rfl
      | cons c exponent =>
          -- an exponent starts with a letter
          have hc := hall.2 c (List.mem_append_right _ List.mem_cons_self)
          have hdigit := (hends c rfl).1
          have hlow : c.toNat < 128 := by
            have := Address.isDigit_iff.mp hc
            omega
          rw [Text.digitValue?, if_pos hlow, if_pos hc] at hdigit
          cases hdigit
  · rw [List.append_assoc, List.cons_append]
    refine ⟨_, read?_point hne hwhole hfraction hends hpower, ?_⟩
    simp only [Numeral.isInteger, Option.isNone_some, Bool.false_and, Bool.false_eq_true, false_iff]
    exact fun hall => absurd (hall.2 '.' (by simp)) (by decide)

/-! ## The two ways of reading a number -/

theorem IsNumber.not_isBlank_head {cs : List Char} (h : IsNumber cs) :
    ∀ c ∈ cs.head?, ¬ Text.isBlank c := by
  obtain ⟨c, ds, rfl, hc⟩ := h.head
  intro c' hc'
  obtain rfl := Option.some.inj hc'
  rcases hc with hc | rfl
  · exact not_isBlank_of_isNameChar (isNameChar_of_isDigit hc)
  · decide

theorem IsNumber.not_isBlank_last {cs : List Char} (h : IsNumber cs) :
    ∀ c ∈ cs.getLast?, ¬ Text.isBlank c := by
  obtain ⟨front, c, rfl, hc⟩ := h.last
  intro c' hc'
  rw [List.getLast?_concat] at hc'
  exact Option.some.inj hc' ▸ hc.not_isBlank

/-- A text that cannot be read as a formula fails as such. -/
theorem Reading.kind_of_run {r : Reading} {stop : Stop} {ts : List Token} {cause : Failure}
    (h : r.run stop ts = .error cause) : cause.kind = .parse := by
  induction ts generalizing r with
  | nil =>
      unfold Reading.run at h
      split at h
      case h_1 => exact Except.error.inj h ▸ rfl
      case h_2 =>
          split at h
          case h_1 => cases h
          case h_2 => exact Except.error.inj h ▸ rfl
  | cons t ts ih =>
      unfold Reading.run at h
      dsimp only at h
      split at h
      case h_1 => exact ih h
      case h_2 => exact Except.error.inj h ▸ rfl

theorem kind_of_parse {text : String} {cause : Failure} (h : parse text = .error cause) :
    cause.kind = .parse := by
  unfold parse at h
  split at h
  case h_1 => exact Reading.kind_of_run h
  case h_2 => exact Except.error.inj h ▸ rfl

/-- The formula that is an equals sign and a text. -/
theorem formula?_ofList (cs : List Char) :
    (Value.text (String.ofList ('=' :: cs))).formula? = some (String.ofList ('=' :: cs)) :=
  formula?_text_iff.mpr ⟨rfl, cs, String.toList_ofList⟩

/-- The number that a numeral comes to as a literal. -/
def literalOf (n : Decimal.Numeral) : Except Failure Number := do
  (← Number.ofNumeral n).checked

variable {t gap rest front back a : List Char} {n : Decimal.Numeral} {strict : Bool} {clock : Moment}
  {limit : Option Nat} {cells : Cells}

/-- A number after an equals sign comes to what its numeral does. -/
theorem evaluate_number (ht : IsNumber t) (hn : Decimal.Numeral.read? t = some n) (hgap : Gap gap)
    (hrest : ∀ c ∈ rest, Text.isBlank c) :
    evaluate strict clock limit cells (.text (String.ofList ('=' :: (gap ++ t ++ rest)))) =
      pure (Value.number <$> literalOf n) := by
  have hwritten : Written (.number (String.ofList t)) ('=' :: (gap ++ t)) :=
    ⟨gap, t, hgap, .loosen (by omega) (.number ht), rfl⟩
  have hparse : parse (String.ofList ('=' :: (gap ++ t ++ rest))) =
      .ok (.number (String.ofList t)) := by
    refine parse_of_written ?_
    rw [String.toList_ofList, ← List.cons_append, Text.trimBlanks_append hrest,
      hwritten.trimBlanks]
    exact hwritten
  have hliteral : numberLiteral (String.ofList t) = literalOf n := by
    rw [numberLiteral, String.toList_ofList, hn]
    rfl
  have hvalue : (Expr.number (String.ofList t)).ComesTo ⟨strict, clock, limit, cells.keys⟩ cells 0
      (Scalar.number <$> literalOf n) := by
    intro depth hdepth
    obtain rfl := Nat.le_zero.mp hdepth
    rw [eval, Setting.exceeds_zero, hliteral]
    exact .bind (.ofExcept _) fun m => rfl
  rw [hvalue.evaluate_eq (formula?_ofList _) hparse]
  cases literalOf n <;> rfl

/-- A reference comes to what the cell is read as. -/
theorem evaluate_reference (ha : IsCell a) :
    evaluate strict clock limit cells (.text (String.ofList ('=' :: a))) =
      pure (Scalar.toValue <$> (cells.get (String.ofList a)).toScalar) := by
  have hparse : parse (String.ofList ('=' :: a)) = .ok (.cell (String.ofList a)) := by
    refine (parse_iff_written _).2 _ ?_
    rw [String.toList_ofList]
    exact ⟨[], a, fun c hc => absurd hc List.not_mem_nil, .loosen (by omega) (.cell ha), rfl⟩
  have hvalue : (Expr.cell (String.ofList a)).ComesTo ⟨strict, clock, limit, cells.keys⟩ cells 0
      (cells.get (String.ofList a)).toScalar := by
    intro depth hdepth
    obtain rfl := Nat.le_zero.mp hdepth
    rw [eval, Setting.exceeds_zero]
    exact .of_ok (.readCell _ _) (.ofExcept _)
  exact hvalue.evaluate_eq (formula?_ofList _) hparse

/-- Blanks around a number in a cell make no difference. -/
theorem numberOfText?_blanks (ht : IsNumber t) (hn : Decimal.Numeral.read? t = some n)
    (hfront : ∀ c ∈ front, Text.isBlank c) (hback : ∀ c ∈ back, Text.isBlank c) :
    numberOfText? (String.ofList (front ++ t ++ back)) =
      (fun m => if m.isFinite then some m else none) <$> Number.ofNumeral n := by
  have htrim : Text.trimBlanks (front ++ t ++ back) = t :=
    Text.trimBlanks_surrounded hfront hback ht.not_isBlank_head ht.not_isBlank_last
  rw [numberOfText?, String.toList_ofList, htrim, hn]
  dsimp only
  cases Number.ofNumeral n <;> rfl

theorem StartsExpr.not_isBlank {c : Char} (h : StartsExpr c) : ¬ Text.isBlank c := by
  rcases h with h | rfl | rfl | rfl | rfl
  · exact not_isBlank_of_isNameChar h
  all_goals decide

/-- Only blanks that can stand between tokens can stand before the number of a formula. -/
theorem parse_of_not_gap (ht : IsNumber t) (hgap : ∀ c ∈ gap, Text.isBlank c)
    (hrest : ∀ c ∈ rest, Text.isBlank c) (h : ¬ Gap gap) :
    ∃ cause, parse (String.ofList ('=' :: (gap ++ t ++ rest))) = .error cause ∧
      cause.kind = .parse := by
  cases hparse : parse (String.ofList ('=' :: (gap ++ t ++ rest))) with
  | error cause => exact ⟨cause, rfl, kind_of_parse hparse⟩
  | ok e =>
      have hwritten := written_of_parse hparse
      have htrim : Text.trimBlanks ('=' :: (gap ++ t)) = '=' :: (gap ++ t) := by
        obtain ⟨c, ds, rfl, _⟩ := ht.head
        refine Text.trimBlanks_of_ends (by simp [Text.isBlank]) ?_
        rw [← List.cons_append, List.getLast?_append_cons]
        exact ht.not_isBlank_last
      rw [String.toList_ofList, ← List.cons_append, Text.trimBlanks_append hrest, htrim] at hwritten
      -- the blanks before the number are those before the expression
      obtain ⟨gap', body, hgap', hbody, heq⟩ := hwritten
      obtain ⟨c, cs, rfl, hc⟩ := hbody.head
      have hsame : gap ++ t = gap' ++ c :: cs := List.tail_eq_of_cons_eq heq
      have hstop : StopsRun Text.isBlank (c :: cs) := fun d hd => Option.some.inj hd ▸ hc.not_isBlank
      have htake := congrArg (List.takeWhile Text.isBlank) hsame
      rw [takeWhile_run hgap ht.not_isBlank_head,
        takeWhile_run (fun d hd => isBlank_of_isGap (hgap' d hd)) hstop] at htake
      exact absurd (htake ▸ hgap') h

/-- Such a formula fails as one that cannot be read. -/
theorem evaluate_of_not_gap (ht : IsNumber t) (hgap : ∀ c ∈ gap, Text.isBlank c)
    (hrest : ∀ c ∈ rest, Text.isBlank c) (h : ¬ Gap gap) :
    ∃ cause, evaluate strict clock limit cells
        (.text (String.ofList ('=' :: (gap ++ t ++ rest)))) = pure (.error cause) ∧
      cause.kind = .parse := by
  obtain ⟨cause, hparse, hkind⟩ := parse_of_not_gap ht hgap hrest h
  refine ⟨cause, ?_, hkind⟩
  rw [evaluate, formula?_ofList]
  dsimp only
  rw [outcomeAt, hparse]
  rfl

/-- A cell is read as the number that its text stands for. -/
theorem toScalar_text {s : String} (hs : s ≠ "") :
    (Value.text s).toScalar =
      (fun found : Option Number => (found.map Scalar.number).getD (.cellText s)) <$>
        numberOfText? s := by
  have hfull : (Value.text s).isEmpty = false := by
    rw [Value.isEmpty, String.isEmpty_eq_false_iff]
    exact hs
  rw [Value.toScalar, hfull, Value.number?]
  rcases numberOfText? s with cause | (_ | m) <;> rfl

/-- A reference to a cell whose text stands for a number comes to it, and fails where the number
cannot be read. -/
theorem evaluate_reference_number {s : String} {found : Except Failure Number} (ha : IsCell a)
    (hcell : cells.get (String.ofList a) = .text s) (hs : s ≠ "")
    (hfound : numberOfText? s = some <$> found) :
    evaluate strict clock limit cells (.text (String.ofList ('=' :: a))) =
      pure (Value.number <$> found) := by
  rw [evaluate_reference ha, hcell, toScalar_text hs, hfound]
  cases found <;> rfl

/-- How a number can come out: it has too many digits to be read, or it is read and is finite, or it
is too large. -/
theorem literalOf_cases (n : Decimal.Numeral) :
    (∃ digits, Number.ofNumeral n = .error (.integerTooLongToRead digits) ∧
        literalOf n = .error (.integerTooLongToRead digits)) ∨
      (∃ m, Number.ofNumeral n = .ok m ∧ m.isFinite = true ∧ literalOf n = .ok m ∧
        ((∃ i, m = .int i) ↔ n.isInteger)) ∨
      ∃ m, Number.ofNumeral n = .ok m ∧ m.isFinite = false ∧
        literalOf n = .error .resultOutOfRange := by
  have hread : (∃ digits, Number.ofNumeral n = .error (.integerTooLongToRead digits)) ∨
      ∃ m, Number.ofNumeral n = .ok m ∧ ((∃ i, m = .int i) ↔ n.isInteger) := by
    unfold Number.ofNumeral
    split_ifs with hinteger hlong
    · exact .inl ⟨_, rfl⟩
    · exact .inr ⟨_, rfl, by simp [hinteger]⟩
    · exact .inr ⟨_, rfl, by simp [hinteger]⟩
  rcases hread with ⟨digits, hlong⟩ | ⟨m, hm, hint⟩
  · exact .inl ⟨digits, hlong, by rw [literalOf, hlong]; rfl⟩
  have hliteral : literalOf n = m.checked := by rw [literalOf, hm]; rfl
  cases hfinite : m.isFinite with
  | true => exact .inr (.inl ⟨m, hm, hfinite, by rw [hliteral, Number.checked, hfinite]; rfl, hint⟩)
  | false => exact .inr (.inr ⟨m, hm, hfinite, by rw [hliteral, Number.checked, hfinite]; rfl⟩)

/-- **A number is the same in a formula and in a cell.**  A text that the grammar takes for a number
is put after an equals sign, and also into a cell to which a formula refers, each time with any
blanks around it.  If the one formula comes to a value then so does the other, and it is an integer
exactly if the text is digits alone.  If the number is too large for a float, the text in the cell
counts as no number; if it is an integer with too many digits, both formulas fail for this reason.
Unless blanks are put before the number that cannot stand in a formula, there is no other case. -/
theorem literal_agrees (ht : IsNumber t) (hgap : ∀ c ∈ gap, Text.isBlank c)
    (hrest : ∀ c ∈ rest, Text.isBlank c) (hfront : ∀ c ∈ front, Text.isBlank c)
    (hback : ∀ c ∈ back, Text.isBlank c) (ha : IsCell a)
    (hcell : cells.get (String.ofList a) = .text (String.ofList (front ++ t ++ back)))
    (strict : Bool) (clock : Moment) (limit : Option Nat) (others : Cells) :
    let comesTo (cells : Cells) (formula : List Char) (r : Outcome) : Prop :=
      evaluate strict clock limit cells (.text (String.ofList ('=' :: formula))) = pure r
    let number? := (Value.text (String.ofList (front ++ t ++ back))).number?
    ∃ r, comesTo others (gap ++ t ++ rest) r ∧
      (∀ v, r = .ok v → comesTo cells a (.ok v) ∧
        ∃ m, v = .number m ∧ number? = .ok (some m) ∧ ((∃ i, m = .int i) ↔ IsDigits t)) ∧
      (r = .error .resultOutOfRange → number? = .ok none) ∧
      (∀ digits, r = .error (.integerTooLongToRead digits) →
        comesTo cells a (.error (.integerTooLongToRead digits))) ∧
      (Gap gap → (∃ v, r = .ok v) ∨ r = .error .resultOutOfRange ∨
        ∃ digits, r = .error (.integerTooLongToRead digits)) := by
  intro comesTo number?
  obtain ⟨n, hn, hdigits⟩ := read?_of_isNumber ht
  have hfull : String.ofList (front ++ t ++ back) ≠ "" := by
    obtain ⟨c, ds, rfl, _⟩ := ht.head
    intro hempty
    have hlist := congrArg String.toList hempty
    rw [String.toList_ofList] at hlist
    simp at hlist
  have hnumber : number? = (fun m => if m.isFinite then some m else none) <$> Number.ofNumeral n :=
    numberOfText?_blanks ht hn hfront hback
  by_cases hplain : Gap gap
  case neg =>
      -- none of the cases is that of a formula that cannot be read
      obtain ⟨cause, hfails, hkind⟩ := evaluate_of_not_gap ht hgap hrest hplain
      refine ⟨_, hfails, nofun, fun h => ?_, fun digits h => ?_, fun h => absurd h hplain⟩
      · cases Except.error.inj h
        cases hkind
      · cases Except.error.inj h
        cases hkind
  have hliteral : comesTo others (gap ++ t ++ rest) (Value.number <$> literalOf n) :=
    evaluate_number ht hn hplain hrest
  have hreference : ∀ found, number? = some <$> found → comesTo cells a (Value.number <$> found) :=
    fun _ => evaluate_reference_number ha hcell hfull
  rcases literalOf_cases n with ⟨digits, hlong, hr⟩ | ⟨m, hm, hfinite, hr, hint⟩ |
      ⟨m, hm, hfinite, hr⟩
  · rw [hlong] at hnumber
    rw [hr] at hliteral
    refine ⟨_, hliteral, nofun, nofun, fun digits' h => ?_, fun _ => .inr (.inr ⟨digits, rfl⟩)⟩
    exact h ▸ hreference _ hnumber
  · rw [hm] at hnumber
    rw [hr] at hliteral
    have hfound : number? = .ok (some m) := hnumber.trans (congrArg Except.ok (if_pos hfinite))
    refine ⟨_, hliteral, fun v hv => ?_, nofun, nofun, fun _ => .inl ⟨_, rfl⟩⟩
    exact ⟨hv ▸ hreference (.ok m) hfound, m, (Except.ok.inj hv).symm, hfound, hint.trans hdigits⟩
  · rw [hm] at hnumber
    rw [hr] at hliteral
    refine ⟨_, hliteral, nofun, fun _ => ?_, nofun, fun _ => .inr (.inl rfl)⟩
    exact hnumber.trans (congrArg Except.ok (if_neg (by simp [hfinite])))

/-- A cell with a number that has a point, an exponent, and blanks around it. -/
def exponentCell : Cells :=
  .ofList [("A1", .text "\u00a01.E+5\n")]

/-- The number in that cell is the one that the formula has. -/
theorem literal_agrees_exponent :
    let t := ['1', '.', 'E', '+', '5']
    IsNumber t ∧
      exponentCell.get "A1" = .text (String.ofList (['\u00a0'] ++ t ++ ['\n'])) ∧
      ∀ clock, evaluate true clock none .empty (.text "= 1.E+5\u3000") =
          pure (.ok (.number (.float (.ofInt 100000)))) ∧
        evaluate true clock none exponentCell (.text "=A1") =
          pure (.ok (.number (.float (.ofInt 100000)))) := by
  intro t
  have ht : IsNumber t := ⟨['1', '.'], ['E', '+', '5'], rfl,
    .inr ⟨['1'], [], rfl, forall_mem_of_all rfl, forall_mem_of_all rfl, .inl (by decide)⟩,
    .inr ⟨'E', ['+'], ['5'], rfl, .inr rfl, .inr (.inl rfl), by decide, forall_mem_of_all rfl⟩⟩
  have hcell : exponentCell.get "A1" = .text (String.ofList (['\u00a0'] ++ t ++ ['\n'])) := by cbv
  have hA1 : IsCell ['A', '1'] := ⟨['A'], ['1'], rfl, by decide, forall_mem_of_all (by decide),
    by decide, forall_mem_of_all (by decide)⟩
  have hgap : Gap [' '] := forall_mem_of_all (by decide)
  have hblank : ∀ c ∈ [' '], Text.isBlank c := forall_mem_of_all rfl
  have hrest : ∀ c ∈ ['\u3000'], Text.isBlank c := forall_mem_of_all rfl
  have hn : Decimal.Numeral.read? t = some ⟨false, [1], some [], some 5⟩ := by decide +kernel
  refine ⟨ht, hcell, fun clock => ?_⟩
  have hliteral : evaluate true clock none .empty
      (.text (String.ofList ('=' :: ([' '] ++ t ++ ['\u3000'])))) =
        pure (Value.number <$> literalOf ⟨false, [1], some [], some 5⟩) :=
    evaluate_number ht hn hgap hrest
  have hvalue : literalOf ⟨false, [1], some [], some 5⟩ = .ok (.float (.ofInt 100000)) := by
    decide +kernel
  rw [hvalue] at hliteral
  obtain ⟨r, hr, hagrees, -⟩ := literal_agrees ht hblank hrest (forall_mem_of_all rfl)
    (forall_mem_of_all rfl) hA1 hcell true clock none .empty
  have hr' : .ok (.number (.float (.ofInt 100000))) = r :=
    congrArg Prod.fst (congrFun (hliteral.symm.trans hr) (.scripted [] []))
  exact ⟨hliteral, (hagrees _ hr'.symm).1⟩

end Formula

end Worksheet
