import Worksheet.Proofs.Calls
import Worksheet.Proofs.Results

/-!
# The ends of a text

The first characters of a text are cut off at a position that is counted from its front, and a count
beyond the text leaves all of it.  The last ones are cut off at the length of the text less the
count.  A count beyond the text makes that negative, and a negative position is counted from the
back: what is left then is as many characters as the count exceeds the text by.
-/

namespace Worksheet.Formula

namespace TextFunction

/-! ## Cutting a list -/

variable {n : Nat} {cs : List Char}

/-- The number of characters that are taken from the end of a text. -/
def endLength (n length : Nat) : Nat :=
  if n ≤ length then n else min (n - length) length

/-- Taking from the end leaves the end. -/
theorem exists_append_takeRight (n : Nat) (cs : List Char) :
    ∃ front, front ++ takeRight n cs = cs := by
  unfold takeRight
  split
  · exact ⟨_, List.take_append_drop _ cs⟩
  · exact ⟨_, List.take_append_drop _ cs⟩

theorem length_takeRight : (takeRight n cs).length = endLength n cs.length := by
  unfold takeRight endLength
  split
  · rw [List.length_drop]
    omega
  · rw [List.length_drop]
    omega

/-- As many characters are taken as asked for, unless the count exceeds the length, and is less than
twice the length. -/
theorem endLength_eq_min_iff {length : Nat} :
    endLength n length = min n length ↔ n ≤ length ∨ 2 * length ≤ n := by
  unfold endLength
  split <;> omega

/-- What is before the end, and the end. -/
theorem takeLeft_append_takeRight (h : n ≤ cs.length) :
    takeLeft (cs.length - n) cs ++ takeRight n cs = cs := by
  unfold takeLeft takeRight
  rw [if_pos h]
  exact List.take_append_drop _ cs

/-! ## Arguments -/

variable {strict : Bool} {f : TextFunction} {x : Scalar} {t : String}

theorem countArgument_nat (strict : Bool) (f : TextFunction) (n : Nat) :
    countArgument strict f (.number (.int n)) = .ok n := by
  have hn : ¬ (n : Int) < 0 := Int.not_lt.mpr (Int.natCast_nonneg n)
  have hread : Scalar.asNumber strict (some f.name) (.number (.int n)) = .ok (.int n) := rfl
  have hint : Number.truncate (.int n) = .ok (n : Int) := rfl
  unfold countArgument
  simp only [hread, hint, bind, Except.bind, if_neg hn]
  rfl

theorem mapText_ok (g : List Char → List Char) (hx : x.toText = .ok t) :
    mapText g x = .ok (.text (String.ofList (g t.toList))) := by
  unfold mapText
  rw [hx]
  rfl

theorem apply_left (hx : x.toText = .ok t) :
    apply strict left [x, .number (.int n)] =
      .ok (.text (String.ofList (takeLeft n t.toList))) := by
  show (countArgument strict left (.number (.int n)) >>= fun n => mapText (takeLeft n) x) = _
  rw [countArgument_nat]
  exact mapText_ok _ hx

theorem apply_right (hx : x.toText = .ok t) :
    apply strict right [x, .number (.int n)] =
      .ok (.text (String.ofList (takeRight n t.toList))) := by
  show (countArgument strict right (.number (.int n)) >>= fun n => mapText (takeRight n) x) = _
  rw [countArgument_nat]
  exact mapText_ok _ hx

theorem apply_len (hx : x.toText = .ok t) :
    apply strict len [x] = .ok (.number (.int t.length)) := by
  show (x.toText >>= fun t => Except.ok (Scalar.number (.int t.length))) = _
  rw [hx]
  rfl

end TextFunction

/-! ## Calls -/

variable {cells : Cells} {s : Setting} {d : Nat} {a b : Expr} {x : Scalar} {t : String} {n : Nat}

/-- What a call of a text function comes to. -/
theorem Expr.ComesTo.callText {opener : String} {f : TextFunction} {args : List Expr}
    {xs : List Scalar} (hf : Function.named? (nameOfOpener opener) = some (.text f))
    (h : List.Forall₂ (fun e x => e.ComesTo s cells (d + argumentCost) (.ok x)) (a :: args)
      (x :: xs)) :
    (Expr.call opener (a :: args)).ComesTo s cells d (f.apply s.strict (x :: xs)) :=
  .call hf (by simp) (by simp) h (.ofExcept _)

theorem comesTo_left (ha : a.ComesTo s cells (d + argumentCost) (.ok x)) (hx : x.toText = .ok t)
    (hb : b.ComesTo s cells (d + argumentCost) (.ok (.number (.int n)))) :
    (Expr.call "LEFT(" [a, b]).ComesTo s cells d
      (.ok (.text (String.ofList (TextFunction.takeLeft n t.toList)))) := by
  have hname : Function.named? (nameOfOpener "LEFT(") = some (.text .left) := by decide +kernel
  have hcall := Expr.ComesTo.callText hname (.cons ha (.cons hb .nil))
  rwa [TextFunction.apply_left hx] at hcall

theorem comesTo_right (ha : a.ComesTo s cells (d + argumentCost) (.ok x)) (hx : x.toText = .ok t)
    (hb : b.ComesTo s cells (d + argumentCost) (.ok (.number (.int n)))) :
    (Expr.call "RIGHT(" [a, b]).ComesTo s cells d
      (.ok (.text (String.ofList (TextFunction.takeRight n t.toList)))) := by
  have hname : Function.named? (nameOfOpener "RIGHT(") = some (.text .right) := by decide +kernel
  have hcall := Expr.ComesTo.callText hname (.cons ha (.cons hb .nil))
  rwa [TextFunction.apply_right hx] at hcall

theorem comesTo_len (ha : a.ComesTo s cells (d + argumentCost) (.ok x)) (hx : x.toText = .ok t) :
    (Expr.call "LEN(" [a]).ComesTo s cells d (.ok (.number (.int t.length))) := by
  have hname : Function.named? (nameOfOpener "LEN(") = some (.text .len) := by decide +kernel
  have hcall := Expr.ComesTo.callText hname (.cons ha .nil)
  rwa [TextFunction.apply_len hx] at hcall

/-- The length of a text less a count. -/
theorem comesTo_rest (ha : a.ComesTo s cells (d + argumentCost + operandCost) (.ok x))
    (hx : x.toText = .ok t) (hb : b.ComesTo s cells (d + operandCost) (.ok (.number (.int n))))
    (h : n ≤ t.length) :
    (Expr.binary .sub (.call "LEN(" [a]) b).ComesTo s cells d
      (.ok (.number (.int (t.length - n : Nat)))) := by
  rw [Nat.add_right_comm] at ha
  have hminus : arithmetic? .sub = some Number.sub := rfl
  have hrest := Expr.ComesTo.arithmetic hminus (comesTo_len ha hx) rfl hb rfl
  have hdifference : compute Number.sub (.int t.length) (.int n) =
      .ok (.number (.int (t.length - n : Nat))) := by
    rw [Int.natCast_sub h]
    rfl
  rwa [hdifference] at hrest

/-- **What `RIGHT` takes is an end of the text.**  It has as many characters as asked for, or all if
there are fewer, exactly if the count is at most the length or at least twice the length.  With a
count in between, it has as many as the count exceeds the length by.  And a text is what `LEFT`
takes but for the last characters, followed by what `RIGHT` takes, as long as there are enough. -/
theorem right_isEnd_iff (ha : a.ComesTo s cells (d + 8) (.ok x)) (hx : x.toText = .ok t)
    (hb : b.ComesTo s cells (d + 8) (.ok (.number (.int n)))) :
    (∃ front back, front ++ back = t ∧
      (Expr.call "RIGHT(" [a, b]).ComesTo s cells d (.ok (.text back)) ∧
      back.length = (if n ≤ t.length then n else min (n - t.length) t.length) ∧
      (back.length = min n t.length ↔ n ≤ t.length ∨ 2 * t.length ≤ n)) ∧
    (n ≤ t.length →
      (Expr.binary .concat (.call "LEFT(" [a, .binary .sub (.call "LEN(" [a]) b])
        (.call "RIGHT(" [a, b])).ComesTo s cells d (.ok (.text t))) := by
  have hcosts : operandCost = 1 ∧ argumentCost = 3 := ⟨rfl, rfl⟩
  obtain ⟨front, hfront⟩ := TextFunction.exists_append_takeRight n t.toList
  have hlength : (String.ofList (TextFunction.takeRight n t.toList)).length =
      TextFunction.endLength n t.length := by
    rw [String.length_ofList, TextFunction.length_takeRight, String.length_toList]
  constructor
  · refine ⟨String.ofList front, _, ?_, comesTo_right (ha.mono (by omega)) hx (hb.mono (by omega)),
      hlength, ?_⟩
    · rw [← String.ofList_append, hfront, String.ofList_toList]
    · rw [hlength]
      exact TextFunction.endLength_eq_min_iff
  · intro h
    have hrest := comesTo_rest (d := d + operandCost + argumentCost) (ha.mono (by omega)) hx
      (hb.mono (by omega)) h
    have hleft := comesTo_left (d := d + operandCost) (ha.mono (by omega)) hx hrest
    have hright := comesTo_right (d := d + operandCost) (ha.mono (by omega)) hx (hb.mono (by omega))
    have hwhole := hleft.concat rfl hright rfl
    rw [← String.length_toList] at h
    rw [← String.ofList_append, ← String.length_toList,
      TextFunction.takeLeft_append_takeRight h, String.ofList_toList] at hwhole
    exact hwhole

/-- The last two characters of a text, and the others before them. -/
theorem right_twoOfHello :
    let s : Setting := ⟨false, noon, none, []⟩
    let hello : Expr := .text "\"hello\""
    let two : Expr := .number "2"
    hello.ComesTo s .empty 8 (.ok (.text "hello")) ∧
      two.ComesTo s .empty 8 (.ok (.number (.int 2))) ∧
      (∃ front back, front ++ back = "hello" ∧
        (Expr.call "RIGHT(" [hello, two]).ComesTo s .empty 0 (.ok (.text back)) ∧ back.length = 2) ∧
      (Expr.binary .concat (.call "LEFT(" [hello, .binary .sub (.call "LEN(" [hello]) two])
        (.call "RIGHT(" [hello, two])).ComesTo s .empty 0 (.ok (.text "hello")) := by
  intro s hello two
  have hdeep : ∀ depth ≤ 8, s.exceeds depth = false := fun _ _ => rfl
  have hhello : hello.ComesTo s .empty (0 + 8) (.ok (.text "hello")) := by
    have hliteral : textLiteral "\"hello\"" = "hello" := by decide +kernel
    rw [← hliteral]
    exact .text hdeep
  have htwo : two.ComesTo s .empty (0 + 8) (.ok (.number (.int (2 : Nat)))) :=
    .number hdeep (by cbv)
  obtain ⟨⟨front, back, happend, hright, hlength, _⟩, hwhole⟩ := right_isEnd_iff hhello rfl htwo
  exact ⟨hhello, htwo, ⟨front, back, happend, hright, hlength⟩, hwhole (by decide +kernel)⟩

/-- Seven characters of a text with five. -/
theorem right_sevenOfHello :
    evaluate false noon none .empty (.text "=RIGHT(\"hello\",7)") = pure (.ok (.text "lo")) ∧
      "lo".length ≠ min 7 "hello".length := by
  have hparse : parse "=RIGHT(\"hello\",7)" =
      .ok (.call "RIGHT(" [.text "\"hello\"", .number "7"]) := by cbv
  have hliteral : textLiteral "\"hello\"" = "hello" := by decide +kernel
  have hdeep : ∀ depth ≤ 0 + argumentCost, (Setting.mk false noon none []).exceeds depth = false :=
    fun _ _ => rfl
  have hseven : (Expr.number "7").ComesTo ⟨false, noon, none, []⟩ .empty (0 + argumentCost)
      (.ok (.number (.int (7 : Nat)))) := .number hdeep (by cbv)
  have hright := comesTo_right (.text hdeep) (by rw [hliteral]; rfl) hseven
  have hback : TextFunction.takeRight 7 "hello".toList = ['l', 'o'] := by decide +kernel
  rw [hback] at hright
  exact ⟨hright.evaluate_eq (by decide +kernel) hparse, by decide +kernel⟩

end Worksheet.Formula
