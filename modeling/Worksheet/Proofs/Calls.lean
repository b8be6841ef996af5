import Worksheet.Proofs.PlainCells

/-!
# What expressions come to, from what their parts come to

Among plain cells, an expression comes to what its operator or function makes of the outcomes of its
parts.  The parts are nested more deeply than the whole, so an outcome is given for all levels of
nesting up to one.  Where the levels are not limited that is any level.
-/

namespace Worksheet.Formula

variable {cells : Cells} {s : Setting} {d : Nat}

theorem Evaluation.ComesTo.of_ok {α β : Type} {x : Evaluation α} {a : α} {f : α → Evaluation β}
    {r : Except Failure β} (hx : x.ComesTo cells (.ok a)) (hf : (f a).ComesTo cells r) :
    (x >>= f).ComesTo cells r := by
  show (x.run.bind _).answeredBy cells = _
  rw [answeredBy_bind, hx]
  exact hf

/-- Whether an expression comes to a result among plain cells, at all levels of nesting up to
one. -/
def Expr.ComesTo (s : Setting) (cells : Cells) (d : Nat) (e : Expr) (r : Except Failure Scalar) :
    Prop :=
  ∀ depth ≤ d, (eval s depth e).ComesTo cells r

namespace Expr.ComesTo

variable {e left right : Expr} {r : Except Failure Scalar} {x y : Scalar}

theorem mono {d' : Nat} (h : e.ComesTo s cells d' r) (hd : d ≤ d') : e.ComesTo s cells d r :=
  fun depth hdepth => h depth (Nat.le_trans hdepth hd)

/-- An expression comes to one result. -/
theorem unique {r' : Except Failure Scalar} (h : e.ComesTo s cells d r)
    (h' : e.ComesTo s cells d r') : r = r' :=
  congrArg Prod.fst (congrFun ((h 0 (Nat.zero_le d)).symm.trans (h' 0 (Nat.zero_le d)))
    (.scripted [] []))

/-- An expression that is nested too deeply has no value. -/
theorem not_exceeds (h : e.ComesTo s cells d (.ok x)) {depth : Nat} (hd : depth ≤ d) :
    s.exceeds depth = false := by
  refine Bool.eq_false_iff.mpr fun hexceeds => ?_
  have hvalue := h depth hd
  have hfails : eval s depth e = throw Failure.tooDeep := by
    rw [eval.eq_def, if_pos hexceeds]
  rw [hfails] at hvalue
  cases congrArg Prod.fst (congrFun hvalue (.scripted [] []))

/-- What a formula comes to. -/
theorem evaluate_eq {strict : Bool} {clock : Moment} {limit : Option Nat} {text : String}
    (h : e.ComesTo ⟨strict, clock, limit, cells.keys⟩ cells d r)
    (hformula : (Value.text text).formula? = some text) (hparse : parse text = .ok e) :
    evaluate strict clock limit cells (.text text) = pure (Scalar.toValue <$> r) := by
  unfold evaluate
  rw [hformula]
  dsimp only
  unfold outcomeAt
  rw [hparse]
  exact Evaluation.ComesTo.bind (h 0 (Nat.zero_le d)) fun v => rfl

/-! ## Literals -/

theorem number {text : String} {n : Number} (hdeep : ∀ depth ≤ d, s.exceeds depth = false)
    (hn : numberLiteral text = .ok n) : (Expr.number text).ComesTo s cells d (.ok (.number n)) := by
  intro depth hdepth
  rw [eval, hdeep depth hdepth, hn]
  rfl

theorem text {literal : String} (hdeep : ∀ depth ≤ d, s.exceeds depth = false) :
    (Expr.text literal).ComesTo s cells d (.ok (.text (textLiteral literal))) := by
  intro depth hdepth
  rw [eval, hdeep depth hdepth]
  rfl

/-! ## Operators -/

theorem concat {t u : String} (hl : left.ComesTo s cells (d + operandCost) (.ok x))
    (hx : x.toText = .ok t) (hr : right.ComesTo s cells (d + operandCost) (.ok y))
    (hy : y.toText = .ok u) :
    (Expr.binary .concat left right).ComesTo s cells d (.ok (.text (t ++ u))) := by
  intro depth hdepth
  have hoperand : depth + operandCost ≤ d + operandCost := Nat.add_le_add_right hdepth _
  rw [eval, hl.not_exceeds (Nat.le_add_right_of_le hdepth)]
  refine .of_ok (hl _ hoperand) (.of_ok (hr _ hoperand) ?_)
  dsimp only
  rw [hx, hy]
  rfl

theorem arithmetic {op : BinaryOp} {f : Number → Number → Except Failure Number} {m n : Number}
    (hop : arithmetic? op = some f) (hl : left.ComesTo s cells (d + operandCost) (.ok x))
    (hx : x.asNumber s.strict none = .ok m)
    (hr : right.ComesTo s cells (d + operandCost) (.ok y))
    (hy : y.asNumber s.strict none = .ok n) :
    (Expr.binary op left right).ComesTo s cells d (compute f m n) := by
  intro depth hdepth
  have hoperand : depth + operandCost ≤ d + operandCost := Nat.add_le_add_right hdepth _
  rw [eval, hl.not_exceeds (Nat.le_add_right_of_le hdepth), hop]
  refine .of_ok (hl _ hoperand) ?_
  rw [hx]
  refine .of_ok rfl (.of_ok (hr _ hoperand) ?_)
  rw [hy]
  rfl

/-! ## Calls -/

/-- Arguments that all have values. -/
theorem evalAll {args : List Expr} {xs : List Scalar}
    (h : List.Forall₂ (fun e x => e.ComesTo s cells d (.ok x)) args xs) {depth : Nat}
    (hdepth : depth + argumentCost ≤ d) : (evalAll s depth args).ComesTo cells (.ok xs) := by
  induction h with
  | nil =>
      rw [Formula.evalAll]
      rfl
  | cons h _ ih =>
      rw [Formula.evalAll]
      exact .of_ok (h _ hdepth) (.of_ok ih rfl)

/-- The call of a function of values. -/
theorem callWithin {opener : String} {f : Function} {args : List Expr} {xs : List Scalar}
    (hdeep : ∀ depth ≤ d, s.exceeds depth = false)
    (hf : Function.named? (nameOfOpener opener) = some f) (hconditional : ∀ g, f ≠ .conditional g)
    (haggregate : ∀ g, f ≠ .aggregate g)
    (h : List.Forall₂ (fun e x => e.ComesTo s cells (d + argumentCost) (.ok x)) args xs)
    (hr : (f.apply s xs).ComesTo cells r) : (Expr.call opener args).ComesTo s cells d r := by
  intro depth hdepth
  rw [eval, hdeep depth hdepth]
  dsimp only
  rw [hf]
  have hcalled := (evalAll h (Nat.add_le_add_right hdepth _)).of_ok hr
  cases f with
  | conditional g => exact absurd rfl (hconditional g)
  | aggregate g => exact absurd rfl (haggregate g)
  | _ => exact hcalled

/-- The call of a function of values, with at least one argument. -/
theorem call {opener : String} {f : Function} (hf : Function.named? (nameOfOpener opener) = some f)
    (hconditional : ∀ g, f ≠ .conditional g) (haggregate : ∀ g, f ≠ .aggregate g) {args : List Expr}
    {xs : List Scalar}
    (h : List.Forall₂ (fun e x => e.ComesTo s cells (d + argumentCost) (.ok x)) (e :: args)
      (x :: xs))
    (hr : (f.apply s (x :: xs)).ComesTo cells r) :
    (Expr.call opener (e :: args)).ComesTo s cells d r := by
  obtain ⟨hfirst, _⟩ := List.forall₂_cons.mp h
  exact callWithin (fun depth hdepth => hfirst.not_exceeds (Nat.le_add_right_of_le hdepth)) hf
    hconditional haggregate h hr

end Expr.ComesTo

end Worksheet.Formula
