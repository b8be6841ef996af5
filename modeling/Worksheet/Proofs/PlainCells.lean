import Worksheet.Proofs.Lockstep
import Worksheet.Proofs.RangeWalk

/-!
# What a formula sees of plain cells

Among plain cells the outcome of a formula depends on the cells that it reads and on no others.  The
other cells decide how its ranges are walked, and that makes no difference.
-/

namespace Worksheet.Formula

open Dialogue

variable {α β : Type} {cells cells' : Cells} {s : Setting}

/-! ## Reading plain cells -/

theorem answeredBy_bind (cells : Cells) (d : Dialogue α) (f : α → Dialogue β) :
    (d.bind f).answeredBy cells = d.answeredBy cells >>= fun a => (f a).answeredBy cells :=
  run_bind d f

/-- Whether an evaluation draws no random numbers among plain cells and comes to a result. -/
def Evaluation.ComesTo (cells : Cells) (x : Evaluation α) (r : Except Failure α) : Prop :=
  x.run.answeredBy cells = pure r

namespace Evaluation.ComesTo

theorem ofExcept (r : Except Failure α) : (Evaluation.ofExcept r).ComesTo cells r := rfl

theorem readCell (depth : Nat) (a : String) :
    (Evaluation.readCell depth a).ComesTo cells (.ok (cells.get a)) := rfl

theorem bind {x : Evaluation α} {r : Except Failure α} {f : α → Evaluation β}
    {g : α → Except Failure β} (hx : x.ComesTo cells r) (hf : ∀ a, (f a).ComesTo cells (g a)) :
    (x >>= f).ComesTo cells (r >>= g) := by
  show (x.run.bind _).answeredBy cells = _
  rw [answeredBy_bind, hx]
  cases r with
  | error cause => rfl
  | ok a => exact hf a

theorem mapM {f : α → Evaluation β} {g : α → Except Failure β}
    (hf : ∀ a, (f a).ComesTo cells (g a)) (l : List α) :
    (l.mapM f).ComesTo cells (l.mapM g) := by
  induction l with
  | nil => rfl
  | cons a l ih =>
      rw [List.mapM_cons, List.mapM_cons]
      exact bind (hf a) fun b => bind ih fun bs => rfl

/-- A range is read as what is found in it. -/
theorem readRange (hs : s.keys = cells.keys) (depth : Nat) (first last : String)
    (use : Value → Except Failure (Option α)) :
    (readRange s depth first last use).ComesTo cells (cells.inRange first last use) := by
  unfold Formula.readRange Cells.inRange
  rw [← hs]
  refine bind (ofExcept _) fun r => bind (ofExcept _) fun found => bind (mapM (fun a => ?_) found)
    fun _ => rfl
  exact bind (readCell depth a) fun v => ofExcept (use v)

end Evaluation.ComesTo

/-! ## Two sets of cells -/

/-- What is found in a range depends on the cells that it covers. -/
theorem inRange_congr (hrows : ∀ k ∈ cells.keys, Address.RowReadable k)
    (hrows' : ∀ k ∈ cells'.keys, Address.RowReadable k) {first last : String}
    {use : Value → Except Failure (Option α)} (huse : use .null = .ok none)
    (h : ∀ a, Covers (first, last) a → cells.get a = cells'.get a) :
    cells.inRange first last use = cells'.inRange first last use := by
  rw [Cells.inRange_eq hrows huse, Cells.inRange_eq hrows' huse]
  cases hr : Rectangle.ofTexts first last with
  | error cause => rfl
  | ok r =>
  refine congrArg (List.filterMap id <$> ·) (mapM_congr fun a ha => ?_)
  obtain ⟨p, hp, hin⟩ := (Rectangle.mem_addresses_iff hr).mp ha
  rw [h a (Rectangle.covers_of_contains hr hp hin)]

/-- Being answered alike by two sets of cells, which agree on what is read. -/
theorem relates_answeredBy (hs : s.keys = cells.keys)
    (hrows : ∀ k ∈ cells.keys, Address.RowReadable k)
    (hrows' : ∀ k ∈ cells'.keys, Address.RowReadable k) :
    Relates s cells'.keys (· = ·) (Expr.ReadsWithin fun a => cells.get a = cells'.get a)
      (fun _ => True)
      fun {α} (x y : Evaluation α) => x.run.answeredBy cells = y.run.answeredBy cells' where
  ofExcept _ := rfl
  bind {α β x y f g} hxy hfg := by
    show (x.run.bind _).answeredBy cells = (y.run.bind _).answeredBy cells'
    rw [answeredBy_bind, answeredBy_bind, hxy]
    refine congrArg _ (funext fun r => ?_)
    cases r with
    | ok a => exact hfg a
    | error cause => rfl
  exceeds hd := congrArg s.exceeds hd
  deeper cost hd := congrArg (· + cost) hd
  readCell _ ha := congrArg (fun v => (pure (Except.ok v) : StateM RandomSource _)) ha
  readRange {α depth depth' first last use} _ hr huse _ := by
    have hagree : ∀ a, Covers (first, last) a → cells.get a = cells'.get a := by
      rcases hr with hr | ⟨rfl, hr⟩
      · exact hr
      · exact fun a ha => Rectangle.eq_of_covers_self ha ▸ hr
    have hsame := inRange_congr hrows hrows' huse hagree
    exact (Evaluation.ComesTo.readRange hs depth first last use).trans
      ((congrArg pure hsame).trans (Evaluation.ComesTo.readRange rfl depth' first last use).symm)
  attempt {α x y} _ hxy := by
    show (x.run.bind _).answeredBy cells = (y.run.bind _).answeredBy cells'
    rw [answeredBy_bind, answeredBy_bind, hxy]
    rfl
  fraction _ := rfl
  integer _ _ _ := rfl

/-- **A formula sees nothing but the cells it reads.**  Two sets of cells that agree on these give
the same outcome, value or failure, however many other cells there are and in whichever order.  A
cell that is absent counts as one that holds nothing.  If random numbers are drawn, they have to
come from the same source. -/
theorem evaluate_congr (strict : Bool) (clock : Moment) (limit : Option Nat)
    (hrows : ∀ k ∈ cells.keys, Address.RowReadable k)
    (hrows' : ∀ k ∈ cells'.keys, Address.RowReadable k) {input : Value}
    (hagree : ∀ text e, input.formula? = some text → parse text = .ok e →
      ∀ a, e.Reads a → cells.get a = cells'.get a) :
    evaluate strict clock limit cells input = evaluate strict clock limit cells' input := by
  unfold evaluate
  cases hf : input.formula? with
  | none => rfl
  | some text =>
  have hrelates := relates_answeredBy (s := ⟨strict, clock, limit, cells.keys⟩) rfl hrows hrows'
  exact hrelates.outcomeAt rfl text
    (fun e hp part hpart => Expr.readsWithin_of_mem_parts hpart (hagree text e hf hp))
    fun _ _ => trivial

/-- More cells than the range between `A1` and `B2` has, so that it is walked cell by cell. -/
def crowdedCells : Cells :=
  .ofList [("B2", .number (.int 2)), ("Z9", .text "x"), ("A1", .number (.int 1)),
    ("A2", .null), ("C1", .number (.int 4))]

/-- Fewer cells than the range has, with the same in it. -/
def sparseCells : Cells :=
  .ofList [("A1", .number (.int 1)), ("B2", .number (.int 2))]

/-- The sum over the range is the same among many cells and among few. -/
theorem evaluate_crowdedCells :
    (∀ k ∈ crowdedCells.keys, Address.RowReadable k) ∧
      (∀ k ∈ sparseCells.keys, Address.RowReadable k) ∧
      ∀ clock, evaluate false clock none crowdedCells (.text "=SUM(A1:B2)") =
        evaluate false clock none sparseCells (.text "=SUM(A1:B2)") := by
  have hcrowded : ∀ k ∈ crowdedCells.keys, Address.RowReadable k := by decide +kernel
  have hsparse : ∀ k ∈ sparseCells.keys, Address.RowReadable k := by decide +kernel
  have hformula : (Value.text "=SUM(A1:B2)").formula? = some "=SUM(A1:B2)" := by decide +kernel
  have hparse : parse "=SUM(A1:B2)" = .ok (.call "SUM(" [.range "A1" "B2"]) := by cbv
  have hrange : Rectangle.ofTexts "A1" "B2" = .ok ⟨0, 1, 0, 1, by omega, by omega⟩ := by cbv
  refine ⟨hcrowded, hsparse, fun clock =>
    evaluate_congr false clock none hcrowded hsparse fun text e hf hp a ha => ?_⟩
  obtain rfl : "=SUM(A1:B2)" = text := Option.some.inj (hformula.symm.trans hf)
  obtain rfl := Except.ok.inj (hparse.symm.trans hp)
  obtain ⟨_, he, ha⟩ := Expr.reads_call.mp ha
  obtain rfl := List.mem_singleton.mp he
  obtain ⟨p, hp, hin⟩ := Rectangle.contains_of_covers hrange (Expr.reads_range.mp ha)
  have haddresses : Rectangle.addresses ⟨0, 1, 0, 1, by omega, by omega⟩ =
      ["A1", "B1", "A2", "B2"] := by decide +kernel
  have hmem := (Rectangle.mem_addresses_iff hrange).mpr ⟨p, hp, hin⟩
  rw [haddresses] at hmem
  simp only [List.mem_cons, List.not_mem_nil, or_false] at hmem
  rcases hmem with rfl | rfl | rfl | rfl <;> rfl

end Worksheet.Formula
