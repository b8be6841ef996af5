import Worksheet.Proofs.Results

/-!
# Text from cells in arithmetic

Text that is read from a cell counts as zero in arithmetic, or it is refused there.  Which of the two
makes no difference to a formula that catches no failures, as long as the text of no cell is used as
a number.  Wherever that happens first is where the formula fails that refuses it.

It may take several steps before the text of a cell is used as a number, or it may not come to that:
the text can be chosen by a condition, compared, joined or cut.  What has to be known of each value
along the way is that text from a cell is the text of a cell that the formula reads.
-/

namespace Worksheet.Formula

open Dialogue

/-- What is watched while a formula that refuses text from cells goes beside one that does not: the
first one stops when the text of a cell that has been read is used as a number. -/
def refusal (answers : Answering) (read : String → Prop) : Watch where
  answers := answers
  fractions _ := True
  stops cause := ∃ a v t, read a ∧ answers a (.ok v) ∧ v.toScalar = .ok (.cellText t) ∧
    cause = .cellTextAsNumber (Text.quoted t)
  number _ := True
  value _ x := ∀ t, x = .cellText t →
    ∃ a v, read a ∧ answers a (.ok v) ∧ v.toScalar = .ok (.cellText t)

theorem keeps_refusal (answers : Answering) (read : String → Prop) :
    (refusal answers read).Keeps true false (Expr.ReadsWithin read)
      fun f => f ≠ .conditional .ifError ∧ f ≠ .conditional .isError where
  date _ := ⟨trivial, trivial, trivial⟩
  count _ _ _ := trivial
  fraction _ := trivial
  literal _ := trivial
  ofText _ := trivial
  sign _ _ _ := trivial
  percent _ _ := trivial
  compute _ _ _ _ _ := trivial
  total _ _ _ := trivial
  mean _ _ := trivial
  catches := by
    rintro (h | h)
    · exact absurd rfl h.1
    · exact absurd rfl h.2
  bool _ _ := nofun
  text _ _ := nofun
  ofNumber _ _ _ := nofun
  cell {a v x} hread hv hx := by
    rintro t rfl
    exact ⟨a, v, hread, hv, hx⟩
  inRange _ _ := trivial
  operand {e x} function hx := by
    cases x with
    | number n => exact .same fun _ _ => trivial
    | bool b => exact .same fun _ _ => trivial
    | text t => exact .same fun _ _ => trivial
    | cellText t =>
        -- here alone the two differ, and the one that refuses the text stops
        obtain ⟨a, v, hread, hv, hscalar⟩ := hx t rfl
        exact .inl ⟨_, rfl, a, v, t, hread, hv, hscalar, rfl⟩
  math _ _ _ _ := nofun
  branch _ _ hx := hx
  fallback _ _ hx := hx

/-- **Refusing text from cells makes no difference but for one failure.**  A formula that catches no
failures comes to the same outcome, and leaves the same state behind, whether text from cells is
refused in arithmetic or not; or it fails, where that is refused, with the text of a cell that it has
read.  This holds in any context, that is, whatever is done to answer for a cell. -/
theorem outcomeAt_strict {σ : Type} (answer : String → Nat → StateM σ (Except Failure Value))
    (fraction : StateM σ Binary64) (integer : Int → Int → StateM σ Int) (clock : Moment)
    (limit : Option Nat) (keys : List String) (depth : Nat) (text : String)
    (h : ∀ f ∈ callees text, f ≠ .conditional .ifError ∧ f ≠ .conditional .isError) (p : σ) :
    let outcome (strict : Bool) := StateT.run
      ((outcomeAt ⟨strict, clock, limit, keys⟩ depth text).run answer fraction integer) p
    outcome true = outcome false ∨
      ∃ e a t cause, parse text = .ok e ∧ e.Reads a ∧
        (∃ depth q v, ((answer a depth).run q).1 = .ok v ∧ v.toScalar = .ok (.cellText t)) ∧
        (outcome true).1 = .error cause ∧ cause = .cellTextAsNumber (Text.quoted t) ∧
        cause.kind = .reference := by
  intro outcome
  -- what is known of text from a cell is that the formula has read it and was given it
  let read (a : String) : Prop := ∃ e, parse text = .ok e ∧ e.Reads a
  let answers : Answering := fun a r => ∃ depth q, ((answer a depth).run q).1 = r
  have hboth : (outcomeAt ⟨true, clock, limit, keys⟩ depth text).Tracks answers (fun _ => True)
      (refusal answers read).stops _ (outcomeAt ⟨false, clock, limit, keys⟩ depth text) :=
    (keeps_refusal answers read).outcomeAt (s := ⟨true, clock, limit, keys⟩) depth text
      (fun e he part hpart => Expr.readsWithin_of_mem_parts hpart fun a ha => ⟨e, he, ha⟩) h
  have hrun := hboth.run answer fraction integer (fun _ => True)
    (fun a depth q _ => ⟨⟨depth, q, rfl⟩, trivial⟩) (fun _ _ => ⟨trivial, trivial⟩)
    (fun _ _ _ _ => trivial) p trivial
  rcases hrun with ⟨cause, hcause, a, v, t, ⟨e, he, ha⟩, ⟨depth, q, hv⟩, ht, rfl⟩ | ⟨heq, -⟩
  · exact .inr ⟨e, a, t, _, he, ha, ⟨depth, q, v, hv, ht⟩, hcause, rfl, rfl⟩
  · exact .inl heq

/-- Two texts, of which a condition chooses one. -/
def offerCells : Cells :=
  .ofList [("A1", .text "spring"), ("B1", .text "soon"), ("C1", .number (.int 3))]

/-- Text that a condition has chosen counts as zero, or is refused. -/
theorem outcomeAt_offerCells :
    (∀ f ∈ callees "=IF(A1=\"spring\",B1,C1)*2",
        f ≠ .conditional .ifError ∧ f ≠ .conditional .isError) ∧
      let outcome (strict : Bool) := StateT.run
        ((outcomeAt ⟨strict, noon, none, offerCells.keys⟩ 0
          "=IF(A1=\"spring\",B1,C1)*2").answeredBy offerCells) (.scripted [] [])
      (outcome false).1.isOk = true ∧
        ∃ cause, (outcome true).1 = .error cause ∧ cause.kind = .reference := by
  have hcallees : ∀ f ∈ callees "=IF(A1=\"spring\",B1,C1)*2",
      f ≠ .conditional .ifError ∧ f ≠ .conditional .isError := by decide +kernel
  have hzero : (StateT.run ((outcomeAt ⟨false, noon, none, offerCells.keys⟩ 0
      "=IF(A1=\"spring\",B1,C1)*2").answeredBy offerCells) (.scripted [] [])).1.isOk = true := by
    decide +kernel
  have hrefused : (StateT.run ((outcomeAt ⟨true, noon, none, offerCells.keys⟩ 0
      "=IF(A1=\"spring\",B1,C1)*2").answeredBy offerCells) (.scripted [] [])).1.isOk = false := by
    decide +kernel
  refine ⟨hcallees, hzero, ?_⟩
  rcases outcomeAt_strict (fun address _ => return .ok (offerCells.get address))
    RandomSource.drawFraction RandomSource.drawInteger noon none offerCells.keys 0 _ hcallees _
    with heq | ⟨_, _, _, cause, _, _, _, hcause, _, hkind⟩
  · have hsame := congrArg (·.1.isOk) heq
    exact absurd (hrefused.symm.trans (hsame.trans hzero)) nofun
  · exact ⟨cause, hcause, hkind⟩

end Worksheet.Formula
