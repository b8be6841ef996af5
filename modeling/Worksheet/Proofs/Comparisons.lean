import Worksheet.Proofs.Calls
import Worksheet.Proofs.ExactValues
import Worksheet.Proofs.Finiteness

/-!
# The order of results

Each result has a place in one linear order: numbers stand there by exact value, before text by its
lower-case letters, before the truth values.  A comparison asks how the places of its operands lie.
So comparisons are a total preorder on results, whatever their types are.

A NaN has no place.  It needs none, as nothing that an expression comes to is one.
-/

namespace Worksheet

/-! ## Places -/

/-- The places of results: those of numbers come first, those of truth values last. -/
abbrev Place : Type :=
  WithBot (WithTop ℚ) ⊕ₗ String ⊕ₗ Bool

/-- The place of a scalar.  A NaN has none. -/
def Scalar.place? : Scalar → Option Place
  | number n => n.exactValue?.map Sum.inlₗ
  | text t => some (Sum.inrₗ (Sum.inlₗ (Text.lower t)))
  | cellText t => some (Sum.inrₗ (Sum.inlₗ (Text.lower t)))
  | bool b => some (Sum.inrₗ (Sum.inrₗ b))

namespace Formula

/-- **Scalars are compared by their places.** -/
theorem compareScalars_eq {x y : Scalar} {p q : Place} (hx : x.place? = some p)
    (hy : y.place? = some q) : compareScalars x y = compare p q := by
  have htext : StrictMono fun t : String => (Sum.inrₗ (Sum.inlₗ t) : Place) :=
    Sum.Lex.inr_strictMono.comp Sum.Lex.inl_strictMono
  have hbool : StrictMono fun b : Bool => (Sum.inrₗ (Sum.inrₗ b) : Place) :=
    Sum.Lex.inr_strictMono.comp Sum.Lex.inr_strictMono
  match x, y with
  | .number m, .number n =>
      obtain ⟨u, hu, rfl⟩ := Option.map_eq_some_iff.mp hx
      obtain ⟨v, hv, rfl⟩ := Option.map_eq_some_iff.mp hy
      show (m.compare? n).getD .eq = _
      rw [Number.compare?_eq, hu, hv]
      exact (compare_map_of_strictMono Sum.Lex.inl_strictMono u v).symm
  | .bool a, .bool b =>
      obtain rfl := Option.some.inj hx
      obtain rfl := Option.some.inj hy
      exact (compare_map_of_strictMono hbool a b).symm
  | .text t, .text u | .text t, .cellText u | .cellText t, .text u | .cellText t, .cellText u =>
      obtain rfl := Option.some.inj hx
      obtain rfl := Option.some.inj hy
      exact (compare_map_of_strictMono htext _ _).symm
  | .number m, .text t | .number m, .cellText t | .number m, .bool b =>
      obtain ⟨u, hu, rfl⟩ := Option.map_eq_some_iff.mp hx
      obtain rfl := Option.some.inj hy
      exact (compare_lt_iff_lt.mpr (Sum.Lex.inl_lt_inr _ _)).symm
  | .text t, .number n | .cellText t, .number n | .bool b, .number n =>
      obtain rfl := Option.some.inj hx
      obtain ⟨v, hv, rfl⟩ := Option.map_eq_some_iff.mp hy
      exact (compare_gt_iff_gt.mpr (Sum.Lex.inl_lt_inr _ _)).symm
  | .text t, .bool b | .cellText t, .bool b =>
      obtain rfl := Option.some.inj hx
      obtain rfl := Option.some.inj hy
      exact (compare_lt_iff_lt.mpr (Sum.Lex.inr_strictMono (Sum.Lex.inl_lt_inr _ _))).symm
  | .bool b, .text t | .bool b, .cellText t =>
      obtain rfl := Option.some.inj hx
      obtain rfl := Option.some.inj hy
      exact (compare_gt_iff_gt.mpr (Sum.Lex.inr_strictMono (Sum.Lex.inl_lt_inr _ _))).symm

/-- In an order, one of less, equal and greater holds, and the other comparisons deny one of these. -/
theorem Comparison.holds_cases (o : Ordering) :
    [less.holds o, equal.holds o, greater.holds o].count true = 1 ∧
      lessEqual.holds o = !greater.holds o ∧ greaterEqual.holds o = !less.holds o ∧
      notEqual.holds o = !equal.holds o := by
  cases o <;> decide

section

variable {α : Type} [LinearOrder α] {p q : α}

theorem Comparison.less_holds_iff : less.holds (compare p q) = true ↔ p < q :=
  beq_iff_eq.trans compare_lt_iff_lt

theorem Comparison.equal_holds_iff : equal.holds (compare p q) = true ↔ p = q :=
  beq_iff_eq.trans compare_eq_iff_eq

end

/-! ## Evaluating comparisons -/

/-- What answers for the cells and where random numbers come from, in some state. -/
structure Oracle (σ : Type) where
  answer : String → Nat → StateM σ (Except Failure Value)
  fraction : StateM σ Binary64
  integer : Int → Int → StateM σ Int
  state : σ

namespace Oracle

/-- Whether an evaluation comes to a value and leaves the state as it was: no random number is drawn
for it, and no cell has still to be calculated. -/
def Settles {σ α : Type} (o : Oracle σ) (e : Evaluation α) (a : α) : Prop :=
  (e.run.run o.answer o.fraction o.integer).run o.state = (.ok a, o.state)

/-- Plain cells. -/
def ofCells (cells : Cells) (source : RandomSource) : Oracle RandomSource where
  answer address _ := return .ok (cells.get address)
  fraction := RandomSource.drawFraction
  integer := RandomSource.drawInteger
  state := source

variable {σ α β : Type} {o : Oracle σ}

theorem Settles.bind {e : Evaluation α} {f : α → Evaluation β} {a : α} {b : β}
    (he : o.Settles e a) (hf : o.Settles (f a) b) : o.Settles (e >>= f) b := by
  show ((e.run.bind _).run o.answer o.fraction o.integer).run o.state = _
  rw [Dialogue.run_bind, StateT.run_bind, he]
  exact hf

theorem Settles.unique {e : Evaluation α} {a b : α} (ha : o.Settles e a) (hb : o.Settles e b) :
    a = b :=
  Except.ok.inj (congrArg Prod.fst (ha.symm.trans hb))

variable {s : Setting} {depth : Nat} {a b c : Expr} {x y z : Scalar}

theorem Settles.of_comesTo {cells : Cells} (source : RandomSource) {e : Evaluation α} {a : α}
    (h : e.ComesTo cells (.ok a)) : (ofCells cells source).Settles e a :=
  congrFun h source

/-- Operands have values where they are not nested too deeply. -/
theorem Settles.not_exceeds (h : o.Settles (eval s (depth + operandCost) a) x) :
    s.exceeds depth = false := by
  refine Bool.eq_false_iff.mpr fun hexceeds => ?_
  have hdeeper : s.exceeds (depth + operandCost) = true := by
    unfold Setting.exceeds at hexceeds ⊢
    split at hexceeds
    · next limit _ =>
        exact decide_eq_true (Nat.lt_add_right operandCost (of_decide_eq_true hexceeds))
    · cases hexceeds
  rw [eval.eq_def, if_pos hdeeper] at h
  cases congrArg Prod.fst h

theorem Settles.compare (ha : o.Settles (eval s (depth + operandCost) a) x)
    (hb : o.Settles (eval s (depth + operandCost) b) y) (op : Comparison) :
    o.Settles (eval s depth (.binary (.compare op) a b)) (.bool (op.holds (compareScalars x y))) := by
  rw [eval, ha.not_exceeds]
  exact ha.bind (hb.bind rfl)

/-- Whatever an expression comes to has a place. -/
theorem Settles.exists_place {I : σ → Prop} (ho : Supplies o.answer o.fraction o.integer I)
    (hstate : I o.state) (h : o.Settles (eval s depth a) x) : ∃ p, x.place? = some p := by
  cases x with
  | bool b => exact ⟨_, rfl⟩
  | text t => exact ⟨_, rfl⟩
  | cellText t => exact ⟨_, rfl⟩
  | number n =>
      have hself := (keeps_finiteness s.strict).eval (s := s) depth a (fun _ _ => trivial)
        fun _ _ => trivial
      have hvalue : n.Proper ∨ RoundedBeyond a n := by
        rcases hself.run o.answer o.fraction o.integer I ho.answered ho.drawn ho.chosen o.state
          hstate with ⟨_, -, hstop⟩ | ⟨-, hvalue⟩
        · exact hstop.elim
        · exact hvalue _ (congrArg Prod.fst h) n rfl
      obtain ⟨u, hu⟩ : ∃ u, n.exactValue? = some u := by
        refine Number.exists_exactValue ?_
        rintro rfl
        rcases hvalue with hproper | ⟨-, ⟨_, hinfinite⟩, -⟩
        · cases hproper.finite
        · cases hinfinite
      exact ⟨_, congrArg (Option.map Sum.inlₗ) hu⟩

/-- **Comparisons are one total preorder on results.**  Whatever three expressions come to, they have
places in one linear order, where numbers stand by exact value.  Of two of them just one comparison
of less, equal and greater is true, as their places say, and the other three comparisons deny these.
So less and equal carry over from one to the next. -/
theorem comparisons_totalPreorder {I : σ → Prop} (ho : Supplies o.answer o.fraction o.integer I)
    (hstate : I o.state) (ha : o.Settles (eval s (depth + operandCost) a) x)
    (hb : o.Settles (eval s (depth + operandCost) b) y)
    (hc : o.Settles (eval s (depth + operandCost) c) z) :
    ∃ p q r : Place, (x.place? = some p ∧ y.place? = some q ∧ z.place? = some r) ∧
      (∃ holds : Comparison → Bool,
        (∀ op, o.Settles (eval s depth (.binary (.compare op) a b)) (.bool (holds op))) ∧
        [holds .less, holds .equal, holds .greater].count true = 1 ∧
        holds .lessEqual = !holds .greater ∧ holds .greaterEqual = !holds .less ∧
        holds .notEqual = !holds .equal ∧
        (holds .less = true ↔ p < q) ∧ (holds .equal = true ↔ p = q)) ∧
      ∀ op, op = .less ∨ op = .equal →
        o.Settles (eval s depth (.binary (.compare op) a b)) (.bool true) →
        o.Settles (eval s depth (.binary (.compare op) b c)) (.bool true) →
        o.Settles (eval s depth (.binary (.compare op) a c)) (.bool true) := by
  obtain ⟨p, hp⟩ := ha.exists_place ho hstate
  obtain ⟨q, hq⟩ := hb.exists_place ho hstate
  obtain ⟨r, hr⟩ := hc.exists_place ho hstate
  have hab := ha.compare hb
  have hbc := hb.compare hc
  have hac := ha.compare hc
  rw [compareScalars_eq hp hq] at hab
  rw [compareScalars_eq hq hr] at hbc
  rw [compareScalars_eq hp hr] at hac
  obtain ⟨hone, hlessEqual, hgreaterEqual, hnotEqual⟩ := Comparison.holds_cases (compare p q)
  refine ⟨p, q, r, ⟨hp, hq, hr⟩, ⟨_, hab, hone, hlessEqual, hgreaterEqual, hnotEqual,
    Comparison.less_holds_iff, Comparison.equal_holds_iff⟩, ?_⟩
  intro op hop hab' hbc'
  have hpq := Scalar.bool.inj ((hab op).unique hab')
  have hqr := Scalar.bool.inj ((hbc op).unique hbc')
  have hpr : op.holds (compare p r) = true := by
    rcases hop with rfl | rfl
    · rw [Comparison.less_holds_iff] at hpq hqr ⊢
      exact hpq.trans hqr
    · rw [Comparison.equal_holds_iff] at hpq hqr ⊢
      exact hpq.trans hqr
  exact hpr ▸ hac op

/-- A floating-point number is less than the next integer, which lies between two numbers of its
format, and that is less than any text. -/
theorem comparisons_greatInteger :
    let o := Oracle.ofCells .empty (.scripted [] [])
    let s : Setting := ⟨false, noon, none, []⟩
    let a := Expr.number "9007199254740992.0"
    let b := Expr.number "9007199254740993"
    o.Settles (eval s 0 (.binary (.compare .less) a b)) (.bool true) ∧
      o.Settles (eval s 0 (.binary (.compare .equal) a b)) (.bool false) ∧
      o.Settles (eval s 0 (.binary (.compare .less) a (.text "\"a\""))) (.bool true) := by
  intro o s a b
  have hshallow : ∀ depth ≤ operandCost, s.exceeds depth = false := fun _ _ => rfl
  have hfloat : numberLiteral "9007199254740992.0" = .ok (.float (.ofInt 9007199254740992)) := by
    decide +kernel
  have hint : numberLiteral "9007199254740993" = .ok (.int 9007199254740993) := by decide
  have ha : o.Settles (eval s (0 + operandCost) a) (.number (.float (.ofInt 9007199254740992))) :=
    .of_comesTo _ (Expr.ComesTo.number hshallow hfloat _ le_rfl)
  have hb : o.Settles (eval s (0 + operandCost) b) (.number (.int 9007199254740993)) :=
    .of_comesTo _ (Expr.ComesTo.number hshallow hint _ le_rfl)
  have hc : o.Settles (eval s (0 + operandCost) (.text "\"a\"")) (.text (textLiteral "\"a\"")) :=
    .of_comesTo _ (Expr.ComesTo.text hshallow _ le_rfl)
  have hcells : ∀ a, (Cells.empty.get a).Representable := fun _ => nofun
  have hless := ha.compare hb .less
  have hlessText := hb.compare hc .less
  have hlt : Comparison.less.holds (compareScalars (.number (.float (.ofInt 9007199254740992)))
    (.number (.int 9007199254740993))) = true := by decide +kernel
  rw [hlt] at hless
  obtain ⟨p, q, r, -, ⟨holds, hholds, hone, -⟩, htrans⟩ := comparisons_totalPreorder
    (supplies_cells hcells) proper_scripted ha hb hc
  refine ⟨hless, ?_, htrans .less (.inl rfl) hless hlessText⟩
  have hequal : holds .equal = false := by
    rw [Scalar.bool.inj ((hholds .less).unique hless)] at hone
    cases h : holds .equal with
    | false => rfl
    | true => cases hg : holds .greater <;> rw [h, hg] at hone <;> cases hone
  exact hequal ▸ hholds .equal

end Oracle

end Formula

end Worksheet
