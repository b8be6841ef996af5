import Worksheet.Proofs.Evaluation

/-!
# What is known of results

An evaluation with text from cells refused in arithmetic, and one with the same or the other rule,
side by side.  As long as the first one has not stopped for a cause of its own, they ask for the same
and come to the same, and of what they come to something is known: of each number that is computed
with, and of the value of each expression.

What is known is left open.  It is shown here that it is known of the result of a formula when it
holds of literals, of what is read and of what is drawn, and is kept by arithmetic and by the
functions.
-/

namespace Worksheet.Formula

variable {α β : Type}

/-! ## Two computations side by side -/

/-- Two computations come to the same, of which something is known if it is a value, or the first one
has stopped for a cause of its own. -/
def Tracks (stops : Failure → Prop) (P : α → Prop) (r r' : Except Failure α) : Prop :=
  (∃ cause, r = .error cause ∧ stops cause) ∨ r = r' ∧ ∀ a, r = .ok a → P a

namespace Tracks

variable {stops : Failure → Prop} {P : α → Prop} {Q : β → Prop} {r r' : Except Failure α}

theorem same (h : ∀ a, r = .ok a → P a) : Tracks stops P r r :=
  .inr ⟨rfl, h⟩

theorem pure {a : α} (h : P a) : Tracks stops P (Pure.pure a) (Pure.pure a) :=
  same fun _ ha => Except.ok.inj ha ▸ h

theorem throw (cause : Failure) :
    Tracks stops P (MonadExcept.throw cause) (MonadExcept.throw cause) :=
  same nofun

theorem ite {c : Prop} [Decidable c] {q q' : Except Failure α} (h : Tracks stops P r r')
    (h' : Tracks stops P q q') :
    Tracks stops P (if c then r else q) (if c then r' else q') := by
  split
  · exact h
  · exact h'

theorem bind {f f' : α → Except Failure β} (h : Tracks stops P r r')
    (hf : ∀ a, P a → Tracks stops Q (f a) (f' a)) : Tracks stops Q (r >>= f) (r' >>= f') := by
  rcases h with ⟨cause, rfl, hcause⟩ | ⟨rfl, hP⟩
  · exact .inl ⟨cause, rfl, hcause⟩
  · cases r with
    | error cause => exact throw cause
    | ok a => exact hf a (hP a rfl)

/-- What is known of the rest does not depend on a part that is the same on both sides. -/
theorem bind_same {f f' : α → Except Failure β} (hf : ∀ a, Tracks stops Q (f a) (f' a)) :
    Tracks stops Q (r >>= f) (r >>= f') :=
  bind (same fun _ _ => trivial) fun a (_ : True) => hf a

theorem mapM {f f' : α → Except Failure β} {l : List α}
    (h : ∀ a ∈ l, Tracks stops Q (f a) (f' a)) :
    Tracks stops (fun bs => ∀ b ∈ bs, Q b) (l.mapM f) (l.mapM f') := by
  induction l with
  | nil => exact pure fun _ hb => absurd hb List.not_mem_nil
  | cons a l ih =>
      rw [List.mapM_cons, List.mapM_cons]
      refine bind (h a List.mem_cons_self) fun b hb =>
        bind (ih fun c hc => h c (List.mem_cons_of_mem a hc)) fun bs hbs => pure ?_
      exact List.forall_mem_cons.mpr ⟨hb, hbs⟩

end Tracks

/-! ## Two dialogues side by side -/

/-- Two dialogues ask for the same and come to the same, of which something is known if it is a
value, until the first one stops for a cause of its own.  It is said which answers they can get, and
which random fractions. -/
inductive Dialogue.Tracks (answers : Dialogue.Answering) (fractions : Binary64 → Prop)
    (stops : Failure → Prop) (P : α → Prop) :
    Dialogue (Except Failure α) → Dialogue (Except Failure α) → Prop where
  | done {r r' : Except Failure α} :
      Formula.Tracks stops P r r' → Tracks answers fractions stops P (.done r) (.done r')
  | stopped {cause : Failure} {d : Dialogue (Except Failure α)} :
      stops cause → Tracks answers fractions stops P (.done (.error cause)) d
  | read {address : String} {depth : Nat}
      {next next' : Except Failure Value → Dialogue (Except Failure α)} :
      (∀ v, answers address v → Tracks answers fractions stops P (next v) (next' v)) →
      Tracks answers fractions stops P (.read address depth next) (.read address depth next')
  | drawFraction {next next' : Binary64 → Dialogue (Except Failure α)} :
      (∀ x, fractions x → Tracks answers fractions stops P (next x) (next' x)) →
      Tracks answers fractions stops P (.drawFraction next) (.drawFraction next')
  | drawInteger {low high : Int} {next next' : Int → Dialogue (Except Failure α)} :
      (∀ i, Tracks answers fractions stops P (next i) (next' i)) →
      Tracks answers fractions stops P (.drawInteger low high next) (.drawInteger low high next')

namespace Dialogue.Tracks

variable {answers : Dialogue.Answering} {fractions : Binary64 → Prop} {stops : Failure → Prop}
  {P : α → Prop} {Q : β → Prop} {d d' : Dialogue (Except Failure α)}

theorem bind {f f' : Except Failure α → Dialogue (Except Failure β)}
    (hd : d.Tracks answers fractions stops P d')
    (hf : ∀ a, P a → (f (.ok a)).Tracks answers fractions stops Q (f' (.ok a)))
    (herror : ∀ cause, f (.error cause) = .done (.error cause))
    (herror' : ∀ cause, f' (.error cause) = .done (.error cause)) :
    (d.bind f).Tracks answers fractions stops Q (d'.bind f') := by
  induction hd with
  | @done r r' h =>
      rcases h with ⟨cause, rfl, hcause⟩ | ⟨rfl, hP⟩
      -- nothing is asked of the second dialogue once the first one has stopped
      · show (f (.error cause)).Tracks answers fractions stops Q _
        rw [herror]
        exact .stopped hcause
      · cases r with
        | ok a => exact hf a (hP a rfl)
        | error cause =>
            show (f (.error cause)).Tracks answers fractions stops Q (f' (.error cause))
            rw [herror, herror']
            exact .done (.throw cause)
  | @stopped cause d hcause =>
      show (f (.error cause)).Tracks answers fractions stops Q _
      rw [herror]
      exact .stopped hcause
  | read _ ih => exact .read ih
  | drawFraction _ ih => exact .drawFraction ih
  | drawInteger _ ih => exact .drawInteger ih

/-- Where nothing stops the first dialogue, failures can be caught. -/
theorem attempt (hstops : ∀ cause, ¬ stops cause) (hd : d.Tracks answers fractions stops P d') :
    (d.bind fun r => .done (.ok r.toOption)).Tracks answers fractions stops
      (fun o => ∀ a, o = some a → P a) (d'.bind fun r => .done (.ok r.toOption)) := by
  induction hd with
  | @done r r' h =>
      rcases h with ⟨cause, _, hcause⟩ | ⟨rfl, hP⟩
      · exact absurd hcause (hstops cause)
      · refine .done (.pure fun a ha => ?_)
        cases r with
        | ok b => exact Option.some.inj ha ▸ hP b rfl
        | error cause => cases ha
  | stopped hcause => exact absurd hcause (hstops _)
  | read _ ih => exact .read ih
  | drawFraction _ ih => exact .drawFraction ih
  | drawInteger _ ih => exact .drawInteger ih

theorem mono {P' : α → Prop} (hd : d.Tracks answers fractions stops P d')
    (hP : ∀ a, P a → P' a) : d.Tracks answers fractions stops P' d' := by
  induction hd with
  | done h => exact .done (h.imp_right fun h => ⟨h.1, fun a ha => hP a (h.2 a ha)⟩)
  | stopped hcause => exact .stopped hcause
  | read _ ih => exact .read ih
  | drawFraction _ ih => exact .drawFraction ih
  | drawInteger _ ih => exact .drawInteger ih

/-- **Holding both dialogues the same way.**  Either the first one stops, or both come to the same and
leave the same state behind. -/
theorem run {σ : Type} (answer : String → Nat → StateM σ (Except Failure Value))
    (fraction : StateM σ Binary64) (integer : Int → Int → StateM σ Int) (I : σ → Prop)
    (hanswer : ∀ a depth p, I p → answers a ((answer a depth).run p).1 ∧ I ((answer a depth).run p).2)
    (hfraction : ∀ p, I p → fractions (fraction.run p).1 ∧ I (fraction.run p).2)
    (hinteger : ∀ low high p, I p → I ((integer low high).run p).2)
    (h : d.Tracks answers fractions stops P d') :
    ∀ p, I p →
      (∃ cause, ((d.run answer fraction integer).run p).1 = .error cause ∧ stops cause) ∨
        (d.run answer fraction integer).run p = (d'.run answer fraction integer).run p ∧
          ∀ a, ((d.run answer fraction integer).run p).1 = .ok a → P a := by
  induction h with
  | @done r r' h =>
      intro p _
      rcases h with hstop | ⟨rfl, hP⟩
      · exact .inl hstop
      · exact .inr ⟨rfl, hP⟩
  | stopped hcause => exact fun p _ => .inl ⟨_, rfl, hcause⟩
  | @read address depth next next' _ ih =>
      intro p hp
      obtain ⟨hv, hp'⟩ := hanswer address depth p hp
      exact ih _ hv _ hp'
  | drawFraction _ ih =>
      intro p hp
      obtain ⟨hx, hp'⟩ := hfraction p hp
      exact ih _ hx _ hp'
  | @drawInteger low high next next' _ ih => exact fun p hp => ih _ _ (hinteger low high p hp)

end Dialogue.Tracks

/-! ## What is watched -/

/-- The least or the greatest of some numbers is one of them. -/
theorem Aggregate.mem_of_pick {f : Aggregate} {direction : Ordering} {ns : List Number} {n : Number}
    (h : f.pick direction ns = .ok n) : n ∈ ns := by
  have hfold : ∀ (ms : List Number) (best : Number), best ∈ ns → (∀ m ∈ ms, m ∈ ns) →
      ms.foldl (fun best m => if m.compare? best == some direction then m else best) best ∈ ns := by
    intro ms
    induction ms with
    | nil => exact fun best hbest _ => hbest
    | cons m ms ih =>
        intro best hbest hms
        obtain ⟨hm, hms⟩ := List.forall_mem_cons.mp hms
        refine ih _ ?_ hms
        dsimp only
        split
        · exact hm
        · exact hbest
  unfold pick at h
  cases ns with
  | nil => cases h
  | cons m ms =>
      obtain rfl := Except.ok.inj h
      exact hfold ms m List.mem_cons_self fun k hk => List.mem_cons_of_mem m hk

/-- What is watched while two evaluations go side by side: which answers they can get and which
random fractions, for which causes the first one can stop, and what is known of the numbers that are
computed with and of the values of expressions. -/
structure Watch where
  answers : Dialogue.Answering
  fractions : Binary64 → Prop
  stops : Failure → Prop
  number : Number → Prop
  value : Expr → Scalar → Prop

/-- Numbers of which something is known, whatever is computed with them. -/
structure Watch.Computes (w : Watch) : Prop where
  date (d : Date) : w.number (.int d.year) ∧ w.number (.int d.month) ∧ w.number (.int d.day)
  fraction {x : Binary64} : w.fractions x → w.number (.float x)
  literal {text : String} {n : Number} : numberLiteral text = .ok n → w.number n
  ofText {text : String} {n : Number} : numberOfText? text = .ok (some n) → w.number n
  sign (op : SignOp) {n : Number} : w.number n → w.number (op.apply n)
  percent {m n : Number} : w.number m → m.percent = .ok n → w.number n
  mean {ns : List Number} {n : Number} :
    (∀ m ∈ ns, w.number m) → Aggregate.mean ns = .ok n → w.number n

/-- Whether a function comes to a count, or to an integer that is drawn. -/
def Function.Counts (f : Function) : Prop :=
  f = .text .len ∨ f = .aggregate .count ∨ f = .aggregate .countAll ∨ f = .random .between

/-- Values of expressions of which something is known, whatever is done with them. -/
structure Watch.Keeps (w : Watch) (strict strict' : Bool) (reads : Expr → Prop)
    (allowed : Function → Prop) : Prop extends w.Computes where
  /-- Failures are caught by two functions alone. -/
  catches : allowed (.conditional .ifError) ∨ allowed (.conditional .isError) →
    ∀ cause, ¬ w.stops cause
  count {f : Function} (i : Int) : allowed f → f.Counts → w.number (.int i)
  compute {op : BinaryOp} {f : Number → Number → Except Failure Number} {left right : Expr}
      {l m n : Number} :
    reads (.binary op left right) → arithmetic? op = some f → w.number l → w.number m →
      (do (← f l m).checked) = .ok n → w.number n
  total {ns : List Number} {n : Number} :
    allowed (.aggregate .sum) → (∀ m ∈ ns, w.number m) →
      (do (← Aggregate.total ns).checked) = .ok n → w.number n
  bool (e : Expr) (b : Bool) : w.value e (.bool b)
  text (e : Expr) (t : String) : w.value e (.text t)
  ofNumber (e : Expr) {n : Number} : w.number n → w.value e (.number n)
  cell {a : String} {v : Value} {x : Scalar} :
    reads (.cell a) → w.answers a (.ok v) → v.toScalar = .ok x → w.value (.cell a) x
  inRange {a : String} {v : Value} {n : Number} :
    w.answers a (.ok v) → v.number? = .ok (some n) → w.number n
  operand {e : Expr} {x : Scalar} (function : Option String) :
    w.value e x → Tracks w.stops w.number (x.asNumber strict function) (x.asNumber strict' function)
  math {opener : String} {args : List Expr} {f : MathFunction} {ns : List Number} {n : Number} :
    Function.named? (nameOfOpener opener) = some (.math f) → allowed (.math f) →
      (∀ m ∈ ns, w.number m) → f.compute ns = .ok n → w.value (.call opener args) (.number n)
  branch {opener : String} {condition e : Expr} {branches : List Expr} {x : Scalar} :
    Function.named? (nameOfOpener opener) = some (.conditional .ifThen) → e ∈ branches →
      w.value e x → w.value (.call opener (condition :: branches)) x
  fallback {opener : String} {args : List Expr} {e : Expr} {x : Scalar} :
    Function.named? (nameOfOpener opener) = some (.conditional .ifError) → e ∈ args →
      w.value e x → w.value (.call opener args) x

namespace Watch

/-- Two evaluations side by side. -/
abbrev Tracks (w : Watch) (P : α → Prop) (x y : Evaluation α) : Prop :=
  x.run.Tracks w.answers w.fractions w.stops P y.run

variable {w : Watch} {P : α → Prop} {Q : β → Prop}

theorem Tracks.ofExcept {r r' : Except Failure α} (h : Formula.Tracks w.stops P r r') :
    w.Tracks P (Evaluation.ofExcept r) (Evaluation.ofExcept r') :=
  .done h

theorem Tracks.pure {a : α} (h : P a) :
    w.Tracks P (Pure.pure a : Evaluation α) (Pure.pure a) :=
  .done (.pure h)

theorem Tracks.throw (cause : Failure) :
    w.Tracks P (MonadExcept.throw cause : Evaluation α) (MonadExcept.throw cause) :=
  .done (.throw cause)

theorem Tracks.bind {x y : Evaluation α} {f g : α → Evaluation β} (hxy : w.Tracks P x y)
    (hfg : ∀ a, P a → w.Tracks Q (f a) (g a)) : w.Tracks Q (x >>= f) (y >>= g) :=
  Dialogue.Tracks.bind hxy hfg (fun _ => rfl) fun _ => rfl

theorem Tracks.bind_same {r : Except Failure α} {f g : α → Evaluation β}
    (hfg : ∀ a, w.Tracks Q (f a) (g a)) :
    w.Tracks Q (Evaluation.ofExcept r >>= f) (Evaluation.ofExcept r >>= g) :=
  .bind (.ofExcept (.same fun _ _ => trivial)) fun a (_ : True) => hfg a

theorem Tracks.mapM {f g : α → Evaluation β} {l : List α} (h : ∀ a ∈ l, w.Tracks Q (f a) (g a)) :
    w.Tracks (fun bs => ∀ b ∈ bs, Q b) (l.mapM f) (l.mapM g) := by
  induction l with
  | nil => exact .pure fun _ hb => absurd hb List.not_mem_nil
  | cons a l ih =>
      rw [List.mapM_cons, List.mapM_cons]
      refine .bind (h a List.mem_cons_self) fun b hb =>
        .bind (ih fun c hc => h c (List.mem_cons_of_mem a hc)) fun bs hbs => .pure ?_
      exact List.forall_mem_cons.mpr ⟨hb, hbs⟩

theorem Tracks.readCell (depth : Nat) (a : String) :
    w.Tracks (fun v => w.answers a (.ok v)) (Evaluation.readCell depth a)
      (Evaluation.readCell depth a) := by
  refine .read fun v hv => .done (.same ?_)
  rintro u rfl
  exact hv

theorem Tracks.fraction :
    w.Tracks w.fractions Evaluation.drawFraction Evaluation.drawFraction :=
  .drawFraction fun _ hx => .done (.pure hx)

theorem Tracks.integer (low high : Int) : w.Tracks (fun _ => True)
    (Evaluation.drawInteger low high) (Evaluation.drawInteger low high) :=
  .drawInteger fun _ => .done (.pure trivial)

theorem Tracks.ite {c : Prop} [Decidable c] {x x' y y' : Evaluation α} (hx : w.Tracks P x x')
    (hy : w.Tracks P y y') : w.Tracks P (if c then x else y) (if c then x' else y') := by
  split
  · exact hx
  · exact hy

theorem Tracks.readRange {s : Setting} {strict strict' : Bool} (depth : Nat) (first last : String)
    {use : Value → Except Failure (Option β)}
    (huse : ∀ a v b, w.answers a (.ok v) → use v = .ok (some b) → Q b) :
    w.Tracks (fun bs => ∀ b ∈ bs, Q b) (readRange { s with strict } depth first last use)
      (Formula.readRange { s with strict := strict' } depth first last use) := by
  unfold Formula.readRange
  refine .bind_same fun r => .bind_same fun addresses => ?_
  refine .bind (.mapM (Q := fun o => ∀ b, o = some b → Q b) fun a _ =>
    .bind (.readCell depth a) fun v hv => .ofExcept (.same ?_)) fun found hfound => .pure ?_
  · rintro o ho b rfl
    exact huse a v b hv ho
  · intro b hb
    obtain ⟨o, ho, rfl⟩ := List.mem_filterMap.mp hb
    exact hfound _ ho b rfl

/-- What is known of an argument of an aggregate. -/
def argument (w : Watch) : Argument → Prop
  | .one x => ∃ e, w.value e x
  | .numbers ns => ∀ n ∈ ns, w.number n
  | .filled _ => True

namespace Keeps

variable {strict strict' : Bool} {reads : Expr → Prop} {allowed : Function → Prop}

/-! ## Functions -/

theorem operands (h : w.Keeps strict strict' reads allowed) (function : Option String)
    {xs : List Scalar} (hxs : ∀ x ∈ xs, ∃ e, w.value e x) :
    Formula.Tracks w.stops (fun ns => ∀ n ∈ ns, w.number n) (xs.mapM (Scalar.asNumber strict function))
      (xs.mapM (Scalar.asNumber strict' function)) :=
  .mapM fun x hx => (hxs x hx).elim fun _ hx => h.operand function hx

theorem math_apply (h : w.Keeps strict strict' reads allowed) {opener : String} {args : List Expr}
    {f : MathFunction} (hf : Function.named? (nameOfOpener opener) = some (.math f))
    (hallowed : allowed (.math f)) {xs : List Scalar} (hxs : ∀ x ∈ xs, ∃ e, w.value e x) :
    Formula.Tracks w.stops (w.value (.call opener args)) (f.apply strict xs) (f.apply strict' xs) := by
  unfold MathFunction.apply
  refine .ite (.throw _) (.bind (h.operands _ hxs) fun ns hns => ?_)
  exact .bind (.same fun n hn => h.math hf hallowed hns hn) fun n hn => .pure hn

/-- A number that has been checked is the value of an expression. -/
theorem checked (h : w.Keeps strict strict' reads allowed) (e : Expr) {r : Except Failure Number}
    (hr : ∀ n, (do (← r).checked) = .ok n → w.number n) :
    Formula.Tracks w.stops (w.value e) (do return .number (← (← r).checked))
      (do return .number (← (← r).checked)) := by
  have hassoc := bind_assoc r Number.checked fun n =>
    (Pure.pure (Scalar.number n) : Except Failure Scalar)
  rw [← hassoc]
  exact .bind (.same hr) fun _ hn => .pure (h.ofNumber e hn)

theorem countArgument (h : w.Keeps strict strict' reads allowed) (f : TextFunction) {x : Scalar}
    (hx : ∃ e, w.value e x) : Formula.Tracks w.stops (fun _ => True)
      (TextFunction.countArgument strict f x) (TextFunction.countArgument strict' f x) := by
  obtain ⟨e, hx⟩ := hx
  unfold TextFunction.countArgument
  refine .bind (h.operand _ hx) fun n _ => .same fun _ _ => trivial

theorem mapText (h : w.Keeps strict strict' reads allowed) (e : Expr) (f : List Char → List Char)
    (x : Scalar) : Formula.Tracks w.stops (w.value e) (TextFunction.mapText f x)
      (TextFunction.mapText f x) :=
  .bind_same fun _ => .pure (h.text e _)

theorem text_apply (h : w.Keeps strict strict' reads allowed) (e : Expr) {f : TextFunction}
    (hallowed : allowed (.text f)) {xs : List Scalar} (hxs : ∀ x ∈ xs, ∃ e, w.value e x) :
    Formula.Tracks w.stops (w.value e) (f.apply strict xs) (f.apply strict' xs) := by
  unfold TextFunction.apply
  refine .ite (.throw _) ?_
  split
  · exact .bind_same fun _ => .pure (h.text e _)
  · exact h.mapText e _ _
  · exact .bind (h.countArgument _ (hxs _ (by simp))) fun _ _ => h.mapText e _ _
  · exact h.mapText e _ _
  · exact .bind (h.countArgument _ (hxs _ (by simp))) fun _ _ => h.mapText e _ _
  · next s start count =>
      obtain ⟨_, hstart⟩ := hxs start (by simp)
      refine .bind (h.operand _ hstart) fun _ _ => .bind_same fun _ =>
        .ite (.bind_same fun _ => .throw _) ?_
      exact .bind (h.countArgument _ (hxs _ (by simp))) fun _ _ => h.mapText e _ _
  · exact .bind_same fun _ => .pure (h.ofNumber e (h.count _ hallowed (.inl rfl)))
  · exact .bind_same fun _ => .pure (h.text e _)
  · exact .bind_same fun _ => .pure (h.text e _)
  · exact h.mapText e _ _
  · exact .throw _

theorem wholeArgument (h : w.Keeps strict strict' reads allowed) (f : DateFunction) {x : Scalar}
    (hx : ∃ e, w.value e x) : Formula.Tracks w.stops (fun _ => True)
      (DateFunction.wholeArgument strict f x) (DateFunction.wholeArgument strict' f x) := by
  obtain ⟨e, hx⟩ := hx
  exact .bind (h.operand _ hx) fun n _ => .same fun _ _ => trivial

theorem date_apply (h : w.Keeps strict strict' reads allowed) (e : Expr) (clock : Moment)
    (f : DateFunction) {xs : List Scalar} (hxs : ∀ x ∈ xs, ∃ e, w.value e x) :
    Formula.Tracks w.stops (w.value e) (f.apply strict clock xs) (f.apply strict' clock xs) := by
  unfold DateFunction.apply
  refine .ite (.throw _) ?_
  split
  · exact .bind_same fun _ => .pure (h.text e _)
  · exact .bind_same fun _ => .pure (h.text e _)
  · exact .bind (h.wholeArgument _ (hxs _ (by simp))) fun _ _ =>
      .bind (h.wholeArgument _ (hxs _ (by simp))) fun _ _ =>
      .bind (h.wholeArgument _ (hxs _ (by simp))) fun _ _ =>
      .bind_same fun _ => .pure (h.text e _)
  · exact .bind_same fun d => .pure (h.ofNumber e (h.date d).1)
  · exact .bind_same fun d => .pure (h.ofNumber e (h.date d).2.1)
  · exact .bind_same fun d => .pure (h.ofNumber e (h.date d).2.2)
  · exact .bind_same fun _ =>
      .bind (h.wholeArgument _ (hxs _ (by simp))) fun _ _ =>
      .bind_same fun _ => .pure (h.text e _)
  · exact .throw _

theorem logical_apply (h : w.Keeps strict strict' reads allowed) (e : Expr) (f : LogicalFunction)
    (xs : List Scalar) :
    Formula.Tracks w.stops (w.value e) (f.apply xs) (f.apply xs) := by
  unfold LogicalFunction.apply
  exact .ite (.throw _) (.bind_same fun _ => .pure (h.bool e _))

theorem numbersOf (h : w.Keeps strict strict' reads allowed) (f : Aggregate) {arg : Argument}
    (harg : w.argument arg) : Formula.Tracks w.stops (fun ns => ∀ n ∈ ns, w.number n)
      (f.numbersOf strict arg) (f.numbersOf strict' arg) := by
  cases arg with
  | numbers ns => exact .pure harg
  | filled count => exact .pure fun _ hn => absurd hn List.not_mem_nil
  | one x =>
      obtain ⟨e, hx⟩ := harg
      have hone : ∀ n, w.number n → ∀ m ∈ [n], w.number m := fun n hn m hm =>
        List.mem_singleton.mp hm ▸ hn
      have hasked : Formula.Tracks w.stops (fun ns => ∀ n ∈ ns, w.number n)
          (do return [← x.asNumber strict (some f.name)])
          (do return [← x.asNumber strict' (some f.name)]) :=
        .bind (h.operand _ hx) fun n hn => .pure (hone n hn)
      cases x with
      | text t =>
          refine .bind (P := fun o => ∀ n, o = some n → w.number n) (.same fun o ho => ?_)
            fun o ho => .pure ?_
          · rintro n rfl
            exact h.ofText ho
          · exact fun n hn => ho n (by simpa using hn)
      | number n => exact hasked
      | bool b => exact hasked
      | cellText t => exact hasked

theorem aggregate_apply (h : w.Keeps strict strict' reads allowed) (e : Expr) {f : Aggregate}
    (hallowed : allowed (.aggregate f)) {args : List Argument}
    (hargs : ∀ arg ∈ args, w.argument arg) :
    Formula.Tracks w.stops (w.value e) (f.apply strict args) (f.apply strict' args) := by
  have hall : Formula.Tracks w.stops (fun ns => ∀ n ∈ ns, w.number n)
      (f.allNumbers strict args) (f.allNumbers strict' args) := by
    refine .bind (.mapM fun arg harg => h.numbersOf f (hargs arg harg)) fun nss hnss => .pure ?_
    intro n hn
    obtain ⟨ns, hns, hn⟩ := List.mem_flatten.mp hn
    exact hnss ns hns n hn
  unfold Aggregate.apply
  refine .ite (.throw _) ?_
  cases f with
  | countAll => exact .pure (h.ofNumber e (h.count _ hallowed (.inr (.inr (.inl rfl)))))
  | count =>
      exact .bind hall fun _ _ => .pure (h.ofNumber e (h.count _ hallowed (.inr (.inl rfl))))
  | sum => exact .bind hall fun ns hns => h.checked e fun _ hn => h.total hallowed hns hn
  | average =>
      exact .bind hall fun _ hns =>
        .bind (.same fun _ hn => h.mean hns hn) fun _ hn => .pure (h.ofNumber e hn)
  | least =>
      exact .bind hall fun ns hns =>
        .bind (.same fun _ hn => hns _ (Aggregate.mem_of_pick hn)) fun _ hn =>
        .pure (h.ofNumber e hn)
  | greatest =>
      exact .bind hall fun ns hns =>
        .bind (.same fun _ hn => hns _ (Aggregate.mem_of_pick hn)) fun _ hn =>
        .pure (h.ofNumber e hn)

/-! ## Ranges and random numbers -/

variable {s : Setting}

theorem readArgument (h : w.Keeps strict strict' reads allowed) (depth : Nat) (f : Aggregate)
    (first last : String) : w.Tracks w.argument (readArgument { s with strict } depth f first last)
      (Formula.readArgument { s with strict := strict' } depth f first last) := by
  unfold Formula.readArgument
  split
  · exact .bind (Tracks.readRange (Q := fun _ => True) depth first last fun _ _ _ _ _ => trivial)
      fun _ _ => .pure trivial
  · exact .bind (Tracks.readRange depth first last fun _ _ _ hv hn => h.inRange hv hn)
      fun _ hns => .pure hns

theorem draw (h : w.Keeps strict strict' reads allowed) (e : Expr) {f : RandomFunction}
    (hallowed : allowed (.random f)) {xs : List Scalar} (hxs : ∀ x ∈ xs, ∃ e, w.value e x) :
    w.Tracks (w.value e) (f.draw strict xs) (f.draw strict' xs) := by
  unfold RandomFunction.draw
  refine .ite (.throw _) (.bind (.ofExcept (h.operands _ hxs)) fun ns hns => ?_)
  split
  · refine .bind_same fun low => .bind_same fun high => .ite ?_ ?_
    · exact .bind_same fun _ => .bind_same fun _ => .throw _
    · exact .bind (.integer low high) fun i _ =>
        .pure (h.ofNumber e (h.count i hallowed (.inr (.inr (.inr rfl)))))
  · exact .bind .fraction fun x hx => .pure (h.ofNumber e (h.fraction hx))

theorem apply (h : w.Keeps strict strict' reads allowed) {opener : String} {args : List Expr}
    {f : Function} (hf : Function.named? (nameOfOpener opener) = some f) (hallowed : allowed f)
    {xs : List Scalar} (hxs : ∀ x ∈ xs, ∃ e, w.value e x) :
    w.Tracks (w.value (.call opener args)) (f.apply { s with strict } xs)
      (f.apply { s with strict := strict' } xs) := by
  cases f with
  | conditional f => exact .throw _
  | random f => exact h.draw _ hallowed hxs
  | aggregate f =>
      refine .ofExcept (h.aggregate_apply _ hallowed fun arg harg => ?_)
      obtain ⟨x, hx, rfl⟩ := List.mem_map.mp harg
      exact hxs x hx
  | math f => exact .ofExcept (h.math_apply hf hallowed hxs)
  | logical f => exact .ofExcept (h.logical_apply _ f xs)
  | text f => exact .ofExcept (h.text_apply _ hallowed hxs)
  | date f => exact .ofExcept (h.date_apply _ _ f hxs)

/-! ## Expressions -/

mutual

/-- **What is known of the value of an expression**, and that both evaluations come to it unless the
first one stops. -/
theorem eval (h : w.Keeps strict strict' reads allowed) (depth : Nat) :
    ∀ e : Expr, (∀ p ∈ e.parts, reads p) → (∀ f ∈ e.callees, allowed f) →
      w.Tracks (w.value e) (eval { s with strict } depth e)
        (Formula.eval { s with strict := strict' } depth e)
  | .number text, _, _ => by
      rw [Formula.eval, Formula.eval]
      exact .ite (.throw _) (.bind (.ofExcept (.same fun _ hn => h.literal hn)) fun n hn =>
        .pure (h.ofNumber _ hn))
  | .bool b, _, _ => by
      rw [Formula.eval, Formula.eval]
      exact .ite (.throw _) (.pure (h.bool _ b))
  | .text literal, _, _ => by
      rw [Formula.eval, Formula.eval]
      exact .ite (.throw _) (.pure (h.text _ _))
  | .cell address, hp, _ => by
      rw [Formula.eval, Formula.eval]
      exact .ite (.throw _) (.bind (.readCell _ address) fun v hv =>
        .ofExcept (.same fun x hx => h.cell (hp _ (Expr.self_mem_parts _)) hv hx))
  | .range first last, _, _ => by
      rw [Formula.eval, Formula.eval]
      exact .ite (.throw _) (.throw _)
  | .sign op e, hp, he => by
      rw [Formula.eval, Formula.eval]
      rw [Expr.callees] at he
      rw [Expr.parts] at hp
      exact .ite (.throw _) (.bind (eval h _ e (fun p hm => hp p (List.mem_cons_of_mem _ hm)) he)
        fun x hx => .bind (.ofExcept (h.operand none hx)) fun n hn =>
        .pure (h.ofNumber _ (h.sign op hn)))
  | .percent e, hp, he => by
      rw [Formula.eval, Formula.eval]
      rw [Expr.callees] at he
      rw [Expr.parts] at hp
      exact .ite (.throw _) (.bind (eval h _ e (fun p hm => hp p (List.mem_cons_of_mem _ hm)) he)
        fun x hx => .bind (.ofExcept (h.operand none hx)) fun n hn =>
        .bind (.ofExcept (.same fun _ hm => h.percent hn hm)) fun m hm => .pure (h.ofNumber _ hm))
  | .binary op left right, hp, he => by
      rw [Formula.eval, Formula.eval]
      rw [Expr.callees] at he
      have hself := hp _ (Expr.self_mem_parts _)
      rw [Expr.parts] at hp
      have hl := eval h (depth + operandCost) left
        (fun p hm => hp p (List.mem_cons_of_mem _ (List.mem_append_left _ hm)))
        fun f hf => he f (List.mem_append_left _ hf)
      have hr := eval h (depth + operandCost) right
        (fun p hm => hp p (List.mem_cons_of_mem _ (List.mem_append_right _ hm)))
        fun f hf => he f (List.mem_append_right _ hf)
      refine .ite (.throw _) ?_
      -- arithmetic reads the left operand as a number before the right one is evaluated
      cases ho : arithmetic? op with
      | some f =>
          refine .bind hl fun x hx => .bind (.ofExcept (h.operand none hx)) fun m hm =>
            .bind hr fun y hy => .bind (.ofExcept (h.operand none hy)) fun n hn => ?_
          exact .ofExcept (h.checked _ fun _ hk => h.compute hself ho hm hn hk)
      | none =>
          refine .bind hl fun x _ => .bind hr fun y _ => ?_
          cases op with
          | compare c => exact .pure (h.bool _ _)
          | _ => exact .bind_same fun _ => .bind_same fun _ => .pure (h.text _ _)
  | .call opener args, hp, he => by
      rw [Formula.eval, Formula.eval]
      rw [Expr.callees] at he
      rw [Expr.parts] at hp
      have ha : ∀ f ∈ calleesOfAll args, allowed f := fun f hf => he f (List.mem_append_right _ hf)
      have hp : ∀ p ∈ partsOfAll args, reads p := fun p hm => hp p (List.mem_cons_of_mem _ hm)
      refine .ite (.throw _) ?_
      dsimp only
      -- a name that stands for a function is among the callees, so the function is an allowed one
      cases hn : Function.named? (nameOfOpener opener) with
      | none => exact .throw _
      | some f =>
          have hmem : f ∈ (Function.named? (nameOfOpener opener)).toList := by
            rw [hn]
            exact List.mem_singleton_self f
          have hf : allowed f := he f (List.mem_append_left _ hmem)
          cases f with
          | conditional c =>
              cases c with
              | ifThen => exact evalIfThen h depth hn args hp ha
              | ifError => exact evalIfError h depth hn hf args hp ha
              | isError => exact evalIsError h depth hf args hp ha
          | aggregate f =>
              exact .bind (evalArguments h depth f args hp ha) fun _ hargs =>
                .ofExcept (h.aggregate_apply _ hf hargs)
          | random f => exact .bind (evalAll h depth args hp ha) fun _ hxs => h.apply hn hf hxs
          | math f => exact .bind (evalAll h depth args hp ha) fun _ hxs => h.apply hn hf hxs
          | logical f => exact .bind (evalAll h depth args hp ha) fun _ hxs => h.apply hn hf hxs
          | text f => exact .bind (evalAll h depth args hp ha) fun _ hxs => h.apply hn hf hxs
          | date f => exact .bind (evalAll h depth args hp ha) fun _ hxs => h.apply hn hf hxs

theorem evalAll (h : w.Keeps strict strict' reads allowed) (depth : Nat) : ∀ es : List Expr,
    (∀ p ∈ partsOfAll es, reads p) → (∀ f ∈ calleesOfAll es, allowed f) →
      w.Tracks (fun xs => ∀ x ∈ xs, ∃ e, w.value e x) (evalAll { s with strict } depth es)
        (Formula.evalAll { s with strict := strict' } depth es)
  | [], _, _ => .pure fun _ hx => absurd hx List.not_mem_nil
  | e :: es, hp, he => by
      rw [calleesOfAll] at he
      rw [partsOfAll] at hp
      have hfirst := eval h (depth + argumentCost) e
        (fun p hm => hp p (List.mem_append_left _ hm)) fun f hf => he f (List.mem_append_left _ hf)
      have hrest := evalAll h depth es (fun p hm => hp p (List.mem_append_right _ hm))
        fun f hf => he f (List.mem_append_right _ hf)
      rw [Formula.evalAll, Formula.evalAll]
      exact .bind hfirst fun x hx => .bind hrest fun xs hxs =>
        .pure (List.forall_mem_cons.mpr ⟨⟨e, hx⟩, hxs⟩)

theorem evalArguments (h : w.Keeps strict strict' reads allowed) (depth : Nat) (f : Aggregate) :
    ∀ es : List Expr, (∀ p ∈ partsOfAll es, reads p) → (∀ f ∈ calleesOfAll es, allowed f) →
      w.Tracks (fun args => ∀ arg ∈ args, w.argument arg)
        (evalArguments { s with strict } depth f es)
        (Formula.evalArguments { s with strict := strict' } depth f es)
  | [], _, _ => .pure fun _ harg => absurd harg List.not_mem_nil
  | e :: es, hp, he => by
      rw [calleesOfAll] at he
      rw [partsOfAll] at hp
      have hfirst := eval h (depth + guardedCost) e
        (fun p hm => hp p (List.mem_append_left _ hm)) fun f hf => he f (List.mem_append_left _ hf)
      have hrest := evalArguments h depth f es (fun p hm => hp p (List.mem_append_right _ hm))
        fun f hf => he f (List.mem_append_right _ hf)
      rw [Formula.evalArguments, Formula.evalArguments]
      cases hr : rangeArgument? f e with
      | some range =>
          exact .bind (h.readArgument _ f _ _) fun arg harg => .bind hrest fun args hargs =>
            .pure (List.forall_mem_cons.mpr ⟨harg, hargs⟩)
      | none =>
          refine .bind (P := w.argument) ?_ fun arg harg => .bind hrest fun args hargs =>
            .pure (List.forall_mem_cons.mpr ⟨harg, hargs⟩)
          rw [map_eq_pure_bind, map_eq_pure_bind]
          exact .bind hfirst fun x hx => .pure ⟨e, hx⟩

theorem evalIfThen (h : w.Keeps strict strict' reads allowed) (depth : Nat) {opener : String}
    (hn : Function.named? (nameOfOpener opener) = some (.conditional .ifThen)) :
    ∀ es : List Expr, (∀ p ∈ partsOfAll es, reads p) → (∀ f ∈ calleesOfAll es, allowed f) →
      w.Tracks (w.value (.call opener es)) (evalIfThen { s with strict } depth es)
        (Formula.evalIfThen { s with strict := strict' } depth es)
  | [condition, yes], hp, he => by
      simp only [calleesOfAll, List.append_nil, List.mem_append] at he
      simp only [partsOfAll, List.append_nil, List.mem_append] at hp
      have hc := eval h (depth + argumentCost) condition (fun p hm => hp p (.inl hm))
        fun f hf => he f (.inl hf)
      have hyes := eval h (depth + argumentCost) yes (fun p hm => hp p (.inr hm))
        fun f hf => he f (.inr hf)
      rw [Formula.evalIfThen, Formula.evalIfThen]
      refine .bind hc fun _ _ => .bind_same fun b =>
        .ite (hyes.mono fun x hx => ?_) (.pure (h.bool _ _))
      exact h.branch hn List.mem_cons_self hx
  | [condition, yes, no], hp, he => by
      simp only [calleesOfAll, List.append_nil, List.mem_append] at he
      simp only [partsOfAll, List.append_nil, List.mem_append] at hp
      have hc := eval h (depth + argumentCost) condition (fun p hm => hp p (.inl hm))
        fun f hf => he f (.inl hf)
      have hyes := eval h (depth + argumentCost) yes (fun p hm => hp p (.inr (.inl hm)))
        fun f hf => he f (.inr (.inl hf))
      have hno := eval h (depth + argumentCost) no (fun p hm => hp p (.inr (.inr hm)))
        fun f hf => he f (.inr (.inr hf))
      rw [Formula.evalIfThen, Formula.evalIfThen]
      refine .bind hc fun _ _ => .bind_same fun b =>
        .ite (hyes.mono fun x hx => ?_) (hno.mono fun x hx => ?_)
      · exact h.branch hn List.mem_cons_self hx
      · exact h.branch hn (List.mem_cons_of_mem _ List.mem_cons_self) hx
  | [], _, _ => .throw _
  | [_], _, _ => .throw _
  | _ :: _ :: _ :: _ :: _, _, _ => .throw _

theorem evalIfError (h : w.Keeps strict strict' reads allowed) (depth : Nat) {opener : String}
    (hn : Function.named? (nameOfOpener opener) = some (.conditional .ifError))
    (hallowed : allowed (.conditional .ifError)) :
    ∀ es : List Expr, (∀ p ∈ partsOfAll es, reads p) → (∀ f ∈ calleesOfAll es, allowed f) →
      w.Tracks (w.value (.call opener es)) (evalIfError { s with strict } depth es)
        (Formula.evalIfError { s with strict := strict' } depth es)
  | [value, fallback], hp, he => by
      simp only [calleesOfAll, List.append_nil, List.mem_append] at he
      simp only [partsOfAll, List.append_nil, List.mem_append] at hp
      have hv := eval h (depth + guardedCost) value (fun p hm => hp p (.inl hm))
        fun f hf => he f (.inl hf)
      have hf := eval h (depth + argumentCost) fallback (fun p hm => hp p (.inr hm))
        fun f hf => he f (.inr hf)
      rw [Formula.evalIfError, Formula.evalIfError]
      -- failures are caught here, so the first evaluation cannot have stopped in the value
      refine .bind (hv.attempt (h.catches (.inl hallowed))) fun o ho => ?_
      cases o with
      | some x => exact .pure (h.fallback hn List.mem_cons_self (ho x rfl))
      | none =>
          exact hf.mono fun x hx => h.fallback hn (List.mem_cons_of_mem _ List.mem_cons_self) hx
  | [], _, _ => .throw _
  | [_], _, _ => .throw _
  | _ :: _ :: _ :: _, _, _ => .throw _

theorem evalIsError (h : w.Keeps strict strict' reads allowed) (depth : Nat) {opener : String}
    (hallowed : allowed (.conditional .isError)) :
    ∀ es : List Expr, (∀ p ∈ partsOfAll es, reads p) → (∀ f ∈ calleesOfAll es, allowed f) →
      w.Tracks (w.value (.call opener es)) (evalIsError { s with strict } depth es)
        (Formula.evalIsError { s with strict := strict' } depth es)
  | [value], hp, he => by
      simp only [calleesOfAll, List.append_nil] at he
      simp only [partsOfAll, List.append_nil] at hp
      have hv := eval h (depth + guardedCost) value hp he
      rw [Formula.evalIsError, Formula.evalIsError]
      exact .bind (hv.attempt (h.catches (.inr hallowed))) fun _ _ => .pure (h.bool _ _)
  | [], _, _ => .throw _
  | _ :: _ :: _, _, _ => .throw _

end

/-- **What is known of the outcome of a formula.** -/
theorem outcomeAt (h : w.Keeps strict strict' reads allowed) (depth : Nat) (text : String)
    (hp : ∀ e, parse text = .ok e → ∀ p ∈ e.parts, reads p) (ht : ∀ f ∈ callees text, allowed f) :
    (outcomeAt { s with strict } depth text).Tracks w.answers w.fractions w.stops
      (fun v => ∃ e x, parse text = .ok e ∧ w.value e x ∧ x.toValue = v)
      (Formula.outcomeAt { s with strict := strict' } depth text) := by
  unfold callees at ht
  unfold Formula.outcomeAt
  cases hparse : parse text with
  | error cause => exact .done (.throw cause)
  | ok e =>
      rw [hparse] at ht
      have heval := h.eval (s := s) depth e (hp e hparse) ht
      exact heval.bind (Q := fun v => ∃ e' x, Except.ok e = .ok e' ∧ w.value e' x ∧ x.toValue = v)
        fun x hx => .pure ⟨e, x, rfl, hx, rfl⟩

end Keeps

end Watch

/-- Noon of a day, for formulas that do not ask for the time. -/
def noon : Moment where
  date := ⟨1970, 7, 20, by decide, by decide, by decide, by decide, by decide, by decide⟩
  hour := 12
  minute := 0
  second := 0
  microsecond := 0
  offset := none

end Worksheet.Formula
