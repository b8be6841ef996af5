import Worksheet.Proofs.Dialogue
import Worksheet.Proofs.Kinds
import Worksheet.Proofs.Rectangles

/-!
# What evaluation is made of

An evaluation is put together from results, questions, catching and sequence.  A relation between
evaluations that these respect holds between two evaluations of an expression, at depths that go
along with each other and with keys that may differ.  That is the one induction over all expressions
here; what it needs to know of an expression is which cells and ranges stand in it, and which
functions it calls.
-/

namespace Worksheet.Formula

/-- A text is a formula if it starts with the equals sign. -/
theorem formula?_text_iff {text formula : String} :
    (Value.text text).formula? = some formula ↔ text = formula ∧ ∃ cs, text.toList = '=' :: cs := by
  simp only [Value.formula?]
  split
  · next hstart =>
      obtain ⟨cs, hcs⟩ := String.startsWith_string_iff.mp hstart
      exact ⟨fun h => ⟨Option.some.inj h, cs, hcs.symm⟩, fun h => congrArg some h.1⟩
  · next hstart =>
      refine ⟨nofun, fun ⟨_, cs, hcs⟩ => absurd (String.startsWith_string_iff.mpr ?_) hstart⟩
      exact ⟨cs, hcs.symm⟩

/-! ## Levels of nesting -/

theorem Setting.exceeds_zero (s : Setting) : s.exceeds 0 = false := by
  unfold Setting.exceeds
  split
  · exact decide_eq_false (Nat.not_lt_zero _)
  · rfl

theorem Setting.exceeds_of_unlimited {s : Setting} (h : s.limit = none) (depth : Nat) :
    s.exceeds depth = false := by
  unfold Setting.exceeds
  rw [h]

/-! ## What stands in an expression -/

mutual

/-- The expressions in an expression, itself included, in the order in which they are written. -/
def Expr.parts : Expr → List Expr
  | .call opener args => .call opener args :: partsOfAll args
  | .sign op e => .sign op e :: e.parts
  | .percent e => .percent e :: e.parts
  | .binary op left right => .binary op left right :: (left.parts ++ right.parts)
  | e => [e]

/-- The expressions in some expressions, in the order in which they are written. -/
def partsOfAll : List Expr → List Expr
  | [] => []
  | e :: es => e.parts ++ partsOfAll es

end

theorem Expr.self_mem_parts (e : Expr) : e ∈ e.parts := by
  cases e <;> simp [Expr.parts]

/-- Whether an expression can read a cell when it is evaluated: the cell stands in it, or a range
that contains the cell does. -/
def Expr.Reads (e : Expr) (address : String) : Prop :=
  .cell address ∈ e.parts ∨
    ∃ first last, .range first last ∈ e.parts ∧ Covers (first, last) address

namespace Expr

variable {a b first last : String} {e left right : Expr}

theorem reads_cell : (cell a).Reads b ↔ b = a := by
  simp [Reads, parts]

theorem reads_range : (range first last).Reads b ↔ Covers (first, last) b := by
  simp [Reads, parts]

theorem reads_sign {op : SignOp} : (sign op e).Reads b ↔ e.Reads b := by
  simp [Reads, parts]

theorem reads_percent : (percent e).Reads b ↔ e.Reads b := by
  simp [Reads, parts]

theorem reads_binary {op : BinaryOp} :
    (binary op left right).Reads b ↔ left.Reads b ∨ right.Reads b := by
  simp only [Reads, parts, List.mem_cons, List.mem_append, reduceCtorEq, false_or]
  constructor
  · rintro ((h | h) | ⟨first, last, h | h, hc⟩)
    · exact .inl (.inl h)
    · exact .inr (.inl h)
    · exact .inl (.inr ⟨first, last, h, hc⟩)
    · exact .inr (.inr ⟨first, last, h, hc⟩)
  · rintro ((h | ⟨first, last, h, hc⟩) | (h | ⟨first, last, h, hc⟩))
    · exact .inl (.inl h)
    · exact .inr ⟨first, last, .inl h, hc⟩
    · exact .inl (.inr h)
    · exact .inr ⟨first, last, .inr h, hc⟩

theorem mem_partsOfAll {part : Expr} {es : List Expr} :
    part ∈ partsOfAll es ↔ ∃ e ∈ es, part ∈ e.parts := by
  induction es with
  | nil => simp [partsOfAll]
  | cons e es ih => simp [partsOfAll, ih]

theorem reads_call {opener : String} {args : List Expr} :
    (call opener args).Reads b ↔ ∃ e ∈ args, e.Reads b := by
  simp only [Reads, parts, List.mem_cons, mem_partsOfAll, reduceCtorEq, false_or]
  constructor
  · rintro (⟨e, he, h⟩ | ⟨first, last, ⟨e, he, h⟩, hc⟩)
    · exact ⟨e, he, .inl h⟩
    · exact ⟨e, he, .inr ⟨first, last, h, hc⟩⟩
  · rintro ⟨e, he, h | ⟨first, last, h, hc⟩⟩
    · exact .inl ⟨e, he, h⟩
    · exact .inr ⟨first, last, ⟨e, he, h⟩, hc⟩

end Expr

/-- Whether what an expression reads, apart from the expressions within it, is among given cells. -/
def Expr.ReadsWithin (cells : String → Prop) : Expr → Prop
  | .cell a => cells a
  | .range first last => ∀ a, Covers (first, last) a → cells a
  | _ => True

theorem Expr.readsWithin_of_mem_parts {e part : Expr} {cells : String → Prop}
    (hpart : part ∈ e.parts) (h : ∀ a, e.Reads a → cells a) : part.ReadsWithin cells := by
  cases part with
  | cell a => exact h a (.inl hpart)
  | range first last => exact fun a ha => h a (.inr ⟨first, last, hpart, ha⟩)
  | _ => trivial

mutual

/-- The functions that an expression calls, however deep inside. -/
def Expr.callees : Expr → List Function
  | .call opener args => (Function.named? (nameOfOpener opener)).toList ++ calleesOfAll args
  | .sign _ e => e.callees
  | .percent e => e.callees
  | .binary _ left right => left.callees ++ right.callees
  | _ => []

/-- The functions that some expressions call. -/
def calleesOfAll : List Expr → List Function
  | [] => []
  | e :: es => e.callees ++ calleesOfAll es

end

/-- The functions that a formula's text calls. -/
def callees (text : String) : List Function :=
  match parse text with
  | .ok e => e.callees
  | .error _ => []

/-! ## Relations between evaluations -/

/-- A relation between evaluations that goes through sequences of steps. -/
structure Sequenced (R : {α : Type} → Evaluation α → Evaluation α → Prop) : Prop where
  /-- No step fails for a cycle unless a cell that is read has. -/
  ofExcept {α : Type} {r : Except Failure α} :
    FindsNoCycle r → R (Evaluation.ofExcept r) (Evaluation.ofExcept r)
  bind {α β : Type} {x y : Evaluation α} {f g : α → Evaluation β} :
    R x y → (∀ a, R (f a) (g a)) → R (x >>= f) (y >>= g)

namespace Sequenced

variable {R : {α : Type} → Evaluation α → Evaluation α → Prop} {α β : Type}

theorem pure (h : Sequenced R) (a : α) : R (Pure.pure a : Evaluation α) (Pure.pure a) :=
  h.ofExcept failsIn_pure

theorem throw (h : Sequenced R) {cause : Failure} (hc : cause.kind ≠ .circular) :
    R (MonadExcept.throw cause : Evaluation α) (MonadExcept.throw cause) :=
  h.ofExcept (failsIn_error.mpr hc)

theorem map (h : Sequenced R) {x y : Evaluation α} (f : α → β) (hxy : R x y) :
    R (f <$> x) (f <$> y) := by
  rw [map_eq_pure_bind, map_eq_pure_bind]
  exact h.bind hxy fun a => h.pure (f a)

theorem mapM (h : Sequenced R) {f g : α → Evaluation β} {l : List α}
    (hfg : ∀ a ∈ l, R (f a) (g a)) : R (l.mapM f) (l.mapM g) := by
  induction l with
  | nil => exact h.pure []
  | cons a l ih =>
      rw [List.mapM_cons, List.mapM_cons]
      refine h.bind (hfg a List.mem_cons_self) fun b => h.bind (ih ?_) fun bs => h.pure (b :: bs)
      exact fun c hc => hfg c (List.mem_cons_of_mem a hc)

/-- Reading a range is reading the cells that it covers. -/
theorem readRange (h : Sequenced R) {s : Setting} {depth depth' : Nat} {first last : String}
    {use : Value → Except Failure (Option α)} (huse : ∀ v, FindsNoCycle (use v))
    (hcell : ∀ a, Covers (first, last) a →
      R (Evaluation.readCell depth a) (Evaluation.readCell depth' a)) :
    R (readRange s depth first last use) (readRange s depth' first last use) := by
  unfold Formula.readRange
  cases hr : Rectangle.ofTexts first last with
  | error cause => exact h.throw (Rectangle.findsNoCycle_ofTexts first last cause hr)
  | ok r =>
  show R (Evaluation.ofExcept (r.populated s.keys) >>= _)
    (Evaluation.ofExcept (r.populated s.keys) >>= _)
  cases hf : r.populated s.keys with
  | error cause => exact h.throw (r.findsNoCycle_populated s.keys cause hf)
  | ok found =>
  show R (found.mapM _ >>= _) (found.mapM _ >>= _)
  refine h.bind (h.mapM fun a ha => ?_) fun vs => h.pure _
  exact h.bind (hcell a (Rectangle.covers_of_mem_populated hr hf ha)) fun v => h.ofExcept (huse v)

end Sequenced


/-- A relation between evaluations of formulas that is there between the steps of two of them: at
depths that go along, and with keys that may differ.  The questions are those that `reads` allows,
and the functions that catch failures or draw are those that `allowed` does. -/
structure Relates (s : Setting) (keys : List String) (depths : Nat → Nat → Prop)
    (reads : Expr → Prop) (allowed : Function → Prop)
    (R : {α : Type} → Evaluation α → Evaluation α → Prop) : Prop extends Sequenced R where
  exceeds {depth depth' : Nat} : depths depth depth' → s.exceeds depth = s.exceeds depth'
  deeper {depth depth' : Nat} (cost : Nat) :
    depths depth depth' → depths (depth + cost) (depth' + cost)
  readCell {depth depth' : Nat} {a : String} :
    depths depth depth' → reads (.cell a) →
      R (Evaluation.readCell depth a) (Evaluation.readCell depth' a)
  /-- Where presence is counted, a single cell is a range as well. -/
  readRange {α : Type} {depth depth' : Nat} {first last : String}
    {use : Value → Except Failure (Option α)} :
    depths depth depth' → reads (.range first last) ∨ first = last ∧ reads (.cell first) →
      use .null = .ok none → (∀ v, FindsNoCycle (use v)) →
      R (readRange s depth first last use)
        (Formula.readRange { s with keys } depth' first last use)
  /-- Failures are caught by two functions alone. -/
  attempt {α : Type} {x y : Evaluation α} :
    allowed (.conditional .ifError) ∨ allowed (.conditional .isError) → R x y →
      R x.attempt y.attempt
  fraction {f : RandomFunction} :
    allowed (.random f) → R Evaluation.drawFraction Evaluation.drawFraction
  integer {f : RandomFunction} (low high : Int) :
    allowed (.random f) → R (Evaluation.drawInteger low high) (Evaluation.drawInteger low high)

namespace Relates

variable {s : Setting} {keys : List String} {depths : Nat → Nat → Prop} {reads : Expr → Prop}
  {allowed : Function → Prop} {R : {α : Type} → Evaluation α → Evaluation α → Prop}
  {depth depth' : Nat}

/-- The check of the level of nesting has the same answer on both sides. -/
theorem guarded (h : Relates s keys depths reads allowed R) (hd : depths depth depth') {α : Type}
    {x y : Evaluation α} (hxy : R x y) :
    R (if s.exceeds depth then MonadExcept.throw Failure.tooDeep else x)
      (if Setting.exceeds { s with keys } depth' then
        MonadExcept.throw Failure.tooDeep else y) := by
  have he : Setting.exceeds { s with keys } depth' = s.exceeds depth := (h.exceeds hd).symm
  rw [he]
  split
  · exact h.throw (by decide)
  · exact hxy

theorem readArgument (h : Relates s keys depths reads allowed R) (hd : depths depth depth')
    (f : Aggregate) {first last : String}
    (hr : reads (.range first last) ∨ first = last ∧ reads (.cell first)) :
    R (readArgument s depth f first last)
      (Formula.readArgument { s with keys } depth' f first last) := by
  unfold Formula.readArgument
  split
  · exact h.bind (h.readRange hd hr rfl fun v => failsIn_ok) fun _ => h.pure _
  · exact h.bind (h.readRange hd hr rfl Value.findsNoCycle_number?) fun _ => h.pure _

theorem draw (h : Relates s keys depths reads allowed R) {f : RandomFunction}
    (hf : allowed (.random f)) (strict : Bool) (args : List Scalar) :
    R (f.draw strict args) (f.draw strict args) := by
  unfold RandomFunction.draw
  split
  · exact h.throw (by simp [Failure.kind])
  · refine h.bind (h.ofExcept (failsIn_mapM fun v => v.findsNoCycle_asNumber _ _)) fun ns => ?_
    split
    · refine h.bind (h.ofExcept (Number.findsNoCycle_ceil _)) fun low =>
        h.bind (h.ofExcept (Number.findsNoCycle_floor _)) fun high => ?_
      split
      · refine h.bind (h.ofExcept (Number.findsNoCycle_intText _)) fun _ =>
          h.bind (h.ofExcept (Number.findsNoCycle_intText _)) fun _ => h.throw ?_
        simp [Failure.kind]
      · exact h.bind (h.integer low high hf) fun _ => h.pure _
    · exact h.bind (h.fraction hf) fun _ => h.pure _

theorem apply (h : Relates s keys depths reads allowed R) {f : Function} (hf : allowed f)
    (args : List Scalar) : R (f.apply s args) (f.apply { s with keys } args) := by
  cases f with
  | conditional f => exact h.throw (by simp [Failure.kind, Conditional.misuse])
  | random f => exact h.draw hf _ _
  | aggregate f => exact h.ofExcept (f.findsNoCycle_apply _ _)
  | math f => exact h.ofExcept (f.findsNoCycle_apply _ _)
  | logical f => exact h.ofExcept (f.findsNoCycle_apply _)
  | text f => exact h.ofExcept (f.findsNoCycle_apply _ _)
  | date f => exact h.ofExcept (f.findsNoCycle_apply _ _ _)

theorem misuse (h : Relates s keys depths reads allowed R) (f : Conditional) :
    R (MonadExcept.throw f.misuse : Evaluation Scalar) (MonadExcept.throw f.misuse) :=
  h.throw (by simp [Failure.kind, Conditional.misuse])

theorem reads_of_rangeArgument? {f : Aggregate} {e : Expr} {first last : String}
    (hr : rangeArgument? f e = some (first, last)) (he : ∀ p ∈ e.parts, reads p) :
    reads (.range first last) ∨ first = last ∧ reads (.cell first) := by
  unfold rangeArgument? at hr
  split at hr
  · cases hr
    exact .inl (he _ (Expr.self_mem_parts _))
  · split at hr
    · cases hr
      exact .inr ⟨rfl, he _ (Expr.self_mem_parts _)⟩
    · cases hr
  · cases hr

mutual

/-- A relation that is there between the steps is there between the evaluations. -/
theorem eval (h : Relates s keys depths reads allowed R) {depth depth' : Nat}
    (hd : depths depth depth') : ∀ e : Expr, (∀ p ∈ e.parts, reads p) →
      (∀ f ∈ e.callees, allowed f) → R (eval s depth e) (Formula.eval { s with keys } depth' e)
  | .number text, _, _ => by
      rw [Formula.eval, Formula.eval]
      exact h.guarded hd (h.bind (h.ofExcept (findsNoCycle_numberLiteral text)) fun n => h.pure _)
  | .bool b, _, _ => by
      rw [Formula.eval, Formula.eval]
      exact h.guarded hd (h.pure _)
  | .text literal, _, _ => by
      rw [Formula.eval, Formula.eval]
      exact h.guarded hd (h.pure _)
  | .cell address, hp, _ => by
      rw [Formula.eval, Formula.eval]
      exact h.guarded hd (h.bind (h.readCell (h.deeper _ hd) (hp _ (Expr.self_mem_parts _)))
        fun v => h.ofExcept v.findsNoCycle_toScalar)
  | .range first last, _, _ => by
      rw [Formula.eval, Formula.eval]
      exact h.guarded hd (h.throw (by simp [Failure.kind]))
  | .sign op e, hp, he => by
      rw [Formula.eval, Formula.eval]
      rw [Expr.callees] at he
      rw [Expr.parts] at hp
      refine h.guarded hd (h.bind (eval h (h.deeper _ hd) e ?_ he) fun v =>
        h.bind (h.ofExcept (v.findsNoCycle_asNumber _ _)) fun n => h.pure _)
      exact fun p hm => hp p (List.mem_cons_of_mem _ hm)
  | .percent e, hp, he => by
      rw [Formula.eval, Formula.eval]
      rw [Expr.callees] at he
      rw [Expr.parts] at hp
      refine h.guarded hd (h.bind (eval h (h.deeper _ hd) e ?_ he) fun v =>
        h.bind (h.ofExcept (v.findsNoCycle_asNumber _ _)) fun n =>
        h.bind (h.ofExcept (n.findsNoCycle_quotient _)) fun n => h.pure _)
      exact fun p hm => hp p (List.mem_cons_of_mem _ hm)
  | .binary op left right, hp, he => by
      rw [Formula.eval, Formula.eval]
      rw [Expr.callees] at he
      rw [Expr.parts] at hp
      have hl := eval h (h.deeper operandCost hd) left
        (fun p hm => hp p (List.mem_cons_of_mem _ (List.mem_append_left _ hm)))
        fun f hf => he f (List.mem_append_left _ hf)
      have hr := eval h (h.deeper operandCost hd) right
        (fun p hm => hp p (List.mem_cons_of_mem _ (List.mem_append_right _ hm)))
        fun f hf => he f (List.mem_append_right _ hf)
      refine h.guarded hd ?_
      -- arithmetic makes a number of the left operand before it looks at the right one
      cases ho : arithmetic? op with
      | some f =>
          exact h.bind hl fun l => h.bind (h.ofExcept (l.findsNoCycle_asNumber _ _)) fun m =>
            h.bind hr fun r => h.bind (h.ofExcept (r.findsNoCycle_asNumber _ _)) fun n =>
            h.ofExcept (findsNoCycle_compute (findsNoCycle_arithmetic? ho) m n)
      | none =>
          refine h.bind hl fun l => h.bind hr fun r => ?_
          cases op with
          | compare c => exact h.pure _
          | _ => exact h.bind (h.ofExcept l.findsNoCycle_toText) fun front =>
              h.bind (h.ofExcept r.findsNoCycle_toText) fun back => h.pure _
  | .call opener args, hp, he => by
      rw [Formula.eval, Formula.eval]
      rw [Expr.callees] at he
      rw [Expr.parts] at hp
      have ha : ∀ f ∈ calleesOfAll args, allowed f := fun f hf => he f (List.mem_append_right _ hf)
      have hp : ∀ p ∈ partsOfAll args, reads p := fun p hm => hp p (List.mem_cons_of_mem _ hm)
      refine h.guarded hd ?_
      dsimp only
      -- a name that no function has fails before any argument is looked at
      cases hn : Function.named? (nameOfOpener opener) with
      | none => exact h.throw (by simp [Failure.kind])
      | some f =>
          have hmem : f ∈ (Function.named? (nameOfOpener opener)).toList := by
            rw [hn]
            exact List.mem_singleton_self f
          have hf : allowed f := he f (List.mem_append_left _ hmem)
          cases f with
          | conditional c =>
              cases c with
              | ifThen => exact evalIfThen h hd args hp ha
              | ifError => exact evalIfError h (.inl hf) hd args hp ha
              | isError => exact evalIsError h (.inr hf) hd args hp ha
          | aggregate f =>
              exact h.bind (evalArguments h hd f args hp ha) fun _ =>
                h.ofExcept (f.findsNoCycle_apply _ _)
          | random f => exact h.bind (evalAll h hd args hp ha) fun _ => h.apply hf _
          | math f => exact h.bind (evalAll h hd args hp ha) fun _ => h.apply hf _
          | logical f => exact h.bind (evalAll h hd args hp ha) fun _ => h.apply hf _
          | text f => exact h.bind (evalAll h hd args hp ha) fun _ => h.apply hf _
          | date f => exact h.bind (evalAll h hd args hp ha) fun _ => h.apply hf _

theorem evalAll (h : Relates s keys depths reads allowed R) {depth depth' : Nat}
    (hd : depths depth depth') : ∀ es : List Expr, (∀ p ∈ partsOfAll es, reads p) →
      (∀ f ∈ calleesOfAll es, allowed f) →
      R (evalAll s depth es) (Formula.evalAll { s with keys } depth' es)
  | [], _, _ => h.pure _
  | e :: es, hp, he => by
      rw [calleesOfAll] at he
      rw [partsOfAll] at hp
      have hfirst := eval h (h.deeper argumentCost hd) e
        (fun p hm => hp p (List.mem_append_left _ hm)) fun f hf => he f (List.mem_append_left _ hf)
      have hrest := evalAll h hd es (fun p hm => hp p (List.mem_append_right _ hm))
        fun f hf => he f (List.mem_append_right _ hf)
      rw [Formula.evalAll, Formula.evalAll]
      exact h.bind hfirst fun v => h.bind hrest fun _ => h.pure _

theorem evalArguments (h : Relates s keys depths reads allowed R) {depth depth' : Nat}
    (hd : depths depth depth') (f : Aggregate) : ∀ es : List Expr,
      (∀ p ∈ partsOfAll es, reads p) → (∀ f ∈ calleesOfAll es, allowed f) →
      R (evalArguments s depth f es) (Formula.evalArguments { s with keys } depth' f es)
  | [], _, _ => h.pure _
  | e :: es, hp, he => by
      rw [calleesOfAll] at he
      rw [partsOfAll] at hp
      have hpe : ∀ p ∈ e.parts, reads p := fun p hm => hp p (List.mem_append_left _ hm)
      have hrest := evalArguments h hd f es (fun p hm => hp p (List.mem_append_right _ hm))
        fun f hf => he f (List.mem_append_right _ hf)
      rw [Formula.evalArguments, Formula.evalArguments]
      cases hr : rangeArgument? f e with
      | some range =>
          exact h.bind (h.readArgument (h.deeper _ hd) f (reads_of_rangeArgument? hr hpe)) fun v =>
            h.bind hrest fun _ => h.pure _
      | none =>
          refine h.bind (h.map _ ?_) fun v => h.bind hrest fun _ => h.pure _
          exact eval h (h.deeper _ hd) e hpe fun f hf => he f (List.mem_append_left _ hf)

theorem evalIfThen (h : Relates s keys depths reads allowed R) {depth depth' : Nat}
    (hd : depths depth depth') : ∀ es : List Expr, (∀ p ∈ partsOfAll es, reads p) →
      (∀ f ∈ calleesOfAll es, allowed f) →
      R (evalIfThen s depth es) (Formula.evalIfThen { s with keys } depth' es)
  | [condition, yes], hp, he => by
      simp only [calleesOfAll, List.append_nil, List.mem_append] at he
      simp only [partsOfAll, List.append_nil, List.mem_append] at hp
      have hd := h.deeper argumentCost hd
      rw [Formula.evalIfThen, Formula.evalIfThen]
      refine h.bind (eval h hd condition (fun p hm => hp p (.inl hm)) fun f hf => he f (.inl hf))
        fun v => h.bind (h.ofExcept v.findsNoCycle_asCondition) fun b => ?_
      cases b with
      | true => exact eval h hd yes (fun p hm => hp p (.inr hm)) fun f hf => he f (.inr hf)
      | false => exact h.pure _
  | [condition, yes, no], hp, he => by
      simp only [calleesOfAll, List.append_nil, List.mem_append] at he
      simp only [partsOfAll, List.append_nil, List.mem_append] at hp
      have hd := h.deeper argumentCost hd
      rw [Formula.evalIfThen, Formula.evalIfThen]
      refine h.bind (eval h hd condition (fun p hm => hp p (.inl hm)) fun f hf => he f (.inl hf))
        fun v => h.bind (h.ofExcept v.findsNoCycle_asCondition) fun b => ?_
      cases b with
      | true =>
          exact eval h hd yes (fun p hm => hp p (.inr (.inl hm))) fun f hf => he f (.inr (.inl hf))
      | false =>
          exact eval h hd no (fun p hm => hp p (.inr (.inr hm))) fun f hf => he f (.inr (.inr hf))
  | [], _, _ => h.misuse _
  | [_], _, _ => h.misuse _
  | _ :: _ :: _ :: _ :: _, _, _ => h.misuse _

theorem evalIfError (h : Relates s keys depths reads allowed R)
    (hc : allowed (.conditional .ifError) ∨ allowed (.conditional .isError)) {depth depth' : Nat}
    (hd : depths depth depth') : ∀ es : List Expr, (∀ p ∈ partsOfAll es, reads p) →
      (∀ f ∈ calleesOfAll es, allowed f) →
      R (evalIfError s depth es) (Formula.evalIfError { s with keys } depth' es)
  | [value, fallback], hp, he => by
      simp only [calleesOfAll, List.append_nil, List.mem_append] at he
      simp only [partsOfAll, List.append_nil, List.mem_append] at hp
      rw [Formula.evalIfError, Formula.evalIfError]
      refine h.bind (h.attempt hc (eval h (h.deeper _ hd) value (fun p hm => hp p (.inl hm))
        fun f hf => he f (.inl hf))) fun v => ?_
      cases v with
      | some v => exact h.pure _
      | none =>
          exact eval h (h.deeper _ hd) fallback (fun p hm => hp p (.inr hm))
            fun f hf => he f (.inr hf)
  | [], _, _ => h.misuse _
  | [_], _, _ => h.misuse _
  | _ :: _ :: _ :: _, _, _ => h.misuse _

theorem evalIsError (h : Relates s keys depths reads allowed R)
    (hc : allowed (.conditional .ifError) ∨ allowed (.conditional .isError)) {depth depth' : Nat}
    (hd : depths depth depth') : ∀ es : List Expr, (∀ p ∈ partsOfAll es, reads p) →
      (∀ f ∈ calleesOfAll es, allowed f) →
      R (evalIsError s depth es) (Formula.evalIsError { s with keys } depth' es)
  | [value], hp, he => by
      simp only [calleesOfAll, List.append_nil] at he
      simp only [partsOfAll, List.append_nil] at hp
      rw [Formula.evalIsError, Formula.evalIsError]
      exact h.bind (h.attempt hc (eval h (h.deeper _ hd) value hp he)) fun v => h.pure _
  | [], _, _ => h.misuse _
  | _ :: _ :: _, _, _ => h.misuse _

end

/-- A relation that is there between the steps is there between the outcomes of a formula. -/
theorem outcomeAt (h : Relates s keys depths reads allowed R) (hd : depths depth depth')
    (text : String) (hp : ∀ e, parse text = .ok e → ∀ p ∈ e.parts, reads p)
    (ht : ∀ f ∈ callees text, allowed f) :
    R (ExceptT.mk (outcomeAt s depth text))
      (ExceptT.mk (Formula.outcomeAt { s with keys } depth' text)) := by
  unfold callees at ht
  unfold Formula.outcomeAt
  cases hparse : parse text with
  | error cause => exact h.throw (findsNoCycle_parse text cause hparse)
  | ok e =>
      rw [hparse] at ht
      show R (Formula.eval s depth e >>= fun v => Pure.pure v.toValue)
        (Formula.eval { s with keys } depth' e >>= fun v => Pure.pure v.toValue)
      exact h.bind (h.eval hd e (hp e hparse) ht) fun v => h.pure _

end Relates

/-- What holds for the cells of a range holds for reading the range, as long as the keys are the
same. -/
theorem Relates.ofCells {s : Setting} {depths : Nat → Nat → Prop} {cells : String → Prop}
    {allowed : Function → Prop} {R : {α : Type} → Evaluation α → Evaluation α → Prop}
    (h : Sequenced R)
    (exceeds : ∀ {depth depth'}, depths depth depth' → s.exceeds depth = s.exceeds depth')
    (deeper : ∀ {depth depth'} cost, depths depth depth' → depths (depth + cost) (depth' + cost))
    (readCell : ∀ {depth depth' a}, depths depth depth' → cells a →
      R (Evaluation.readCell depth a) (Evaluation.readCell depth' a))
    (attempt : ∀ {α : Type} {x y : Evaluation α},
      allowed (.conditional .ifError) ∨ allowed (.conditional .isError) → R x y →
        R x.attempt y.attempt)
    (fraction : ∀ {f}, allowed (.random f) → R Evaluation.drawFraction Evaluation.drawFraction)
    (integer : ∀ {f} low high, allowed (.random f) →
      R (Evaluation.drawInteger low high) (Evaluation.drawInteger low high)) :
    Relates s s.keys depths (Expr.ReadsWithin cells) allowed R where
  toSequenced := h
  exceeds := exceeds
  deeper := deeper
  readCell := readCell
  readRange hd hr _ huse := by
    refine h.readRange huse fun a ha => readCell hd ?_
    rcases hr with hr | ⟨rfl, hr⟩
    · exact hr a ha
    · exact Rectangle.eq_of_covers_self ha ▸ hr
  attempt := attempt
  fraction := fraction
  integer := integer

/-! ## Relations that do not look at cells -/

/-- A relation between evaluations that holds between the same steps, whichever cells are read and
at any depths, when only some functions are called. -/
structure Respected (allowed : Function → Prop)
    (R : {α : Type} → Evaluation α → Evaluation α → Prop) : Prop where
  ofExcept {α : Type} (r : Except Failure α) :
    R (Evaluation.ofExcept r) (Evaluation.ofExcept r)
  readCell (depth depth' : Nat) (address : String) :
    R (Evaluation.readCell depth address) (Evaluation.readCell depth' address)
  bind {α β : Type} {x y : Evaluation α} {f g : α → Evaluation β} :
    R x y → (∀ a, R (f a) (g a)) → R (x >>= f) (y >>= g)
  /-- Failures are caught by two functions alone. -/
  attempt {α : Type} {x y : Evaluation α} :
    allowed (.conditional .ifError) ∨ allowed (.conditional .isError) → R x y →
      R x.attempt y.attempt
  fraction {f : RandomFunction} :
    allowed (.random f) → R Evaluation.drawFraction Evaluation.drawFraction
  integer {f : RandomFunction} (low high : Int) :
    allowed (.random f) → R (Evaluation.drawInteger low high) (Evaluation.drawInteger low high)

namespace Respected

variable {allowed : Function → Prop} {R : {α : Type} → Evaluation α → Evaluation α → Prop}
  {s : Setting}

theorem outcomeAt_of_depths (h : Respected allowed R) {depths : Nat → Nat → Prop}
    (hexceeds : ∀ {depth depth'}, depths depth depth' → s.exceeds depth = s.exceeds depth')
    (hdeeper : ∀ {depth depth'} cost, depths depth depth' → depths (depth + cost) (depth' + cost))
    {depth depth' : Nat} (hd : depths depth depth') (text : String)
    (ht : ∀ f ∈ callees text, allowed f) :
    R (ExceptT.mk (Formula.outcomeAt s depth text))
      (ExceptT.mk (Formula.outcomeAt s depth' text)) := by
  have hrelates : Relates s s.keys depths (Expr.ReadsWithin fun _ => True) allowed R :=
    .ofCells ⟨fun _ => h.ofExcept _, h.bind⟩ hexceeds hdeeper (fun _ _ => h.readCell _ _ _)
      h.attempt h.fraction h.integer
  exact hrelates.outcomeAt hd text
    (fun e _ p hp => Expr.readsWithin_of_mem_parts hp fun _ _ => trivial) ht

/-- As long as nesting is not bounded, what is respected relates what a formula's text says at any
two depths. -/
theorem outcomeAt (h : Respected allowed R) (hs : s.limit = none) (depth depth' : Nat)
    (text : String) (ht : ∀ f ∈ callees text, allowed f) :
    R (ExceptT.mk (Formula.outcomeAt s depth text))
      (ExceptT.mk (Formula.outcomeAt s depth' text)) := by
  have hexceeds := Setting.exceeds_of_unlimited hs
  exact @outcomeAt_of_depths _ _ _ h (fun _ _ => True) (fun _ => by rw [hexceeds, hexceeds])
    (fun _ _ => trivial) _ _ trivial text ht

/-- At one depth, nesting can be bounded. -/
theorem outcomeAt_self (h : Respected allowed R) (depth : Nat) (text : String)
    (ht : ∀ f ∈ callees text, allowed f) :
    R (ExceptT.mk (Formula.outcomeAt s depth text)) (ExceptT.mk (Formula.outcomeAt s depth text)) :=
  h.outcomeAt_of_depths (fun hd => congrArg s.exceeds hd)
    (fun cost hd => congrArg (· + cost) hd) rfl text ht

end Respected

/-! ## Depth -/

/-- Being the same but for depth. -/
theorem respected_level :
    Respected (fun _ => True) fun {α} (x y : Evaluation α) => x.run.level = y.run.level where
  ofExcept _ := rfl
  readCell _ _ _ := rfl
  bind {α β x y f g} hxy hfg := by
    show (x.run.bind _).level = (y.run.bind _).level
    rw [Dialogue.level_bind, Dialogue.level_bind, hxy]
    refine congrArg _ (funext fun r => ?_)
    cases r with
    | ok a => exact hfg a
    | error cause => rfl
  attempt {α x y} _ hxy := by
    show (x.run.bind _).level = (y.run.bind _).level
    rw [Dialogue.level_bind, Dialogue.level_bind, hxy]
  fraction _ := rfl
  integer _ _ _ := rfl

/-- As long as nesting is not bounded, a formula asks the same at any depth. -/
theorem level_outcomeAt {s : Setting} (hs : s.limit = none) (depth depth' : Nat) (text : String) :
    (outcomeAt s depth text).level = (outcomeAt s depth' text).level :=
  respected_level.outcomeAt hs depth depth' text fun _ _ => trivial

end Worksheet.Formula
