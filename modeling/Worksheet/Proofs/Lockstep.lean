import Worksheet.Proofs.Evaluation

/-!
# Two ways through one formula

A formula is held twice, and the answers that it gets may differ in why a cell has failed, but not
in whether it has, nor in its value.  Formulas do not look into failures, so both times it asks for
the same cells, and it comes to the same value or fails both times.

A formula that catches no failures does more: the first failure that it is given is its own.
-/

namespace Worksheet.Formula

namespace Dialogue

variable {α β : Type}

/-- The answers that come to mind when nothing is known of a cell. -/
abbrev anyAnswer : Answering := fun _ _ => True

/-- Whether a dialogue uses no random numbers, whatever it is answered. -/
def Drawless : Dialogue α → Prop
  | done _ => True
  | read _ _ next => ∀ v, (next v).Drawless
  | drawFraction _ => False
  | drawInteger _ _ _ => False

theorem Drawless.bind {d : Dialogue α} {f : α → Dialogue β} (hd : d.Drawless)
    (hf : ∀ a, (f a).Drawless) : (d.bind f).Drawless := by
  induction d with
  | done a => exact hf a
  | read address depth next ih => exact fun v => ih v (hd v)
  | drawFraction next => exact hd.elim
  | drawInteger low high next => exact hd.elim

/-- Whether the first failure that a dialogue is given ends it. -/
def PassesFailures : Dialogue (Except Failure α) → Prop
  | done _ => True
  | read _ _ next =>
    (∀ cause, next (.error cause) = .done (.error cause)) ∧ ∀ v, (next v).PassesFailures
  | drawFraction next => ∀ x, (next x).PassesFailures
  | drawInteger _ _ next => ∀ i, (next i).PassesFailures

theorem PassesFailures.bind {d : Dialogue (Except Failure α)}
    {f : Except Failure α → Dialogue (Except Failure β)} (hd : d.PassesFailures)
    (hok : ∀ a, (f (.ok a)).PassesFailures)
    (herror : ∀ cause, f (.error cause) = .done (.error cause)) : (d.bind f).PassesFailures := by
  induction d with
  | done r =>
      cases r with
      | ok a => exact hok a
      | error cause =>
          show (f (.error cause)).PassesFailures
          rw [herror cause]
          trivial
  | read address depth next ih =>
      refine ⟨fun cause => ?_, fun v => ih v (hd.2 v)⟩
      show (next (.error cause)).bind f = _
      rw [hd.1 cause]
      exact herror cause
  | drawFraction next ih => exact fun x => ih x (hd x)
  | drawInteger low high next ih => exact fun i => ih i (hd i)

/-- Being the same dialogue but for the failures in it, which are not looked into. -/
inductive Alike : Dialogue (Except Failure α) → Dialogue (Except Failure α) → Prop where
  | done {r r' : Except Failure α} : r.toOption = r'.toOption → Alike (.done r) (.done r')
  | read {address : String} {depth depth' : Nat}
      {next next' : Except Failure Value → Dialogue (Except Failure α)} :
      (∀ v v', v.toOption = v'.toOption → Alike (next v) (next' v')) →
      Alike (.read address depth next) (.read address depth' next')
  | drawFraction {next next' : Binary64 → Dialogue (Except Failure α)} :
      (∀ x, Alike (next x) (next' x)) → Alike (.drawFraction next) (.drawFraction next')
  | drawInteger {low high : Int} {next next' : Int → Dialogue (Except Failure α)} :
      (∀ i, Alike (next i) (next' i)) →
      Alike (.drawInteger low high next) (.drawInteger low high next')

theorem Alike.bind {d d' : Dialogue (Except Failure α)}
    {f f' : Except Failure α → Dialogue (Except Failure β)} (hd : Alike d d')
    (hf : ∀ r r', r.toOption = r'.toOption → Alike (f r) (f' r')) :
    Alike (d.bind f) (d'.bind f') := by
  induction hd with
  | done h => exact hf _ _ h
  | read _ ih => exact .read ih
  | drawFraction _ ih => exact .drawFraction ih
  | drawInteger _ ih => exact .drawInteger ih

/-! ## Going through a dialogue twice -/

/-- **Lockstep.** Where two ways to answer agree on all that a dialogue can ask for, it comes to the
same by either, and asks for nothing by the second that the first does not answer. -/
theorem Alike.lockstep {P Q : Answering} {d d' : Dialogue (Except Failure α)}
    {r : Except Failure α} (h : Alike d d') (hd : d.Drawless)
    (hPQ : ∀ b v w, d.Asks anyAnswer b → P b v → Q b w → v.toOption = w.toOption)
    (hr : d.Ends P r) :
    (∀ r', d'.Ends Q r' → r.toOption = r'.toOption) ∧ ∀ b, d'.Asks Q b → ∃ v, P b v := by
  induction h with
  | done h =>
      obtain rfl := ends_done hr
      refine ⟨fun r' hr' => ?_, fun b hb => absurd hb not_asks_done⟩
      rw [← ends_done hr', h]
  | @read address depth depth' next next' _ ih =>
      -- the first questions are the same, and answers to the same question agree
      obtain ⟨v, hv, hr⟩ := ends_read hr
      have hfirst : ∀ w, Q address w → v.toOption = w.toOption := fun w hw =>
        hPQ address v w ⟨depth, next, .refl⟩ hv hw
      have hrest : ∀ b u w, (next v).Asks anyAnswer b → P b u → Q b w →
          u.toOption = w.toOption := fun b u w hb hu hw => hPQ b u w (hb.head (.read trivial)) hu hw
      refine ⟨?_, ?_⟩
      · intro r' hr'
        obtain ⟨w, hw, hr'⟩ := ends_read hr'
        exact (ih v w (hfirst w hw) (hd v) hrest hr).1 r' hr'
      · intro b hb
        rcases asks_read hb with rfl | ⟨w, hw, hb⟩
        · exact ⟨v, hv⟩
        · exact (ih v w (hfirst w hw) (hd v) hrest hr).2 b hb
  | drawFraction _ _ => exact hd.elim
  | drawInteger _ _ => exact hd.elim

/-- A dialogue that passes failures and comes to a value has been answered with values. -/
theorem PassesFailures.ends_ok {P : Answering} {d : Dialogue (Except Failure α)} {a : α}
    (h : d.PassesFailures) (hd : d.Drawless) (he : d.Ends P (.ok a)) :
    d.Ends (fun b v => P b v ∧ ∃ u, v = .ok u) (.ok a) := by
  induction d with
  | done r =>
      rw [ends_done he]
      exact .refl
  | read address depth next ih =>
      obtain ⟨v, hv, he⟩ := ends_read he
      refine Relation.ReflTransGen.head (.read ⟨hv, ?_⟩) (ih v (h.2 v) (hd v) he)
      cases v with
      | ok u => exact ⟨u, rfl⟩
      -- after a failure the dialogue is over, with that failure
      | error cause =>
          rw [h.1 cause] at he
          exact absurd (ends_done he) (by simp)
  | drawFraction next => exact hd.elim
  | drawInteger low high next => exact hd.elim

end Dialogue

/-! ## Formulas -/

theorem respected_alike :
    Respected (fun _ => True) fun {α} (x y : Evaluation α) => x.run.Alike y.run where
  ofExcept _ := .done rfl
  readCell _ _ _ := .read fun _ _ h => .done h
  bind {α β x y f g} hxy hfg := by
    refine Dialogue.Alike.bind hxy fun r r' hr => ?_
    cases r with
    | ok a =>
        cases r' with
        | ok a' =>
            obtain rfl : a = a' := Option.some.inj hr
            exact hfg a
        | error cause => cases hr
    | error cause =>
        cases r' with
        | ok a' => cases hr
        | error cause' => exact .done rfl
  attempt {α x y} _ hxy := by
    refine Dialogue.Alike.bind hxy fun r r' hr => ?_
    rw [hr]
    exact .done rfl
  fraction _ := .drawFraction fun _ => .done rfl
  integer _ _ _ := .drawInteger fun _ => .done rfl

theorem respected_drawless :
    Respected (fun f => ∀ g, f ≠ .random g) fun {α} (x _ : Evaluation α) => x.run.Drawless where
  ofExcept _ := trivial
  readCell _ _ _ := fun _ => trivial
  bind {α β x y f g} hxy hfg := by
    refine Dialogue.Drawless.bind hxy fun r => ?_
    cases r with
    | ok a => exact hfg a
    | error cause => trivial
  attempt {α x y} _ hxy := Dialogue.Drawless.bind hxy fun _ => trivial
  fraction {f} hf := absurd rfl (hf f)
  integer {f} _ _ hf := absurd rfl (hf f)

theorem respected_passesFailures :
    Respected (fun f => f ≠ .conditional .ifError ∧ f ≠ .conditional .isError)
      fun {α} (x _ : Evaluation α) => x.run.PassesFailures where
  ofExcept _ := trivial
  readCell _ _ _ := ⟨fun _ => rfl, fun _ => trivial⟩
  bind {α β x y f g} hxy hfg := Dialogue.PassesFailures.bind hxy hfg fun _ => rfl
  attempt {α x y} hc _ := by
    rcases hc with hc | hc
    · exact absurd rfl hc.1
    · exact absurd rfl hc.2
  fraction _ := fun _ => trivial
  integer _ _ _ := fun _ => trivial

end Worksheet.Formula
