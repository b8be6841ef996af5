import Mathlib
import Worksheet.Formula.Dialogue

/-!
# How dialogues go on

A dialogue meets answers one question at a time.  `Step` is one exchange, for a given set of answers
that each cell can have, and `Reaches` is any number of them.  From there on it is said what a
dialogue asks for and how it ends, and one induction rule covers every way of holding a dialogue
that changes a state.

How deeply a question is nested is a part of it that no answer depends on as long as nesting is not
bounded.  `level` forgets it.
-/

namespace Worksheet.Formula.Dialogue

variable {α β γ : Type}

theorem bind_assoc (d : Dialogue α) (f : α → Dialogue β) (g : β → Dialogue γ) :
    (d.bind f).bind g = d.bind fun a => (f a).bind g := by
  induction d with
  | done a => rfl
  | read address depth next ih => exact congrArg (read address depth) (funext ih)
  | drawFraction next ih => exact congrArg drawFraction (funext ih)
  | drawInteger low high next ih => exact congrArg (drawInteger low high) (funext ih)

theorem bind_done (d : Dialogue α) : d.bind done = d := by
  induction d with
  | done a => rfl
  | read address depth next ih => exact congrArg (read address depth) (funext ih)
  | drawFraction next ih => exact congrArg drawFraction (funext ih)
  | drawInteger low high next ih => exact congrArg (drawInteger low high) (funext ih)

instance : LawfulMonad Dialogue :=
  LawfulMonad.mk' Dialogue bind_done (fun _ _ => rfl) bind_assoc

/-! ## Exchanges -/

/-- Which answers a cell can have. -/
abbrev Answering := String → Except Failure Value → Prop

/-- One question and its answer.  Random numbers can be any. -/
inductive Step (answers : Answering) : Dialogue α → Dialogue α → Prop where
  | read {address : String} {depth : Nat} {next : Except Failure Value → Dialogue α}
      {v : Except Failure Value} :
      answers address v → Step answers (.read address depth next) (next v)
  | fraction {next : Binary64 → Dialogue α} (x : Binary64) :
      Step answers (.drawFraction next) (next x)
  | integer {low high : Int} {next : Int → Dialogue α} (i : Int) :
      Step answers (.drawInteger low high next) (next i)

/-- What a dialogue can become. -/
abbrev Reaches (answers : Answering) : Dialogue α → Dialogue α → Prop :=
  Relation.ReflTransGen (Step answers)

/-- Whether a dialogue can come to ask for a cell. -/
def Asks (answers : Answering) (d : Dialogue α) (address : String) : Prop :=
  ∃ depth next, Reaches answers d (.read address depth next)

/-- Whether a dialogue can end in a result. -/
def Ends (answers : Answering) (d : Dialogue α) (a : α) : Prop :=
  Reaches answers d (.done a)

theorem Step.mono {p q : Answering} (h : ∀ a v, p a v → q a v) {d e : Dialogue α}
    (hs : Step p d e) : Step q d e := by
  cases hs with
  | read hv => exact .read (h _ _ hv)
  | fraction x => exact .fraction x
  | integer i => exact .integer i

theorem Reaches.mono {p q : Answering} (h : ∀ a v, p a v → q a v) {d e : Dialogue α}
    (hr : Reaches p d e) : Reaches q d e :=
  Relation.ReflTransGen.mono (fun _ _ => Step.mono h) _ _ hr

theorem Asks.mono {p q : Answering} (h : ∀ a v, p a v → q a v) {d : Dialogue α}
    {address : String} (ha : Asks p d address) : Asks q d address := by
  obtain ⟨depth, next, hr⟩ := ha
  exact ⟨depth, next, hr.mono h⟩

theorem Asks.head {answers : Answering} {d e : Dialogue α} {address : String}
    (hs : Step answers d e) (h : Asks answers e address) : Asks answers d address := by
  obtain ⟨depth, next, hr⟩ := h
  exact ⟨depth, next, Relation.ReflTransGen.head hs hr⟩

/-- What is asked for first, or after the first answer. -/
theorem asks_read {answers : Answering} {address c : String} {depth : Nat}
    {next : Except Failure Value → Dialogue α} (h : Asks answers (.read address depth next) c) :
    c = address ∨ ∃ v, answers address v ∧ Asks answers (next v) c := by
  obtain ⟨depth', next', hr⟩ := h
  rcases Relation.ReflTransGen.cases_head hr with he | ⟨d, hs, hr⟩
  · injection he with he
    exact Or.inl he.symm
  · cases hs with
    | read hv => exact Or.inr ⟨_, hv, depth', next', hr⟩

theorem not_asks_done {answers : Answering} {a : α} {c : String} :
    ¬ Asks answers (.done a) c := by
  rintro ⟨depth, next, hr⟩
  rcases Relation.ReflTransGen.cases_head hr with he | ⟨d, hs, _⟩
  · cases he
  · cases hs

theorem ends_read {answers : Answering} {address : String} {depth : Nat} {a : α}
    {next : Except Failure Value → Dialogue α} (h : Ends answers (.read address depth next) a) :
    ∃ v, answers address v ∧ Ends answers (next v) a := by
  rcases Relation.ReflTransGen.cases_head h with he | ⟨d, hs, hr⟩
  · cases he
  · cases hs with
    | read hv => exact ⟨_, hv, hr⟩

theorem ends_done {answers : Answering} {a b : α} (h : Ends answers (.done a) b) : a = b := by
  rcases Relation.ReflTransGen.cases_head h with he | ⟨d, hs, _⟩
  · exact Dialogue.done.inj he
  · cases hs

theorem asks_fraction {answers : Answering} {next : Binary64 → Dialogue α} {c : String}
    (h : Asks answers (.drawFraction next) c) : ∃ x, Asks answers (next x) c := by
  obtain ⟨depth, next', hr⟩ := h
  rcases Relation.ReflTransGen.cases_head hr with he | ⟨d, hs, hr⟩
  · cases he
  · cases hs with
    | fraction x => exact ⟨x, depth, next', hr⟩

theorem asks_integer {answers : Answering} {low high : Int} {next : Int → Dialogue α} {c : String}
    (h : Asks answers (.drawInteger low high next) c) : ∃ i, Asks answers (next i) c := by
  obtain ⟨depth, next', hr⟩ := h
  rcases Relation.ReflTransGen.cases_head hr with he | ⟨d, hs, hr⟩
  · cases he
  · cases hs with
    | integer i => exact ⟨i, depth, next', hr⟩

theorem ends_fraction {answers : Answering} {next : Binary64 → Dialogue α} {a : α}
    (h : Ends answers (.drawFraction next) a) : ∃ x, Ends answers (next x) a := by
  rcases Relation.ReflTransGen.cases_head h with he | ⟨d, hs, hr⟩
  · cases he
  · cases hs with
    | fraction x => exact ⟨x, hr⟩

theorem ends_integer {answers : Answering} {low high : Int} {next : Int → Dialogue α} {a : α}
    (h : Ends answers (.drawInteger low high next) a) : ∃ i, Ends answers (next i) a := by
  rcases Relation.ReflTransGen.cases_head h with he | ⟨d, hs, hr⟩
  · cases he
  · cases hs with
    | integer i => exact ⟨i, hr⟩

/-- A dialogue in two parts ends when both do. -/
theorem ends_bind {answers : Answering} {d : Dialogue α} {f : α → Dialogue β} {b : β}
    (h : Ends answers (d.bind f) b) : ∃ a, Ends answers d a ∧ Ends answers (f a) b := by
  induction d with
  | done a => exact ⟨a, .refl, h⟩
  | read address depth next ih =>
      obtain ⟨v, hv, h⟩ := ends_read h
      obtain ⟨a, ha, h⟩ := ih v h
      exact ⟨a, ha.head (.read hv), h⟩
  | drawFraction next ih =>
      obtain ⟨x, h⟩ := ends_fraction h
      obtain ⟨a, ha, h⟩ := ih x h
      exact ⟨a, ha.head (.fraction x), h⟩
  | drawInteger low high next ih =>
      obtain ⟨i, h⟩ := ends_integer h
      obtain ⟨a, ha, h⟩ := ih i h
      exact ⟨a, ha.head (.integer i), h⟩

/-- What a dialogue in two parts asks for is asked for in one of them. -/
theorem asks_bind {answers : Answering} {d : Dialogue α} {f : α → Dialogue β} {c : String}
    (h : Asks answers (d.bind f) c) : Asks answers d c ∨ ∃ a, Asks answers (f a) c := by
  induction d with
  | done a => exact .inr ⟨a, h⟩
  | read address depth next ih =>
      rcases asks_read h with rfl | ⟨v, hv, h⟩
      · exact .inl ⟨depth, next, .refl⟩
      · exact (ih v h).imp_left fun h => h.head (.read hv)
  | drawFraction next ih =>
      obtain ⟨x, h⟩ := asks_fraction h
      exact (ih x h).imp_left fun h => h.head (.fraction x)
  | drawInteger low high next ih =>
      obtain ⟨i, h⟩ := asks_integer h
      exact (ih i h).imp_left fun h => h.head (.integer i)

/-! ## Depth -/

/-- The dialogue with nothing said about how deeply its questions are nested. -/
def level : Dialogue α → Dialogue α
  | done a => done a
  | read address _ next => read address 0 fun v => (next v).level
  | drawFraction next => drawFraction fun x => (next x).level
  | drawInteger low high next => drawInteger low high fun i => (next i).level

theorem level_bind (d : Dialogue α) (f : α → Dialogue β) :
    (d.bind f).level = d.level.bind fun a => (f a).level := by
  induction d with
  | done a => rfl
  | read address depth next ih => exact congrArg (read address 0) (funext ih)
  | drawFraction next ih => exact congrArg drawFraction (funext ih)
  | drawInteger low high next ih => exact congrArg (drawInteger low high) (funext ih)

theorem Step.level {answers : Answering} {d e : Dialogue α} (h : Step answers d e) :
    Step answers d.level e.level := by
  cases h with
  | read hv => exact .read hv
  | fraction x => exact .fraction x
  | integer i => exact .integer i

theorem step_of_level {answers : Answering} {d e : Dialogue α} (h : Step answers d.level e) :
    ∃ e', e = e'.level ∧ Step answers d e' := by
  cases d with
  | done a => cases h
  | read address depth next => cases h with | read hv => exact ⟨_, rfl, .read hv⟩
  | drawFraction next => cases h with | fraction x => exact ⟨_, rfl, .fraction x⟩
  | drawInteger low high next => cases h with | integer i => exact ⟨_, rfl, .integer i⟩

theorem reaches_of_level {answers : Answering} {d e : Dialogue α}
    (h : Reaches answers d.level e) : ∃ e', e = e'.level ∧ Reaches answers d e' := by
  induction h with
  | refl => exact ⟨d, rfl, .refl⟩
  | tail _ hs ih =>
      obtain ⟨e', rfl, hr⟩ := ih
      obtain ⟨e'', rfl, hs'⟩ := step_of_level hs
      exact ⟨e'', rfl, hr.tail hs'⟩

/-- Dialogues that differ in depth alone become dialogues that differ in depth alone. -/
theorem Reaches.of_level_eq {answers : Answering} {d d' e : Dialogue α} (hl : d.level = d'.level)
    (h : Reaches answers d e) : ∃ e', e.level = e'.level ∧ Reaches answers d' e' := by
  have hr : Reaches answers d'.level e.level := by
    rw [← hl]
    exact Relation.ReflTransGen.lift Dialogue.level (fun _ _ => Step.level) _ _ h
  exact reaches_of_level hr

theorem Asks.of_level_eq {answers : Answering} {d d' : Dialogue α} {address : String}
    (hl : d.level = d'.level) (h : Asks answers d address) : Asks answers d' address := by
  obtain ⟨depth, next, hr⟩ := h
  obtain ⟨e, he, hr⟩ := hr.of_level_eq hl
  cases e with
  | read b depth' next' =>
      injection he with he
      subst he
      exact ⟨depth', next', hr⟩
  | done a => simp [level] at he
  | drawFraction next' => simp [level] at he
  | drawInteger low high next' => simp [level] at he

theorem Ends.of_level_eq {answers : Answering} {d d' : Dialogue α} {a : α}
    (hl : d.level = d'.level) (h : Ends answers d a) : Ends answers d' a := by
  obtain ⟨e, he, hr⟩ := Reaches.of_level_eq hl h
  cases e with
  | done b =>
      injection he with he
      subst he
      exact hr
  | read b depth' next' => simp [level] at he
  | drawFraction next' => simp [level] at he
  | drawInteger low high next' => simp [level] at he

/-! ## Holding a dialogue -/

theorem run_bind {m : Type → Type} [Monad m] [LawfulMonad m]
    {answer : String → Nat → m (Except Failure Value)}
    {fraction : m Binary64} {integer : Int → Int → m Int} (d : Dialogue α) (f : α → Dialogue β) :
    (d.bind f).run answer fraction integer =
      d.run answer fraction integer >>= fun a => (f a).run answer fraction integer := by
  induction d with
  | done a => exact (LawfulMonad.pure_bind a fun a => (f a).run answer fraction integer).symm
  | read address depth next ih =>
      exact (congrArg _ (funext ih)).trans (LawfulMonad.bind_assoc _ _ _).symm
  | drawFraction next ih =>
      exact (congrArg _ (funext ih)).trans (LawfulMonad.bind_assoc _ _ _).symm
  | drawInteger low high next ih =>
      exact (congrArg _ (funext ih)).trans (LawfulMonad.bind_assoc _ _ _).symm

/-- What holds of a dialogue and a state, and goes on to hold with each answer, holds in the end. -/
theorem run_induction {σ : Type} {answer : String → Nat → StateM σ (Except Failure Value)}
    {fraction : StateM σ Binary64} {integer : Int → Int → StateM σ Int}
    (I : Dialogue α → σ → Prop)
    (hread : ∀ address depth next p, I (.read address depth next) p →
      I (next ((answer address depth).run p).1) ((answer address depth).run p).2)
    (hfraction : ∀ next p, I (.drawFraction next) p →
      I (next (fraction.run p).1) (fraction.run p).2)
    (hinteger : ∀ low high next p, I (.drawInteger low high next) p →
      I (next ((integer low high).run p).1) ((integer low high).run p).2) :
    ∀ (d : Dialogue α) (p : σ), I d p →
      I (.done ((d.run answer fraction integer).run p).1)
        ((d.run answer fraction integer).run p).2 := by
  intro d
  induction d with
  | done a => exact fun p h => h
  | read address depth next ih => exact fun p h => ih _ _ (hread address depth next p h)
  | drawFraction next ih => exact fun p h => ih _ _ (hfraction next p h)
  | drawInteger low high next ih => exact fun p h => ih _ _ (hinteger low high next p h)

end Worksheet.Formula.Dialogue
