import Worksheet.Proofs.Lockstep
import Worksheet.Proofs.Machine

/-!
# Cells in progress

What a step of the machine can do to the cells in progress and to the pass, whichever path the
search has taken.  A formula is given an answer, a cell is taken up or put down, or a cycle is
found.  From there on the steps are not looked into again.

A cell is taken up only if it is neither in progress nor done.  So no cell is in progress twice, and
each formula is evaluated at most once.
-/

namespace Worksheet

open Formula Dialogue Relation

theorem Pass.not_mem_of_find?_eq_none {p : Pass} {a : String} (h : p.find? a = none) :
    a ∉ p.results.map (·.1) := by
  intro ha
  obtain ⟨e, he, rfl⟩ := List.mem_map.mp ha
  exact bne_iff_ne.mp (List.lookup_eq_none_iff.mp h e he) rfl

namespace Machine

variable {s : Sheet} {m m' : Machine} {p q : Pass} {stack stack' : List Activation}

/-- What a step can do to the cells in progress and to the pass. -/
inductive Change (s : Sheet) : List Activation → Pass → List Activation → Pass → Prop where
  /-- The search goes on. -/
  | search {stack : List Activation} {p : Pass} : Change s stack p stack p
  /-- A cell is taken up that is neither in progress nor done. -/
  | take {stack : List Activation} {p : Pass} {cell text : String} (depth : Nat) :
      cell ∉ stack.map (·.cell) → p.find? cell = none → s.formula? cell = some text →
      Change s stack p (⟨cell, outcomeAt s.setting depth text⟩ :: stack) p
  /-- The innermost formula is given an answer. -/
  | answer {outer : List Activation} {p q : Pass} {cell : String} {d d' : Dialogue Outcome} :
      Dialogue.Step anyAnswer d d' → q.results = p.results → q.cycles = p.cycles →
      Change s (⟨cell, d⟩ :: outer) p (⟨cell, d'⟩ :: outer) q
  /-- The innermost formula asks for a cell in progress. -/
  | close {outer : List Activation} {p : Pass} {cell asked : String} {depth : Nat}
      {next : Except Failure Value → Dialogue Outcome} {path : List String} :
      asked ∈ cell :: outer.map (·.cell) → path = cyclePath (cell :: outer.map (·.cell)) asked →
      Change s (⟨cell, .read asked depth next⟩ :: outer) p
        (⟨cell, next (.error (.circular path))⟩ :: outer) (p.recordCycle path)
  /-- The innermost formula has come to its outcome. -/
  | done {outer : List Activation} {p : Pass} {cell : String} (o : Outcome) :
      Change s (⟨cell, .done o⟩ :: outer) p outer (p.recordOutcome cell o).2

theorem change_begin (depth : Nat) {cell : String} (h : cell ∉ m.stack.map (·.cell)) :
    Change s m.stack m.pass (begin s depth cell m).stack (begin s depth cell m).pass := by
  cases hn : m.pass.find? cell with
  | some o =>
      have hsame : begin s depth cell m = m := by
        unfold begin
        rw [hn]
      rw [hsame]
      exact .search
  | none =>
  cases hf : s.formula? cell with
  | none =>
      rw [begin_of_formula?_eq_none hf]
      exact .search
  | some text =>
      rw [begin_of_formula? hn hf]
      exact .take depth h hn hf

theorem descend_same (cell : String) :
    (descend s cell m).stack = m.stack ∧ (descend s cell m).pass = m.pass := by
  unfold descend
  cases s.references cell <;> exact ⟨rfl, rfl⟩

theorem change_search (h : m.stack = []) (cell : String) (outer : List Branch)
    (deps : List String) : Change s m.stack m.pass (m.search s cell outer deps).stack
      (m.search s cell outer deps).pass := by
  cases deps with
  | nil =>
      unfold search
      dsimp only
      split
      · exact change_begin (m := { m with path := outer }) 0 (by simp [h])
      · exact .search
  | cons dep deps =>
      unfold search
      dsimp only
      split
      · exact .search
      split
      · exact .search
      split
      · exact .search
      · obtain ⟨hstack, hpass⟩ :=
          descend_same (s := s) (m := { m with path := ⟨cell, deps⟩ :: outer }) dep
        rw [hstack, hpass]
        exact .search

theorem change_advance {outer : List Activation} {cell : String} {d : Dialogue Outcome}
    (h : m.stack = ⟨cell, d⟩ :: outer) :
    Change s m.stack m.pass (m.advance s cell outer d).stack (m.advance s cell outer d).pass := by
  cases d with
  | done o => exact h ▸ .done o
  | drawFraction next => exact h ▸ .answer (.fraction _) rfl rfl
  | drawInteger low high next => exact h ▸ .answer (.integer _) rfl rfl
  | read asked depth next =>
      unfold advance
      dsimp only
      split
      · next hasked => exact h ▸ .close hasked rfl
      next hasked =>
      cases m.pass.outcome? s asked with
      | some o => exact h ▸ .answer (.read trivial) rfl rfl
      | none =>
          dsimp only
          split
          · exact h ▸ .answer (.read trivial) rfl rfl
          · exact change_begin depth (by rwa [h])

/-- **Each step is one of these changes.** -/
theorem change_of_next (h : m.next s = some m') :
    Change s m.stack m.pass m'.stack m'.pass := by
  obtain ⟨path, w, stack, p, failure⟩ := m
  cases failure with
  | some cause => cases h
  | none =>
  cases stack with
  | cons a outer =>
      obtain rfl := Option.some.inj h
      exact change_advance rfl
  | nil =>
      cases path with
      | nil => cases h
      | cons b outer =>
          obtain rfl := Option.some.inj h
          exact change_search rfl _ _ _

/-! ## What steps keep -/

/-- A property of cells in progress and passes that no change breaks is kept by runs. -/
theorem Runs.keep {I : List Activation → Pass → Prop}
    (hI : ∀ {stack p stack' p'}, Change s stack p stack' p' → I stack p → I stack' p')
    (hruns : Runs s m m') (h : I m.stack m.pass) : I m'.stack m'.pass := by
  induction hruns with
  | refl => exact h
  | tail _ hnext ih => exact hI (change_of_next hnext) ih

theorem start_same (s : Sheet) (p : Pass) (cell : String) :
    (start s p cell).stack = [] ∧ (start s p cell).pass = p := by
  unfold start
  dsimp only
  split
  · exact ⟨rfl, rfl⟩
  · exact descend_same _

/-- No cell is in progress twice or in progress and done, and what is left of each dialogue has come
from its formula. -/
structure Orderly (s : Sheet) (stack : List Activation) (p : Pass) : Prop where
  distinct : (stack.map (·.cell) ++ p.results.map (·.1)).Nodup
  begun : ∀ a ∈ stack, ∃ text depth, s.formula? a.cell = some text ∧
    (outcomeAt s.setting depth text).Reaches anyAnswer a.dialogue

namespace Orderly

/-- Between two calls, no cell is in progress. -/
theorem nil (h : (p.results.map (·.1)).Nodup) : Orderly s [] p where
  distinct := h
  begun := fun _ ha => absurd ha List.not_mem_nil

/-- The cell in progress that is the innermost one at its place is so at no other place. -/
theorem eq_nil_of_head_mem {inner outer : List Activation}
    (h : Orderly s (inner ++ outer) p) (hne : ∀ a ∈ (inner ++ outer).head?, a.cell ∈ outer.map (·.cell)) :
    inner = [] := by
  cases inner with
  | nil => rfl
  | cons a inner =>
      have hd := (List.nodup_append.mp h.distinct).1
      rw [List.cons_append, List.map_cons, List.nodup_cons, List.map_append] at hd
      exact absurd (List.mem_append_right _ (hne a rfl)) hd.1

/-- The same cells are in progress and done, and the innermost dialogue has gone on. -/
theorem goOn {cell : String} {d d' : Dialogue Outcome} {outer : List Activation}
    (h : Orderly s (⟨cell, d⟩ :: outer) p) (hresults : q.results = p.results)
    (hd : d.Reaches anyAnswer d') : Orderly s (⟨cell, d'⟩ :: outer) q where
  distinct := by
    rw [hresults]
    exact h.distinct
  begun := by
    intro a ha
    rcases List.mem_cons.mp ha with rfl | ha
    · obtain ⟨text, depth, hf, hr⟩ := h.begun _ List.mem_cons_self
      exact ⟨text, depth, hf, hr.trans hd⟩
    · exact h.begun a (List.mem_cons_of_mem _ ha)

theorem change (h : Orderly s stack p) (hc : Change s stack p stack' p') :
    Orderly s stack' p' := by
  cases hc with
  | search => exact h
  | take depth hfresh hn hf =>
      refine ⟨?_, ?_⟩
      · rw [List.map_cons, List.cons_append, List.nodup_cons]
        refine ⟨fun hmem => ?_, h.distinct⟩
        rcases List.mem_append.mp hmem with hmem | hmem
        · exact hfresh hmem
        · exact absurd hmem (Pass.not_mem_of_find?_eq_none hn)
      · intro a ha
        rcases List.mem_cons.mp ha with rfl | ha
        · exact ⟨_, depth, hf, .refl⟩
        · exact h.begun a ha
  | answer hstep hresults _ => exact h.goOn hresults (.single hstep)
  | close _ _ => exact h.goOn rfl (.single (.read trivial))
  | done o =>
      refine ⟨?_, fun a ha => h.begun a (List.mem_cons_of_mem _ ha)⟩
      -- the cell goes from the end of the one list to the front of the other
      exact (List.perm_middle.nodup_iff).mpr h.distinct

end Orderly

end Machine

/-! ## What calls keep -/

namespace Session

variable {sheet : Sheet}

/-- The pass after some cells have been asked for. -/
def askEach (sheet : Sheet) (p : Pass) (names : List String) : Pass :=
  names.foldl (fun p name => (StateT.run (sheet.result name).run p).2) p

theorem askEach_append (p : Pass) (names names' : List String) :
    askEach sheet p (names ++ names') = askEach sheet (askEach sheet p names) names' :=
  List.foldl_append

/-- Whether all that a computation does to a session over a sheet is to ask for some cells. -/
def AsksEach (sheet : Sheet) {α : Type} (x : Computation α) : Prop :=
  ∀ p : Pass, ∃ names, (StateT.run x.run ⟨sheet, p⟩).2 = ⟨sheet, askEach sheet p names⟩

namespace AsksEach

variable {α β : Type}

theorem pure (a : α) : AsksEach sheet (Pure.pure a) :=
  fun _ => ⟨[], rfl⟩

theorem ofExcept (r : Except Failure α) : AsksEach sheet (liftM r : Computation α) := by
  intro p
  cases r <;> exact ⟨[], rfl⟩

theorem bind {x : Computation α} {f : α → Computation β} (hx : AsksEach sheet x)
    (hf : ∀ a, AsksEach sheet (f a)) : AsksEach sheet (x >>= f) := by
  intro p
  obtain ⟨names, hp⟩ := hx p
  obtain ⟨r, t, hrun⟩ : ∃ r t, StateT.run x.run ⟨sheet, p⟩ = (r, t) := ⟨_, _, rfl⟩
  rw [hrun] at hp
  obtain rfl : t = _ := hp
  cases r with
  | error cause => exact ⟨names, by rw [Sheet.run_bind_error hrun]⟩
  | ok a =>
      obtain ⟨names', hp'⟩ := hf a (askEach sheet p names)
      exact ⟨names ++ names', by rw [Sheet.run_bind_ok hrun, hp', askEach_append]⟩

theorem mapM {l : List α} {f : α → Computation β} (hf : ∀ a, AsksEach sheet (f a)) :
    AsksEach sheet (l.mapM f) := by
  induction l with
  | nil => exact .pure []
  | cons a l ih =>
      rw [List.mapM_cons]
      exact .bind (hf a) fun b => .bind ih fun bs => .pure (b :: bs)

theorem result (name : String) : AsksEach sheet (Session.result name) :=
  fun _ => ⟨[name], rfl⟩

theorem shown (name : String) : AsksEach sheet (Session.shown name) :=
  .bind (.result name) fun _ => .pure _

theorem shownAll : AsksEach sheet Session.shownAll := by
  have hall : AsksEach sheet
      ((liftM (Address.sortRowMajor sheet.cells.keys) : Computation (List String)) >>=
        fun addresses => addresses.mapM fun a => do return (a, ← Session.shown a)) :=
    .bind (.ofExcept _) fun _ => .mapM fun _ => .bind (.shown _) fun _ => .pure _
  exact hall

theorem call (call : Call) : AsksEach sheet call.run := by
  cases call with
  | result name => exact .bind (.result name) fun _ => .pure ()
  | shown name => exact .bind (.shown name) fun _ => .pure ()
  | shownAll => exact .bind .shownAll fun _ => .pure ()

end AsksEach

/-- All that calls do is to ask for some cells, one after the other. -/
theorem exists_askEach (calls : List Call) :
    ∀ p : Pass, ∃ names, after ⟨sheet, p⟩ calls = ⟨sheet, askEach sheet p names⟩ := by
  induction calls with
  | nil => exact fun p => ⟨[], rfl⟩
  | cons call calls ih =>
      intro p
      obtain ⟨names, hp⟩ := AsksEach.call call p
      obtain ⟨names', hp'⟩ := ih (askEach sheet p names)
      refine ⟨names ++ names', ?_⟩
      rw [after, List.foldl_cons, hp, askEach_append]
      exact hp'

/-- What is kept when one cell is asked for is kept by all calls. -/
theorem after_keeps {I : Pass → Prop}
    (hI : ∀ name p, I p → I (StateT.run (sheet.result name).run p).2) (calls : List Call)
    {p : Pass} (h : I p) : ∃ q, after ⟨sheet, p⟩ calls = ⟨sheet, q⟩ ∧ I q := by
  obtain ⟨names, hp⟩ := exists_askEach calls p
  refine ⟨_, hp, ?_⟩
  exact List.foldlRecOn names _ h fun p hp name _ => hI name p hp

end Session

end Worksheet
