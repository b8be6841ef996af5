import Worksheet.Proofs.Questions
import Worksheet.Proofs.Session

/-!
# What recorded cycles say

Whatever is done with a session, the cycles in its pass are rings of formula cells each of which
refers to the next, and the cells that have failed for a cycle are those on recorded ones.  A path
is recorded in the middle of an evaluation, before the cells on it have outcomes; that each of them
comes to have the failure is part of what a pass is accounted for.
-/

namespace Worksheet

open Formula Dialogue

namespace Sheet

/-- Whether the formula of a cell has a reference to another cell, or a range that contains it. -/
def Refers (s : Sheet) (a b : String) : Prop :=
  ∃ text e, s.formula? a = some text ∧ parse text = .ok e ∧ e.Reads b

/-- A cell refers to all that it asks for. -/
theorem Inquires.refers {s : Sheet} {answers : Answering} {a b : String}
    (h : s.Inquires answers a b) : s.Refers a b := by
  obtain ⟨text, depth, hf, ha⟩ := h
  obtain ⟨e, hp⟩ := parse_of_asks ha
  exact ⟨text, e, hf, hp, reads_of_asks hp (ha.mono fun _ _ _ => trivial)⟩

/-- A formula that gets outcomes of cells comes to no failure for a cycle: what it is told of a
failed cell is that it has failed. -/
theorem findsNoCycle_of_ends {s : Sheet} {results : List (String × Outcome)} {depth : Nat}
    {text : String} {o : Outcome}
    (h : (outcomeAt s.setting depth text).Ends (s.Answers results []) o) : FindsNoCycle o := by
  refine faithful_outcomeAt s.setting depth text _ (fun a v hv => ?_) o h
  cases hv with
  | plain _ => exact failsIn_ok
  | @found _ o _ =>
      cases o with
      | ok v => exact failsIn_ok
      | error cause => exact failsIn_error.mpr (by simp [Failure.kind])
  | cyclic hpath _ => exact absurd hpath List.not_mem_nil
  | outOfReach _ _ => exact failsIn_error.mpr (by simp [Failure.kind])

end Sheet

namespace Pass.Accounted

variable {s : Sheet} {p : Pass}

theorem isRing_refers {stack : List String} (h : p.Accounted s stack) {path : List String}
    (hp : path ∈ p.cycles) : IsRing s.Refers path :=
  (h.rings path hp).mono fun _ _ => Sheet.Inquires.refers

/-- Between two calls, the cells that have failed for a cycle are those on recorded ones. -/
theorem circular_iff (h : p.Accounted s []) {a : String} :
    (∃ cause, p.find? a = some (.error cause) ∧ cause.kind = .circular) ↔ p.Cyclic a := by
  constructor
  · rintro ⟨cause, ho, hkind⟩
    by_contra hc
    obtain ⟨rest, hr⟩ := suffix_of_lookup ho
    obtain ⟨text, depth, _, hends⟩ := h.ends_of_not_cyclic hr hc
    exact Sheet.findsNoCycle_of_ends hends cause rfl hkind
  · intro hc
    obtain ⟨path, _, _, ho⟩ := h.find_of_cyclic hc
    exact ⟨_, ho, rfl⟩

end Pass.Accounted

namespace Session

/-- What can be done with a session. -/
inductive Operation where
  | set (address : String) (v : Value)
  | invalidate
  | call (call : Call)

/-- The session after an operation. -/
def apply (s : Session) : Operation → Session
  | .set address v => s.set address v
  | .invalidate => s.invalidate
  | .call call => (StateT.run call.run.run s).2

/-- The session after some operations. -/
def perform (s : Session) (operations : List Operation) : Session :=
  operations.foldl apply s

theorem accounted_apply {s : Session} (h : s.pass.Accounted s.sheet []) (operation : Operation) :
    (s.apply operation).pass.Accounted (s.apply operation).sheet [] := by
  cases operation with
  | set address v => exact Pass.accounted_start _ _
  | invalidate => exact Pass.accounted_start _ _
  | call call =>
      obtain ⟨_, q, hrun, hq, _⟩ := Keeps.call (False.elim : False → s.sheet.RowsReadable) call _ h
      show (StateT.run call.run.run ⟨s.sheet, s.pass⟩).2.pass.Accounted
        (StateT.run call.run.run ⟨s.sheet, s.pass⟩).2.sheet []
      rw [hrun]
      exact hq

theorem accounted_perform (operations : List Operation) : ∀ {s : Session},
    s.pass.Accounted s.sheet [] →
      (s.perform operations).pass.Accounted (s.perform operations).sheet [] := by
  induction operations with
  | nil => exact fun h => h
  | cons operation operations ih => exact fun h => ih (accounted_apply h operation)

/-- **Whatever is done with a session, the cycles that it reports are rings of references between
formula cells, and the cells that have failed for a cycle are those on the reported ones.**  This
also holds where nesting is bounded, and where a row number cannot be read. -/
theorem cycles_perform (sheet : Sheet) (source : RandomSource) (operations : List Operation) :
    let s := (start sheet source).perform operations
    (∀ path ∈ s.pass.cycles, IsRing s.sheet.Refers path) ∧
      ∀ a, (∃ cause, s.pass.find? a = some (.error cause) ∧ cause.kind = .circular) ↔
        ∃ path ∈ s.pass.cycles, a ∈ path := by
  have h := accounted_perform operations (s := start sheet source)
    (Pass.accounted_start sheet source)
  exact ⟨fun path hp => h.isRing_refers hp, fun a => h.circular_iff⟩

end Session

end Worksheet
