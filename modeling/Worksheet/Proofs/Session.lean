import Worksheet.Proofs.Addresses
import Worksheet.Proofs.Pass
import Worksheet.Sheet.Session

/-!
# Sessions keep their passes sound

Everything that a session is asked for evaluates cells with no other cell in progress, so its pass
stays accounted for and keeps what it holds.  When all rows that addresses name can be read, none of
it fails as a whole.
-/

namespace Worksheet

open Formula Dialogue

/-! ## Rows that can be read -/

/-- Whether the rows in all addresses of cells and in all ranges of formulas can be read. -/
structure Sheet.RowsReadable (s : Sheet) : Prop where
  keys : ∀ a ∈ s.cells.keys, Address.RowReadable a
  ranges : ∀ a text, s.formula? a = some text → ∀ corners ∈ referencedRanges text,
    Address.RowReadable corners.1 ∧ Address.RowReadable corners.2

namespace Sheet

variable {s : Sheet}

theorem rowsReadable_iff : s.RowsReadable ↔ ∀ a ∈ s.cells.keys, Address.RowReadable a ∧
    ∀ text ∈ s.formula? a, ∀ corners ∈ referencedRanges text,
      Address.RowReadable corners.1 ∧ Address.RowReadable corners.2 := by
  constructor
  · exact fun h a ha => ⟨h.keys a ha, h.ranges a⟩
  · intro h
    exact ⟨fun a ha => (h a ha).1, fun a text hf => (h a (mem_keys_of_formula? hf)).2 text hf⟩

instance : Decidable s.RowsReadable :=
  decidable_of_iff' _ rowsReadable_iff

/-- A sheet of given cells, evaluated without limits on the first day of the calendar. -/
def ofEntries (entries : List (String × Value)) : Sheet where
  cells := cellsOfList entries
  strict := false
  clock := ⟨⟨1, 1, 1, by decide, by decide, by decide, by decide, by decide, by decide⟩,
    0, 0, 0, 0, none⟩
  limit := none

theorem covers_ok {corners : String × String} {a : String} (h₁ : Address.RowReadable corners.1)
    (h₂ : Address.RowReadable corners.2) (ha : Address.RowReadable a) :
    ∃ b, covers corners a = .ok b := by
  obtain ⟨first, h₁⟩ := Address.decode_ok h₁
  obtain ⟨last, h₂⟩ := Address.decode_ok h₂
  obtain ⟨position, ha⟩ := Address.decode_ok ha
  unfold covers Rectangle.ofTexts?
  rw [h₁, h₂, ha]
  cases position with
  | none => exact ⟨_, rfl⟩
  | some position =>
      cases first with
      | none => exact ⟨_, rfl⟩
      | some first =>
          cases last with
          | none => exact ⟨_, rfl⟩
          | some last => exact ⟨_, rfl⟩

theorem references_ok (h : s.RowsReadable) (a : String) : ∃ l, s.references a = .ok l := by
  unfold references
  cases hf : s.formula? a with
  | none => exact ⟨[], rfl⟩
  | some text =>
      refine foldlM_ok (fun corners hc found => ?_) _
      refine foldlM_ok (fun b hb found => ?_) _
      by_cases hm : b ∈ found
      · exact ⟨found, by rw [if_pos hm]; rfl⟩
      · obtain ⟨h₁, h₂⟩ := h.ranges a text hf corners hc
        have hk : b ∈ s.cells.keys := (List.mem_filter.mp hb).1
        obtain ⟨c, hcov⟩ := covers_ok h₁ h₂ (h.keys b hk)
        rw [if_neg hm, hcov]
        exact ⟨_, rfl⟩

/-! ## Computations that keep a pass accounted for -/

theorem run_bind_ok {ε σ α β : Type} {x : ExceptT ε (StateM σ) α}
    {f : α → ExceptT ε (StateM σ) β} {a : α} {p q : σ}
    (h : StateT.run x.run p = (.ok a, q)) :
    StateT.run (x >>= f).run p = StateT.run (f a).run q := by
  rw [ExceptT.run_bind, StateT.run_bind, h]
  rfl

theorem run_bind_error {ε σ α β : Type} {x : ExceptT ε (StateM σ) α}
    {f : α → ExceptT ε (StateM σ) β} {cause : ε} {p q : σ}
    (h : StateT.run x.run p = (.error cause, q)) :
    StateT.run (x >>= f).run p = (.error cause, q) := by
  rw [ExceptT.run_bind, StateT.run_bind, h]
  rfl

/-- Before a cell is evaluated that has no outcome, there is a walk below it. -/
theorem run_prepare {a : String} {p : Pass} (hn : p.find? a = none) :
    StateT.run (s.prepare a).run p =
      StateT.run ((s.walk (s.formulas.length + 1) [a] a).run ⟨[a], []⟩ >>= fun _ =>
        (pure () : ExceptT Failure (StateM Pass) Unit)).run p := by
  show StateT.run (if (p.find? a).isNone then _ else _ : ExceptT Failure (StateM Pass) Unit).run p = _
  rw [hn]
  rfl

/-- A computation over a pass that keeps it accounted for and keeps what it holds, and does not fail
as a whole where that is safe. -/
def Keeps (s : Sheet) (safe : Prop) {α : Type} (x : ExceptT Failure (StateM Pass) α) : Prop :=
  ∀ p : Pass, p.Accounted s [] → ∃ r q, StateT.run x.run p = (r, q) ∧ q.Accounted s [] ∧
    p.Grows q ∧ (safe → ∃ a, r = .ok a)

variable {safe : Prop}

theorem Keeps.pure {α : Type} (a : α) : s.Keeps safe (Pure.pure a) :=
  fun p hp => ⟨.ok a, p, rfl, hp, Pass.Grows.refl p, fun _ => ⟨a, rfl⟩⟩

theorem Keeps.bind {α β : Type} {x : ExceptT Failure (StateM Pass) α}
    {f : α → ExceptT Failure (StateM Pass) β} (hx : s.Keeps safe x)
    (hf : ∀ a, s.Keeps safe (f a)) : s.Keeps safe (x >>= f) := by
  intro p hp
  obtain ⟨r, q, hrun, hq, hg, hr⟩ := hx p hp
  cases r with
  | error cause => exact ⟨_, q, run_bind_error hrun, hq, hg, fun hsafe => nomatch hr hsafe⟩
  | ok a =>
      obtain ⟨r', q', hrun', hq', hg', hr'⟩ := hf a q hq
      exact ⟨r', q', (run_bind_ok hrun).trans hrun', hq', hg.trans hg', hr'⟩

theorem Keeps.ofExcept {α : Type} {r : Except Failure α} (h : safe → ∃ a, r = .ok a) :
    s.Keeps safe (liftM r : ExceptT Failure (StateM Pass) α) := by
  intro p hp
  cases r with
  | error cause => exact ⟨_, p, rfl, hp, Pass.Grows.refl p, h⟩
  | ok a => exact ⟨_, p, rfl, hp, Pass.Grows.refl p, h⟩

theorem Keeps.outcome (a : String) :
    s.Keeps safe (liftM (s.outcome a) : ExceptT Failure (StateM Pass) Outcome) := by
  intro p hp
  have hev := s.outcome_evaluated a hp
  exact ⟨_, _, rfl, hev.accounted, hev.grows, fun _ => ⟨_, rfl⟩⟩

/-- The same for a step of a walk. -/
def KeepsWalking (s : Sheet) (safe : Prop) {α : Type}
    (x : StateT Walk (ExceptT Failure (StateM Pass)) α) : Prop :=
  ∀ w, s.Keeps safe (x.run w)

theorem KeepsWalking.pure {α : Type} (a : α) : s.KeepsWalking safe (Pure.pure a) :=
  fun w => Keeps.pure (a, w)

theorem KeepsWalking.bind {α β : Type} {x : StateT Walk (ExceptT Failure (StateM Pass)) α}
    {f : α → StateT Walk (ExceptT Failure (StateM Pass)) β} (hx : s.KeepsWalking safe x)
    (hf : ∀ a, s.KeepsWalking safe (f a)) : s.KeepsWalking safe (x >>= f) :=
  fun w => (hx w).bind fun (a, w) => hf a w

theorem KeepsWalking.forM {l : List String}
    {f : String → StateT Walk (ExceptT Failure (StateM Pass)) Unit}
    (h : ∀ a, s.KeepsWalking safe (f a)) : s.KeepsWalking safe (l.forM f) := by
  induction l with
  | nil => exact .pure ()
  | cons a l ih => exact (h a).bind fun _ => ih

theorem keepsWalking_walk (hsafe : safe → ∀ a, ∃ l, s.references a = .ok l) (room : Nat) :
    ∀ path cell, s.KeepsWalking safe (s.walk room path cell) := by
  induction room with
  | zero => exact fun path cell => .pure ()
  | succ room ih =>
      intro path cell
      rw [walk]
      refine .bind (fun w => .bind (.ofExcept fun h => hsafe h cell) fun deps => .pure _)
        fun deps => .forM fun dep => ?_
      -- the pass is only looked at here
      refine .bind (fun w p hp => ⟨_, p, rfl, hp, Pass.Grows.refl p, fun _ => ⟨_, rfl⟩⟩) fun q => ?_
      split
      · exact .pure ()
      split
      · exact fun w => .pure _
      refine .bind (fun w => .pure (w, w)) fun w => ?_
      split
      · exact .pure ()
      -- the cells that this one names are walked first, and then it is evaluated
      refine .bind (fun w => .pure _) fun _ => .bind (ih _ _) fun _ => ?_
      refine .bind (fun w => .pure (w, w)) fun w => ?_
      split
      · refine .bind (fun w => ?_) fun _ => .pure ()
        show s.Keeps safe ((liftM (s.outcome dep) : ExceptT Failure (StateM Pass) Outcome) >>=
          fun o => Pure.pure (o, w))
        exact .bind (.outcome dep) fun o => .pure (o, w)
      · exact .pure ()

theorem Keeps.prepare (hsafe : safe → ∀ a, ∃ l, s.references a = .ok l) (a : String) :
    s.Keeps safe (s.prepare a) := by
  unfold Sheet.prepare
  refine .bind (fun p hp => ⟨_, p, rfl, hp, Pass.Grows.refl p, fun _ => ⟨_, rfl⟩⟩) fun q => ?_
  split
  · exact .bind (keepsWalking_walk hsafe _ _ _ _) fun _ => .pure ()
  · exact .pure ()

theorem Keeps.result (hsafe : safe → ∀ a, ∃ l, s.references a = .ok l) (a : String) :
    s.Keeps safe (s.result a) :=
  .bind (.prepare hsafe _) fun _ => .outcome _

/-- What comes of asking for the outcome of a cell, whether nesting is bounded or not. -/
theorem result_accounted (href : ∀ a, ∃ l, s.references a = .ok l) (a : String) {p : Pass}
    (hp : p.Accounted s []) :
    ∃ o q, StateT.run (s.result a).run p = (.ok o, q) ∧ q.Accounted s [] ∧ p.Grows q ∧
      q.Holds s (Text.upper a) o := by
  obtain ⟨r, q, hrun, hq, hg, hr⟩ := Keeps.prepare (fun _ : True => href) (Text.upper a) p hp
  obtain ⟨_, rfl⟩ := hr trivial
  have hev := s.outcome_evaluated (Text.upper a) hq
  exact ⟨_, _, run_bind_ok hrun, hev.accounted, hg.trans hev.grows, hev.holds⟩

/-- What comes of asking for the outcome of a cell. -/
theorem result_evaluated (hs : s.limit = none) (hrows : s.RowsReadable) (a : String) (p : Pass)
    (hp : p.Sound s []) :
    ∃ o q, StateT.run (s.result a).run p = (.ok o, q) ∧ q.Sound s [] ∧ p.Grows q ∧
      q.Holds s (Text.upper a) o := by
  obtain ⟨o, q, hrun, hq, hg, ho⟩ := result_accounted (references_ok hrows) a hp.accounted
  exact ⟨o, q, hrun, hq.sound hs, hg, ho⟩

end Sheet

/-! ## Sessions -/

namespace Session

/-- A computation in a session over a sheet that keeps the sheet, keeps its pass accounted for and
keeps what the pass holds, and does not fail as a whole where that is safe. -/
def Keeps (sheet : Sheet) (safe : Prop) {α : Type} (x : Computation α) : Prop :=
  ∀ p : Pass, p.Accounted sheet [] → ∃ r q, StateT.run x.run ⟨sheet, p⟩ = (r, ⟨sheet, q⟩) ∧
    q.Accounted sheet [] ∧ p.Grows q ∧ (safe → ∃ a, r = .ok a)

variable {sheet : Sheet} {safe : Prop}

theorem Keeps.pure {α : Type} (a : α) : Keeps sheet safe (Pure.pure a) :=
  fun p hp => ⟨.ok a, p, rfl, hp, Pass.Grows.refl p, fun _ => ⟨a, rfl⟩⟩

theorem Keeps.bind {α β : Type} {x : Computation α} {f : α → Computation β}
    (hx : Keeps sheet safe x) (hf : ∀ a, Keeps sheet safe (f a)) : Keeps sheet safe (x >>= f) := by
  intro p hp
  obtain ⟨r, q, hrun, hq, hg, hr⟩ := hx p hp
  cases r with
  | error cause => exact ⟨_, q, Sheet.run_bind_error hrun, hq, hg, fun h => nomatch hr h⟩
  | ok a =>
      obtain ⟨r', q', hrun', hq', hg', hr'⟩ := hf a q hq
      exact ⟨r', q', (Sheet.run_bind_ok hrun).trans hrun', hq', hg.trans hg', hr'⟩

theorem Keeps.ofExcept {α : Type} {r : Except Failure α} (h : safe → ∃ a, r = .ok a) :
    Keeps sheet safe (liftM r : Computation α) := by
  intro p hp
  cases r with
  | error cause => exact ⟨_, p, rfl, hp, Pass.Grows.refl p, h⟩
  | ok a => exact ⟨_, p, rfl, hp, Pass.Grows.refl p, h⟩

theorem Keeps.mapM {α β : Type} {l : List α} {f : α → Computation β}
    (hf : ∀ a, Keeps sheet safe (f a)) : Keeps sheet safe (l.mapM f) := by
  induction l with
  | nil => exact .pure []
  | cons a l ih =>
      rw [List.mapM_cons]
      exact .bind (hf a) fun b => .bind ih fun bs => .pure (b :: bs)

theorem run_result {a : String} {p q : Pass} {r : Except Failure Outcome}
    (h : StateT.run (sheet.result a).run p = (r, q)) :
    StateT.run (result a).run ⟨sheet, p⟩ = (r, ⟨sheet, q⟩) := by
  show (let r := StateT.run (sheet.result a).run p; (r.1, (⟨sheet, r.2⟩ : Session))) = _
  rw [h]

theorem Keeps.result (hsafe : safe → ∀ a, ∃ l, sheet.references a = .ok l) (a : String) :
    Keeps sheet safe (Session.result a) := by
  intro p hp
  obtain ⟨r, q, hrun, hkeeps⟩ := Sheet.Keeps.result hsafe a p hp
  exact ⟨r, q, run_result hrun, hkeeps⟩

theorem Keeps.shown (hsafe : safe → ∀ a, ∃ l, sheet.references a = .ok l) (a : String) :
    Keeps sheet safe (Session.shown a) :=
  .bind (.result hsafe a) fun o => .pure o.shown

theorem Keeps.shownAll_of_references (hkeys : safe → ∀ a ∈ sheet.cells.keys, Address.RowReadable a)
    (href : safe → ∀ a, ∃ l, sheet.references a = .ok l) : Keeps sheet safe Session.shownAll := by
  have hsort : safe → ∃ l, Address.sortRowMajor sheet.cells.keys = .ok l := fun h =>
    Address.sortRowMajor_ok (hkeys h)
  have hk : Keeps sheet safe
      ((liftM (Address.sortRowMajor sheet.cells.keys) : Computation (List String)) >>=
        fun addresses => addresses.mapM fun a => do return (a, ← Session.shown a)) :=
    .bind (.ofExcept hsort) fun _ => .mapM fun a => .bind (.shown href a) fun v => .pure _
  exact hk

theorem Keeps.shownAll (hrows : safe → sheet.RowsReadable) : Keeps sheet safe Session.shownAll :=
  .shownAll_of_references (fun h => (hrows h).keys) fun h => Sheet.references_ok (hrows h)

/-- What a session can be asked for between two changes of its cells. -/
inductive Call where
  | result (address : String)
  | shown (address : String)
  | shownAll

/-- A call for its effect on the session. -/
def Call.run : Call → Computation Unit
  | result address => do let _ ← Session.result address
  | shown address => do let _ ← Session.shown address
  | shownAll => do let _ ← Session.shownAll

/-- The session after some calls. -/
def after (s : Session) (calls : List Call) : Session :=
  calls.foldl (fun s call => (StateT.run call.run.run s).2) s

theorem Keeps.call (hrows : safe → sheet.RowsReadable) (call : Call) :
    Keeps sheet safe call.run := by
  cases call with
  | result a => exact .bind (.result (fun h => Sheet.references_ok (hrows h)) a) fun _ => .pure ()
  | shown a => exact .bind (.shown (fun h => Sheet.references_ok (hrows h)) a) fun _ => .pure ()
  | shownAll => exact .bind (.shownAll hrows) fun _ => .pure ()

/-- **Whatever a session has been asked for, its pass is accounted for**, also where a call has
failed as a whole. -/
theorem after_accounted (hrows : safe → sheet.RowsReadable) (calls : List Call) :
    ∀ p : Pass, p.Accounted sheet [] →
      ∃ q : Pass, after ⟨sheet, p⟩ calls = ⟨sheet, q⟩ ∧ q.Accounted sheet [] ∧ p.Grows q := by
  induction calls with
  | nil => exact fun p hp => ⟨p, rfl, hp, Pass.Grows.refl p⟩
  | cons call calls ih =>
      intro p hp
      obtain ⟨_, q, hrun, hq, hg, _⟩ := Keeps.call hrows call p hp
      obtain ⟨r, hr, haccounted, hg'⟩ := ih q hq
      refine ⟨r, ?_, haccounted, hg.trans hg'⟩
      rw [after, List.foldl_cons, hrun]
      exact hr

/-- **Whatever a session has been asked for, its pass is sound.** -/
theorem after_sound (hs : sheet.limit = none) (hrows : sheet.RowsReadable) (calls : List Call) :
    ∀ p : Pass, p.Sound sheet [] →
      ∃ q : Pass, after ⟨sheet, p⟩ calls = ⟨sheet, q⟩ ∧ q.Sound sheet [] := by
  intro p hp
  obtain ⟨q, hq, haccounted, _⟩ := after_accounted (fun _ : True => hrows) calls p hp.accounted
  exact ⟨q, hq, haccounted.sound hs⟩

end Session

end Worksheet
