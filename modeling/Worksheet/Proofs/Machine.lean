import Worksheet.Proofs.References

/-!
# Evaluation with stacks

The outcome of a cell, computed one step at a time.  What the computation has to keep in mind is on
two stacks: the path of the search for the cells below, where each cell has references that are
still to be looked at, and the cells in progress, where the dialogue of each formula has come to a
certain point.  A formula that reads a cell without an outcome waits until the cell has one, and
then asks again.

Every run of this machine comes to an end, and to the same outcome and the same pass as the nested
computation.
-/

namespace Worksheet

open Formula Dialogue Relation

/-- The outcome of a cell that has been evaluated or holds no formula. -/
def Pass.outcome? (s : Sheet) (p : Pass) (cell : String) : Option Outcome :=
  match p.find? cell, s.formula? cell with
  | some o, _ => some o
  | none, none => some (.ok (s.cells.get cell))
  | none, some _ => none

namespace Pass

variable {s : Sheet} {p : Pass} {cell : String}

theorem outcome?_eq_some_iff {o : Outcome} : p.outcome? s cell = some o ↔
    p.find? cell = some o ∨
      p.find? cell = none ∧ s.formula? cell = none ∧ .ok (s.cells.get cell) = o := by
  unfold outcome?
  cases p.find? cell <;> cases s.formula? cell <;> simp

theorem outcome?_eq_none_iff : p.outcome? s cell = none ↔
    p.find? cell = none ∧ ∃ text, s.formula? cell = some text := by
  unfold outcome?
  cases p.find? cell <;> cases s.formula? cell <;> simp

end Pass

/-- A cell on the path of a search, with those of its references that are still to be looked at. -/
structure Branch where
  cell : String
  deps : List String

/-- A cell in progress, with what is left of the dialogue of its formula. -/
structure Activation where
  cell : String
  dialogue : Dialogue Outcome

/-- The state of a search and of the evaluations that it starts.  Both stacks have the innermost cell
first. -/
structure Machine where
  path : List Branch
  walk : Sheet.Walk
  stack : List Activation
  pass : Pass
  /-- What the search has failed with. -/
  failure : Option Failure

namespace Machine

/-! ## Steps -/

/-- Goes on with the search from a further cell. -/
def descend (s : Sheet) (cell : String) (m : Machine) : Machine :=
  match s.references cell with
  | .ok deps =>
    { m with path := ⟨cell, deps⟩ :: m.path
             walk := { m.walk with visited := cell :: m.walk.visited } }
  | .error cause => { m with failure := some cause }

/-- Takes up the evaluation of a cell, unless it has an outcome. -/
def begin (s : Sheet) (depth : Nat) (cell : String) (m : Machine) : Machine :=
  match m.pass.find? cell, s.formula? cell with
  | none, some text => { m with stack := ⟨cell, outcomeAt s.setting depth text⟩ :: m.stack }
  | _, _ => m

/-- Answers one question of the innermost formula in progress, or puts down its outcome. -/
def advance (s : Sheet) (m : Machine) (cell : String) (outer : List Activation) :
    Dialogue Outcome → Machine
  | .done o => { m with stack := outer, pass := (m.pass.recordOutcome cell o).2 }
  | .read a depth next =>
    let cells := cell :: outer.map (·.cell)
    if a ∈ cells then
      let path := cyclePath cells a
      { m with stack := ⟨cell, next (.error (.circular path))⟩ :: outer
               pass := m.pass.recordCycle path }
    else
      match m.pass.outcome? s a with
      | some o => { m with stack := ⟨cell, next (readOutcome a o)⟩ :: outer }
      | none =>
        if s.setting.breaksOff depth then { m with stack := ⟨cell, next (.error .tooDeep)⟩ :: outer }
        else m.begin s depth a
  | .drawFraction next =>
    let (x, pass) := (Pass.draw RandomSource.drawFraction).run m.pass
    { m with stack := ⟨cell, next x⟩ :: outer, pass }
  | .drawInteger low high next =>
    let (i, pass) := (Pass.draw (RandomSource.drawInteger low high)).run m.pass
    { m with stack := ⟨cell, next i⟩ :: outer, pass }

/-- Looks at the next reference of the cell at the end of the path.  When there is none, the path
gets shorter and the cell is evaluated, unless it looks like part of a cycle and is not the one that
has been asked for. -/
def search (s : Sheet) (m : Machine) (cell : String) (outer : List Branch) :
    List String → Machine
  | [] =>
    let m := { m with path := outer }
    if outer.isEmpty || cell ∉ m.walk.onCycle then m.begin s 0 cell else m
  | dep :: deps =>
    let m := { m with path := ⟨cell, deps⟩ :: outer }
    let cells := m.path.map (·.cell)
    if (m.pass.find? dep).isSome then m
    else if dep ∈ cells then
      { m with walk := { m.walk with
                         onCycle := cells.takeWhile (· ≠ dep) ++ dep :: m.walk.onCycle } }
    else if dep ∈ m.walk.visited then m
    else m.descend s dep

/-- The next state; none when the machine has come to its end. -/
def next (s : Sheet) (m : Machine) : Option Machine :=
  match m.failure, m.stack, m.path with
  | some _, _, _ => none
  | none, ⟨cell, dialogue⟩ :: outer, _ => some (m.advance s cell outer dialogue)
  | none, [], ⟨cell, deps⟩ :: outer => some (m.search s cell outer deps)
  | none, [], [] => none

/-- A machine that is asked for the outcome of a cell. -/
def start (s : Sheet) (p : Pass) (cell : String) : Machine :=
  let m : Machine := ⟨[], ⟨[], []⟩, [], p, none⟩
  if (p.outcome? s cell).isSome then m else m.descend s cell

/-- Some steps of a machine. -/
abbrev Runs (s : Sheet) : Machine → Machine → Prop :=
  ReflTransGen fun m m' => m.next s = some m'

/-- What a machine at its end has to tell of the cell that it has been asked for. -/
def Gives (s : Sheet) (cell : String) (m : Machine) : Except Failure Outcome → Prop
  | .ok o => m.failure = none ∧ m.pass.outcome? s cell = some o
  | .error cause => m.failure = some cause

/-- Whether a machine has come to its end, with a given result and a given pass. -/
structure EndsIn (s : Sheet) (cell : String) (m : Machine) (r : Except Failure Outcome × Pass) :
    Prop where
  ended : m.next s = none
  gives : m.Gives s cell r.1
  pass : m.pass = r.2

variable {s : Sheet}

/-- A state has at most one next one, so all that is reached goes on to the end if there is one. -/
theorem Runs.to_end {m₀ m m' : Machine} (h : Runs s m₀ m) (hend : m.next s = none)
    (h' : Runs s m₀ m') : Runs s m' m := by
  have hunique : Relator.RightUnique fun m m' : Machine => m.next s = some m' :=
    fun _ _ _ h h' => Option.some.inj (h.symm.trans h')
  rcases ReflTransGen.total_of_right_unique hunique h h' with hon | hon
  · rcases hon.cases_head with rfl | ⟨_, hnext, _⟩
    · exact .refl
    · rw [hend] at hnext
      cases hnext
  · exact hon

/-! ## The evaluation of a cell -/

theorem begin_of_find? {p : Pass} {a : String} {o : Outcome} (h : p.find? a = some o)
    (depth : Nat) (path : List Branch) (w : Sheet.Walk) (stack : List Activation) :
    begin s depth a ⟨path, w, stack, p, none⟩ = ⟨path, w, stack, p, none⟩ := by
  unfold begin
  rw [h]

theorem begin_of_formula?_eq_none {a : String} (hf : s.formula? a = none)
    (depth : Nat) (m : Machine) : begin s depth a m = m := by
  unfold begin
  rw [hf]
  cases m.pass.find? a <;> rfl

theorem begin_of_formula? {m : Machine} {a text : String} (h : m.pass.find? a = none)
    (hf : s.formula? a = some text) (depth : Nat) :
    begin s depth a m =
      { m with stack := ⟨a, outcomeAt s.setting depth text⟩ :: m.stack } := by
  unfold begin
  rw [h, hf]

/-- A cell that has been evaluated has the outcome that the evaluation has come to. -/
theorem outcome?_outcomeOf (stack : List String) (depth : Nat) (a : String) (fresh : a ∉ stack)
    (p : Pass) : ((s.outcomeOf stack depth a fresh).run p).2.outcome? s a =
      some ((s.outcomeOf stack depth a fresh).run p).1 := by
  rw [Sheet.outcomeOf_run, Pass.outcome?_eq_some_iff]
  cases hn : p.find? a with
  | some o => exact .inl hn
  | none =>
  cases hf : s.formula? a with
  | none => exact .inr ⟨hn, rfl, rfl⟩
  | some text => exact .inl List.lookup_cons_self

/-- A cell that has an outcome is not evaluated again. -/
theorem outcomeOf_run_of_outcome? {p : Pass} {a : String} {o : Outcome}
    (h : p.outcome? s a = some o) (stack : List String) (depth : Nat) (fresh : a ∉ stack) :
    (s.outcomeOf stack depth a fresh).run p = (o, p) := by
  rw [Sheet.outcomeOf_run]
  rcases Pass.outcome?_eq_some_iff.mp h with hfound | ⟨hn, hf, rfl⟩
  · rw [hfound]
  · rw [hn, hf]

section

variable (path : List Branch) (w : Sheet.Walk) (outer : List Activation) {p : Pass} {a b : String}
  (depth : Nat) (next : Except Failure Value → Dialogue Outcome)

theorem next_read_of_mem (h : b ∈ a :: outer.map (·.cell)) :
    Machine.next s ⟨path, w, ⟨a, .read b depth next⟩ :: outer, p, none⟩ =
      some ⟨path, w,
        ⟨a, next (.error (.circular (cyclePath (a :: outer.map (·.cell)) b)))⟩ :: outer,
        p.recordCycle (cyclePath (a :: outer.map (·.cell)) b), none⟩ :=
  congrArg some (if_pos h)

theorem next_read_of_outcome? (h : b ∉ a :: outer.map (·.cell)) {o : Outcome}
    (ho : p.outcome? s b = some o) :
    Machine.next s ⟨path, w, ⟨a, .read b depth next⟩ :: outer, p, none⟩ =
      some ⟨path, w, ⟨a, next (readOutcome b o)⟩ :: outer, p, none⟩ := by
  refine congrArg some ((if_neg h).trans ?_)
  rw [ho]

theorem next_read_of_breaksOff (h : b ∉ a :: outer.map (·.cell)) (ho : p.outcome? s b = none)
    (hdeep : s.setting.breaksOff depth) :
    Machine.next s ⟨path, w, ⟨a, .read b depth next⟩ :: outer, p, none⟩ =
      some ⟨path, w, ⟨a, next (.error .tooDeep)⟩ :: outer, p, none⟩ := by
  refine congrArg some ((if_neg h).trans ?_)
  rw [ho]
  exact if_pos hdeep

theorem next_read_of_outcome?_eq_none (h : b ∉ a :: outer.map (·.cell))
    (ho : p.outcome? s b = none) (hdeep : ¬ s.setting.breaksOff depth) :
    Machine.next s ⟨path, w, ⟨a, .read b depth next⟩ :: outer, p, none⟩ =
      some (begin s depth b ⟨path, w, ⟨a, .read b depth next⟩ :: outer, p, none⟩) := by
  refine congrArg some ((if_neg h).trans ?_)
  rw [ho]
  exact if_neg hdeep

end

/-- **The evaluation of a cell, step by step**, whichever cells are in progress.  The induction is on
the cells that are not; within the evaluation of one cell, it is on what is left of its dialogue. -/
theorem runs_begin (path : List Branch) (w : Sheet.Walk) (cells : List String) (depth : Nat)
    (a : String) (fresh : a ∉ cells) :
    ∀ (outer : List Activation) (p : Pass), outer.map (·.cell) = cells →
      Runs s (begin s depth a ⟨path, w, outer, p, none⟩)
        ⟨path, w, outer, ((s.outcomeOf cells depth a fresh).run p).2, none⟩ := by
  induction cells, depth, a, fresh using Sheet.outcomeOf.induct s with
  | case1 cells depth a fresh ih =>
  intro outer p houter
  rw [Sheet.outcomeOf_run]
  cases hn : p.find? a with
  | some o =>
      rw [begin_of_find? hn]
  | none =>
  cases hf : s.formula? a with
  | none =>
      rw [begin_of_formula?_eq_none hf]
  | some text =>
  rw [begin_of_formula? hn hf]
  have hdialogue : ∀ (d : Dialogue Outcome) (p : Pass),
      Runs s ⟨path, w, ⟨a, d⟩ :: outer, p, none⟩ ⟨path, w, outer,
        (Pass.recordOutcome a ((s.hold (a :: cells) d).run p).1
          ((s.hold (a :: cells) d).run p).2).2, none⟩ := by
    intro d
    induction d with
    | done o => exact fun p => .single rfl
    | drawFraction next ihd => exact fun p => .head rfl (ihd _ _)
    | drawInteger low high next ihd => exact fun p => .head rfl (ihd _ _)
    | read b depth' next ihd =>
        intro p
        have hhold : (s.hold (a :: cells) (.read b depth' next)).run p =
            (s.hold (a :: cells) (next ((s.answerWhile (a :: cells) b depth').run p).1)).run
              ((s.answerWhile (a :: cells) b depth').run p).2 := rfl
        rw [hhold]
        subst houter
        by_cases hb : b ∈ a :: outer.map (·.cell)
        -- a cell in progress is asked for: a cycle is found, and the answer is a failure
        · rw [Sheet.answerWhile_of_mem s hb]
          exact .head (next_read_of_mem path w outer depth' next hb) (ihd _ _)
        by_cases hout : s.outOfReach depth' b p
        -- a cell out of reach answers with a failure, and the pass stays as it is
        · rw [Sheet.answerWhile_of_outOfReach hb hout]
          obtain ⟨hdeep, hn, hformula⟩ := Sheet.outOfReach_iff.mp hout
          have ho := Pass.outcome?_eq_none_iff.mpr ⟨hn, Option.isSome_iff_exists.mp hformula⟩
          exact .head (next_read_of_breaksOff path w outer depth' next hb ho hdeep) (ihd _ _)
        -- any other cell is evaluated first, and then it is asked for again
        rw [Sheet.answerWhile_of_not_mem hb hout]
        have hfound := outcome?_outcomeOf (s := s) (a :: outer.map (·.cell)) depth' b hb p
        refine .trans ?_ (.head (next_read_of_outcome? path w outer depth' next hb hfound) (ihd _ _))
        cases ho : p.outcome? s b with
        | some o =>
            rw [outcomeOf_run_of_outcome? ho]
        | none =>
            have hdeep : ¬ s.setting.breaksOff depth' := fun hdeep => by
              obtain ⟨hn, text', hf'⟩ := Pass.outcome?_eq_none_iff.mp ho
              exact hout (Sheet.outOfReach_iff.mpr ⟨hdeep, hn, by simp [hf']⟩)
            refine .head (next_read_of_outcome?_eq_none path w outer depth' next hb ho hdeep) ?_
            exact ih text hf b depth' hb (⟨a, .read b depth' next⟩ :: outer) p rfl
  exact hdialogue _ p

/-! ## The search -/

/-- Whether a machine goes as a computation does: to a given state if the computation comes to a
value, and otherwise to its failure. -/
def Follows (s : Sheet) {α : Type} (m : Machine) (after : α → Pass → Machine) :
    Except Failure α × Pass → Prop
  | (.ok a, p) => Runs s m (after a p)
  | (.error cause, p) => ∃ m', Runs s m m' ∧ m'.failure = some cause ∧ m'.pass = p

namespace Follows

variable {α β : Type} {m m' : Machine} {p : Pass}

theorem head {after : α → Pass → Machine} {r : Except Failure α × Pass} (h : Runs s m m')
    (h' : Follows s m' after r) : Follows s m after r := by
  obtain ⟨_ | a, q⟩ := r
  · obtain ⟨m₁, hruns, hfailure⟩ := h'
    exact ⟨m₁, h.trans hruns, hfailure⟩
  · exact h.trans h'

theorem bind {x : ExceptT Failure (StateM Pass) α} {f : α → ExceptT Failure (StateM Pass) β}
    {middle : α → Pass → Machine} {after : β → Pass → Machine}
    (hx : Follows s m middle (StateT.run x.run p))
    (hf : ∀ a q, Follows s (middle a q) after (StateT.run (f a).run q)) :
    Follows s m after (StateT.run (x >>= f).run p) := by
  obtain ⟨r, q, hrun⟩ : ∃ r q, StateT.run x.run p = (r, q) := ⟨_, _, rfl⟩
  rw [hrun] at hx
  cases r with
  | error cause =>
      rw [Sheet.run_bind_error hrun]
      exact hx
  | ok a =>
      rw [Sheet.run_bind_ok hrun]
      exact (hf a q).head hx

end Follows

/-- What comes of a step of a walk. -/
def walked (x : StateT Sheet.Walk (ExceptT Failure (StateM Pass)) Unit) (w : Sheet.Walk)
    (p : Pass) : Except Failure (Unit × Sheet.Walk) × Pass :=
  StateT.run (x.run w).run p

/-- Where a search stands that has come back to a path. -/
def back (path : List Branch) (r : Unit × Sheet.Walk) (p : Pass) : Machine :=
  ⟨path, r.2, [], p, none⟩

theorem Follows.bindWalk {m : Machine} {middle path : List Branch} {w : Sheet.Walk} {p : Pass}
    {x : StateT Sheet.Walk (ExceptT Failure (StateM Pass)) Unit}
    {f : Unit → StateT Sheet.Walk (ExceptT Failure (StateM Pass)) Unit}
    (hx : Follows s m (back middle) (walked x w p))
    (hf : ∀ w q, Follows s ⟨middle, w, [], q, none⟩ (back path) (walked (f ()) w q)) :
    Follows s m (back path) (walked (x >>= f) w p) :=
  hx.bind fun r q => hf r.2 q

theorem descend_of_ok {a : String} {deps : List String} (h : s.references a = .ok deps)
    (m : Machine) : descend s a m =
      { m with path := ⟨a, deps⟩ :: m.path
               walk := { m.walk with visited := a :: m.walk.visited } } := by
  unfold descend
  rw [h]

theorem descend_of_error {a : String} {cause : Failure} (h : s.references a = .error cause)
    (m : Machine) : descend s a m = { m with failure := some cause } := by
  unfold descend
  rw [h]

/-- What a walk does with one of the references of the cell at the front of its path. -/
def visit (s : Sheet) (room : Nat) (path : List String) (dep : String) :
    StateT Sheet.Walk (ExceptT Failure (StateM Pass)) Unit := do
  if ((← getThe Pass).find? dep).isSome then return
  else if dep ∈ path then
    modify fun w => { w with onCycle := path.takeWhile (· ≠ dep) ++ dep :: w.onCycle }
  else if dep ∈ (← get).visited then return
  else
    modify fun w => { w with visited := dep :: w.visited }
    s.walk room (dep :: path) dep
    if dep ∉ (← get).onCycle then
      let _ ← (s.outcome dep : StateM Pass Outcome)

theorem walk_succ (room : Nat) (path : List String) (a : String) :
    s.walk (room + 1) path a =
      (do (← (s.references a : Except Failure (List String))).forM (visit s room path)) :=
  rfl

/-- What is done with a cell when all cells below it have been looked at. -/
theorem follows_leave (path : List Branch) (hpath : path.isEmpty = false) (dep : String)
    (w : Sheet.Walk) (p : Pass) :
    Follows s ⟨⟨dep, []⟩ :: path, w, [], p, none⟩ (back path)
      (walked (do if dep ∉ (← get).onCycle then let _ ← (s.outcome dep : StateM Pass Outcome)) w
        p) := by
  refine .head (.single rfl) ?_
  show Follows s (if path.isEmpty || dep ∉ w.onCycle then _ else _) (back path)
    (walked (if dep ∉ w.onCycle then _ else _) w p)
  by_cases hcycle : dep ∈ w.onCycle
  · rw [if_neg (by simpa [hpath] using hcycle), if_neg (by simpa using hcycle)]
    exact .refl
  · rw [if_pos (by simpa [hpath] using hcycle), if_pos hcycle]
    exact runs_begin path w [] 0 dep List.not_mem_nil [] p rfl

/-- What is done with a reference, if the search below it goes as the walk does. -/
theorem follows_visit (room : Nat) (outer : List Branch) (a dep : String) (deps : List String)
    (w : Sheet.Walk) (p : Pass)
    (hbelow : dep ∉ a :: outer.map (·.cell) →
      Follows s (descend s dep ⟨⟨a, deps⟩ :: outer, w, [], p, none⟩)
        (back (⟨dep, []⟩ :: ⟨a, deps⟩ :: outer))
        (walked (s.walk room (dep :: a :: outer.map (·.cell)) dep)
          { w with visited := dep :: w.visited } p)) :
    Follows s ⟨⟨a, dep :: deps⟩ :: outer, w, [], p, none⟩ (back (⟨a, deps⟩ :: outer))
      (walked (visit s room (a :: outer.map (·.cell)) dep) w p) := by
  refine .head (.single rfl) ?_
  show Follows s (if (p.find? dep).isSome then _ else if dep ∈ a :: outer.map (·.cell) then _
    else if dep ∈ w.visited then _ else _) _ (walked (if (p.find? dep).isSome then _ else _) w p)
  by_cases hfound : (p.find? dep).isSome
  · rw [if_pos hfound, if_pos hfound]
    exact .refl
  rw [if_neg hfound, if_neg hfound]
  by_cases hpath : dep ∈ a :: outer.map (·.cell)
  · rw [if_pos hpath, if_pos hpath]
    exact .refl
  rw [if_neg hpath, if_neg hpath]
  show Follows s _ _ (walked (if dep ∈ w.visited then _ else _) w p)
  by_cases hvisited : dep ∈ w.visited
  · rw [if_pos hvisited, if_pos hvisited]
    exact .refl
  rw [if_neg hvisited, if_neg hvisited]
  show Follows s _ _ (walked (s.walk room (dep :: a :: outer.map (·.cell)) dep >>= fun _ => _)
    { w with visited := dep :: w.visited } p)
  exact .bindWalk (hbelow hpath) fun w q => follows_leave _ rfl dep w q

/-- **The search below a cell, step by step**, as long as there is room for all the formulas that are
not on the path. -/
theorem follows_walk (room : Nat) : ∀ (outer : List Branch) (a : String) (w : Sheet.Walk) (p : Pass),
    (s.formulas.filter (· ∉ a :: outer.map (·.cell))).length < room →
    Follows s (descend s a ⟨outer, w, [], p, none⟩) (back (⟨a, []⟩ :: outer))
      (walked (s.walk room (a :: outer.map (·.cell)) a) { w with visited := a :: w.visited } p) := by
  induction room with
  | zero => exact fun _ _ _ _ hroom => absurd hroom (Nat.not_lt_zero _)
  | succ room ih =>
  intro outer a w p hroom
  rw [walk_succ]
  cases hdeps : s.references a with
  | error cause => exact ⟨_, .refl, by rw [descend_of_error hdeps], by rw [descend_of_error hdeps]⟩
  | ok deps =>
  rw [descend_of_ok hdeps]
  have hloop : ∀ deps : List String, deps ⊆ s.formulas → ∀ w p,
      Follows s ⟨⟨a, deps⟩ :: outer, w, [], p, none⟩ (back (⟨a, []⟩ :: outer))
        (walked (deps.forM (visit s room (a :: outer.map (·.cell)))) w p) := by
    intro deps
    induction deps with
    | nil => exact fun _ _ _ => .refl
    | cons dep deps ihdeps =>
        intro hdeps w p
        obtain ⟨hdep, hdeps⟩ := List.cons_subset.mp hdeps
        obtain ⟨text, hf⟩ := Option.isSome_iff_exists.mp (List.mem_filter.mp hdep).2
        refine .bindWalk (follows_visit room outer a dep deps w p fun hpath => ?_)
          fun w q => ihdeps hdeps w q
        -- one formula fewer is off the path when the search goes on from this reference
        have hfewer := Sheet.fewer_fresh hf hpath
        exact ih (⟨a, deps⟩ :: outer) dep w p
          (Nat.lt_of_lt_of_le hfewer (Nat.le_of_lt_succ hroom))
  exact hloop deps (fun _ => Sheet.mem_formulas_of_mem_references hdeps) _ p

/-! ## From start to end -/

theorem next_of_failure {m : Machine} {cause : Failure} (h : m.failure = some cause) :
    m.next s = none := by
  unfold next
  rw [h]

variable {a : String} {p q : Pass}

/-- Nothing is done before a cell is evaluated that has an outcome. -/
theorem run_prepare_of_outcome? {o : Outcome} (h : p.outcome? s a = some o) :
    StateT.run (s.prepare a).run p = (.ok (), p) := by
  rcases Pass.outcome?_eq_some_iff.mp h with hfound | ⟨hn, hf, _⟩
  · show StateT.run (if (p.find? a).isNone then _ else _ :
      ExceptT Failure (StateM Pass) Unit).run p = _
    rw [hfound]
    rfl
  · rw [Sheet.run_prepare hn, walk_succ, Sheet.references_eq_nil hf]
    rfl

theorem run_result_of_prepare {name : String}
    (h : StateT.run (s.prepare (Text.upper name)).run p = (.ok (), q)) :
    StateT.run (s.result name).run p =
      (.ok ((s.outcome (Text.upper name)).run q).1, ((s.outcome (Text.upper name)).run q).2) :=
  Sheet.run_bind_ok h

/-- **The machine comes to an end, and to the result and the pass of the nested computation.** -/
theorem exists_endsIn (s : Sheet) (p : Pass) (name : String) :
    ∃ m, Runs s (start s p (Text.upper name)) m ∧
      m.EndsIn s (Text.upper name) (StateT.run (s.result name).run p) := by
  cases ho : p.outcome? s (Text.upper name) with
  | some o =>
      refine ⟨⟨[], ⟨[], []⟩, [], p, none⟩, ?_, ?_⟩
      · rw [start, ho]
        exact .refl
      · have houtcome : (s.outcome (Text.upper name)).run p = (o, p) :=
          outcomeOf_run_of_outcome? ho [] 0 List.not_mem_nil
        rw [run_result_of_prepare (run_prepare_of_outcome? ho), houtcome]
        exact ⟨rfl, ⟨rfl, ho⟩, rfl⟩
  | none =>
  obtain ⟨hn, _⟩ := Pass.outcome?_eq_none_iff.mp ho
  have hstart : start s p (Text.upper name) =
      descend s (Text.upper name) ⟨[], ⟨[], []⟩, [], p, none⟩ := by
    rw [start, ho]
    rfl
  have hwalk := follows_walk (s := s) (s.formulas.length + 1) [] (Text.upper name) ⟨[], []⟩ p
    (Nat.lt_succ_of_le (List.length_filter_le _ _))
  rw [← hstart] at hwalk
  obtain ⟨r, q, hw⟩ : ∃ r q, walked (s.walk (s.formulas.length + 1) [Text.upper name]
      (Text.upper name)) ⟨[Text.upper name], []⟩ p = (r, q) := ⟨_, _, rfl⟩
  have hwalk : Follows s _ (back [⟨Text.upper name, []⟩]) (r, q) := hw ▸ hwalk
  cases r with
  | error cause =>
      obtain ⟨m, hruns, hfailure, hpass⟩ := hwalk
      have hresult : StateT.run (s.result name).run p = (.error cause, q) :=
        Sheet.run_bind_error ((Sheet.run_prepare hn).trans (Sheet.run_bind_error hw))
      rw [hresult]
      exact ⟨m, hruns, next_of_failure hfailure, hfailure, hpass⟩
  | ok r =>
      obtain ⟨⟨⟩, w⟩ := r
      rw [run_result_of_prepare ((Sheet.run_prepare hn).trans (Sheet.run_bind_ok hw))]
      -- the search is back at the cell that was asked for, which is evaluated last
      refine ⟨_, hwalk.trans (.head rfl (runs_begin [] w [] 0 _ List.not_mem_nil [] q rfl)), ?_⟩
      exact ⟨rfl, ⟨rfl, outcome?_outcomeOf [] 0 _ List.not_mem_nil q⟩, rfl⟩

end Machine

end Worksheet
