import Worksheet.Sheet.Graph

/-!
# Passes

A pass evaluates the cells of a sheet on demand and keeps what it has computed.  A cell that is
needed for its own value lies on a cycle.  The cycle is recorded, and each cell on a recorded cycle
fails.

A formula that is read where nesting is too deep fails.  Where it is so deep that not even this can
be told, nothing is kept and it is the formula that reads it that fails: the one that is read can
still be evaluated when it is read again.

Before a cell is evaluated, the cells below it are, deepest first, so that a long chain of
references does not nest.  Cells that look like part of a cycle are left out there: it is their
evaluation from the cell that was asked for that finds the cycle.
-/

namespace Worksheet

open Formula (Outcome)

/-- What has been computed from a sheet. -/
structure Pass where
  /-- The outcomes of formula cells, newest first. -/
  results : List (String × Outcome)
  /-- The cycles that were found, oldest first.  Each returns to its first cell. -/
  cycles : List (List String)
  source : RandomSource

namespace Pass

/-- A pass in which nothing has been computed. -/
def start (source : RandomSource) : Pass :=
  ⟨[], [], source⟩

/-- The outcome of a formula cell that has been evaluated. -/
def find? (p : Pass) (address : String) : Option Outcome :=
  p.results.lookup address

/-- Adds a cycle. -/
def recordCycle (path : List String) (p : Pass) : Pass :=
  { p with cycles := p.cycles ++ [path] }

/-- Adds the outcome of a formula.  If its cell is on a cycle, that is its outcome. -/
def recordOutcome (address : String) (o : Outcome) (p : Pass) : Outcome × Pass :=
  let o := match p.cycles.find? (address ∈ ·) with
    | some path => .error (.circular path)
    | none => o
  (o, { p with results := (address, o) :: p.results })

/-- Uses the random source of the pass. -/
def draw {α : Type} (x : StateM RandomSource α) : StateM Pass α := do
  let p ← get
  let (a, source) := x.run p.source
  set { p with source }
  return a

end Pass

/-- The path from a cell in progress back to itself; `stack` holds the cells in progress, innermost
first. -/
def cyclePath (stack : List String) (address : String) : List String :=
  (stack.takeWhile (· ≠ address) ++ [address]).reverse ++ [address]

/-- What a formula gets that reads a cell with an outcome. -/
def readOutcome (address : String) : Outcome → Except Failure Value
  | .ok v => .ok v
  | .error cause => .error (.failedCell address cause)

namespace Sheet

theorem fewer_fresh {s : Sheet} {stack : List String} {address text : String}
    (h : s.formula? address = some text) (fresh : address ∉ stack) :
    (s.formulas.filter (· ∉ address :: stack)).length <
      (s.formulas.filter (· ∉ stack)).length := by
  have hsub : s.formulas.filter (· ∉ address :: stack) =
      (s.formulas.filter (· ∉ stack)).filter (· ≠ address) := by
    rw [List.filter_filter]
    congr 1
    funext a
    by_cases ha : a = address <;> simp [ha]
  rw [hsub]
  exact List.length_filter_lt_length_iff_exists.mpr
    ⟨address, List.mem_filter.mpr ⟨mem_formulas h, by simpa using fresh⟩, by simp⟩

/-- Whether a cell is out of reach at a level of nesting: it has a formula that has not been
evaluated, and nesting is too deep even for telling that this fails. -/
def outOfReach (s : Sheet) (depth : Nat) (address : String) (p : Pass) : Bool :=
  s.setting.breaksOff depth && (p.find? address).isNone && (s.formula? address).isSome

/-- The outcome of a cell, which is evaluated unless that has been done.  `stack` holds the cells in
progress, innermost first, and `depth` is the level of nesting. -/
def outcomeOf (s : Sheet) (stack : List String) (depth : Nat) (address : String)
    (_fresh : address ∉ stack) : StateM Pass Outcome := do
  match (← get).find? address with
  | some o => return o
  | none =>
    match _h : s.formula? address with
    | none => return .ok (s.cells.get address)
    | some text =>
      let o ← (Formula.outcomeAt s.setting depth text).run
        (fun a d =>
          if h : a ∈ address :: stack then do
            let path := cyclePath (address :: stack) a
            modify (Pass.recordCycle path)
            return .error (.circular path)
          else do
            if s.outOfReach d a (← get) then return .error .tooDeep
            readOutcome a <$> outcomeOf s (address :: stack) d a h)
        (Pass.draw RandomSource.drawFraction)
        (fun low high => Pass.draw (RandomSource.drawInteger low high))
      modifyGet (Pass.recordOutcome address o)
termination_by (s.formulas.filter (· ∉ stack)).length
decreasing_by exact fewer_fresh _h _fresh

/-- The outcome of a cell when no other one is in progress. -/
def outcome (s : Sheet) (address : String) : StateM Pass Outcome :=
  s.outcomeOf [] 0 address List.not_mem_nil

/-! ## The cells below a cell -/

/-- What a walk over references has seen. -/
structure Walk where
  /-- The cells that the walk has gone to. -/
  visited : List String
  /-- The cells from which a path led back to themselves. -/
  onCycle : List String

/-- Evaluates the formula cells below the cell at the front of a path, deepest first, except for
those that look like part of a cycle.  A path holds each cell once and `room` says how many more it
can take in. -/
def walk (s : Sheet) : (room : Nat) → (path : List String) → (cell : String) →
    StateT Walk (ExceptT Failure (StateM Pass)) Unit
  | 0, _, _ => return
  | room + 1, path, cell => do
    (← s.references cell).forM fun dep => do
      if ((← getThe Pass).find? dep).isSome then return
      else if dep ∈ path then
        modify fun w => { w with onCycle := path.takeWhile (· ≠ dep) ++ dep :: w.onCycle }
      else if dep ∈ (← get).visited then return
      else
        modify fun w => { w with visited := dep :: w.visited }
        s.walk room (dep :: path) dep
        if dep ∉ (← get).onCycle then
          let _ ← (s.outcome dep : StateM Pass Outcome)

/-- Evaluates the formula cells below a cell that has not been evaluated. -/
def prepare (s : Sheet) (address : String) : ExceptT Failure (StateM Pass) Unit := do
  if ((← getThe Pass).find? address).isNone then
    let _ ← (s.walk (s.formulas.length + 1) [address] address).run ⟨[address], []⟩

/-- The outcome of the cell at an address in any case. -/
def result (s : Sheet) (address : String) : ExceptT Failure (StateM Pass) Outcome := do
  let address := Text.upper address
  s.prepare address
  (s.outcome address : StateM Pass Outcome)

end Sheet

end Worksheet
