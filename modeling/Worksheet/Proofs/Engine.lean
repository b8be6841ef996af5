import Worksheet.Proofs.Books

/-!
# Evaluation with books

The computation of an outcome, one step at a time, with all the books that a pass keeps.  It goes as
the machine does: each step of it is a step of the machine that has no books, and after each step the
books agree with the formulas that are being evaluated.
-/

namespace Worksheet

open Formula Dialogue Relation

/-- The state of a search and of the evaluations that it starts, with all books.  The path and the
frames have the innermost cell first. -/
structure Engine where
  path : List Branch
  walk : Sheet.Walk
  /-- The formulas that are being evaluated. -/
  frames : List Activation
  books : Books
  /-- What the computation as a whole has failed with. -/
  failure : Option Failure

namespace Engine

/-- Goes on with the search from a further cell. -/
def descend (s : Sheet) (cell : String) (e : Engine) : Engine :=
  match s.references cell with
  | .ok deps =>
    { e with path := ⟨cell, deps⟩ :: e.path
             walk := { e.walk with visited := cell :: e.walk.visited } }
  | .error cause => { e with failure := some cause }

/-- Looks up a cell, and takes up its formula if that has not been done. -/
def request (s : Sheet) (cell : String) (e : Engine) : Engine :=
  match e.books.look s cell with
  | (.outcome _, books) => { e with books }
  | (.cycle path, books) => { e with books, failure := some (.circular path) }
  | (.formula text, books) =>
    { e with books, frames := ⟨cell, outcomeAt s.setting 0 text⟩ :: e.frames }

/-- Answers one question of the innermost formula, or keeps its outcome.  A formula that asks for a
cell with a formula that has not been evaluated waits, and then it asks again, unless nesting is too
deep: then it gets that for an answer. -/
def advance (s : Sheet) (e : Engine) (cell : String) (outer : List Activation) :
    Dialogue Outcome → Engine
  | .done o => { e with frames := outer, books := (e.books.leave cell).settle cell o }
  | .read a depth next =>
    if a ∉ s.cells.keys then { e with frames := ⟨cell, next (.ok .null)⟩ :: outer }
    else
      match e.books.look s a with
      | (.outcome o, books) => { e with books, frames := ⟨cell, next (readOutcome a o)⟩ :: outer }
      | (.cycle path, books) =>
        { e with books, frames := ⟨cell, next (.error (.circular path))⟩ :: outer }
      | (.formula text, books) =>
        if s.setting.breaksOff depth then
          { e with books := books.breakOff a, frames := ⟨cell, next (.error .tooDeep)⟩ :: outer }
        else { e with books, frames := ⟨a, outcomeAt s.setting depth text⟩ :: e.frames }
  | .drawFraction next =>
    let (x, books) := e.books.draw RandomSource.drawFraction
    { e with books, frames := ⟨cell, next x⟩ :: outer }
  | .drawInteger low high next =>
    let (i, books) := e.books.draw (RandomSource.drawInteger low high)
    { e with books, frames := ⟨cell, next i⟩ :: outer }

/-- Looks at the next reference of the cell at the end of the path.  When there is none, the path
gets shorter and the cell is looked up, unless it looks like part of a cycle and is not the one that
has been asked for. -/
def search (s : Sheet) (e : Engine) (cell : String) (outer : List Branch) : List String → Engine
  | [] =>
    let e := { e with path := outer }
    if outer.isEmpty || cell ∉ e.walk.onCycle then e.request s cell else e
  | dep :: deps =>
    let e := { e with path := ⟨cell, deps⟩ :: outer }
    let cells : List String := e.path.map (·.cell)
    if dep ∈ e.books.cache.map (·.1) then e
    else if dep ∈ cells then
      { e with walk := { e.walk with
                         onCycle := cells.takeWhile (· ≠ dep) ++ dep :: e.walk.onCycle } }
    else if dep ∈ e.walk.visited then e
    else e.descend s dep

/-- The next state; none when the computation has come to its end. -/
def next (s : Sheet) (e : Engine) : Option Engine :=
  match e.failure, e.frames, e.path with
  | some _, _, _ => none
  | none, ⟨cell, dialogue⟩ :: outer, _ => some (e.advance s cell outer dialogue)
  | none, [], ⟨cell, deps⟩ :: outer => some (e.search s cell outer deps)
  | none, [], [] => none

/-- An engine that is asked for the outcome of a cell.  The cells below it come first, unless its
outcome is there or cells are in progress. -/
def start (s : Sheet) (b : Books) (cell : String) : Engine :=
  let e : Engine := ⟨[], ⟨[], []⟩, [], b, none⟩
  if cell ∉ b.cache.map (·.1) ∧ b.inProgress = ∅ ∧ (s.formula? cell).isSome then e.descend s cell
  else e.request s cell

/-- Some steps of an engine. -/
abbrev Runs (s : Sheet) : Engine → Engine → Prop :=
  ReflTransGen fun e e' => e.next s = some e'

/-- An engine after a number of steps, or at its end if that comes before. -/
def after (s : Sheet) : Nat → Engine → Engine
  | 0, e => e
  | n + 1, e =>
    match e.next s with
    | some e' => e'.after s n
    | none => e

/-- What an engine at its end has to tell of the cell that it has been asked for. -/
def Gives (cell : String) (e : Engine) : Except Failure Outcome → Prop
  | .ok o => e.failure = none ∧ e.books.cache.lookup cell = some o
  | .error cause => e.failure = some cause

/-- The machine that an engine is without its books. -/
def toMachine (s : Sheet) (e : Engine) : Machine :=
  ⟨e.path, e.walk, e.frames, e.books.toPass s, e.failure⟩

end Engine

/-! ## Steps -/

/-- A cell that has an outcome is not taken up. -/
theorem Machine.begin_of_outcome? {s : Sheet} {p : Pass} {a : String} {o : Outcome}
    (h : p.outcome? s a = some o) (depth : Nat) {path : List Branch} {w : Sheet.Walk}
    {stack : List Activation} :
    begin s depth a ⟨path, w, stack, p, none⟩ = ⟨path, w, stack, p, none⟩ := by
  rcases Pass.outcome?_eq_some_iff.mp h with hfound | ⟨_, hf, _⟩
  · exact begin_of_find? hfound depth path w stack
  · exact begin_of_formula?_eq_none hf depth _

namespace Engine

open Books

variable {s : Sheet} {e e' : Engine}

/-- The books agree with the formulas that are being evaluated, and the search is among formula
cells. -/
structure Kept (s : Sheet) (e : Engine) : Prop where
  books : Books.Kept s (e.frames.map (·.cell)) e.books
  deps : ∀ branch ∈ e.path, ∀ dep ∈ branch.deps, (s.formula? dep).isSome
  quiet : e.failure.isSome → e.frames = []

/-- Whether an engine has gone on to a further one that is a given machine without its books. -/
structure Follows (s : Sheet) (e e' : Engine) (m : Machine) : Prop where
  kept : Kept s e'
  machine : e'.toMachine s = m
  grows : e.books.Grows e'.books

section

variable {path path' : List Branch} {w w' : Sheet.Walk} {frames frames' : List Activation}
  {b b' : Books} {q : Pass}

theorem follows_of_books (hb : Books.Kept s (frames'.map (·.cell)) b')
    (hdeps : ∀ branch ∈ path', ∀ dep ∈ branch.deps, (s.formula? dep).isSome)
    (hpass : b'.toPass s = q) (hgrows : b.Grows b') :
    Follows s ⟨path, w, frames, b, none⟩ ⟨path', w', frames', b', none⟩
      ⟨path', w', frames', q, none⟩ :=
  ⟨⟨hb, hdeps, fun h => nomatch h⟩, congrArg (Machine.mk path' w' frames' · none) hpass, hgrows⟩

theorem follows_descend (h : Kept s ⟨path, w, [], b, none⟩) (cell : String) :
    Follows s ⟨path', w', frames', b, none⟩ (descend s cell ⟨path, w, [], b, none⟩)
      (Machine.descend s cell ⟨path, w, [], b.toPass s, none⟩) := by
  unfold descend Machine.descend
  cases hdeps : s.references cell with
  | error cause => exact ⟨⟨h.books, h.deps, fun _ => rfl⟩, rfl, .refl b⟩
  | ok deps =>
      refine follows_of_books h.books ?_ rfl (.refl b)
      intro branch hbranch dep hdep
      rcases List.mem_cons.mp hbranch with rfl | hbranch
      · exact (List.mem_filter.mp (Sheet.mem_formulas_of_mem_references hdeps hdep)).2
      · exact h.deps branch hbranch dep hdep

theorem follows_request (h : Kept s ⟨path, w, [], b, none⟩) (cell : String) :
    Follows s ⟨path', w', frames', b, none⟩ (request s cell ⟨path, w, [], b, none⟩)
      (Machine.begin s 0 cell ⟨path, w, [], b.toPass s, none⟩) := by
  have hlooked := h.books.looked cell
  unfold request
  generalize b.look s cell = r at hlooked
  obtain ⟨found, b'⟩ := r
  cases hlooked with
  | @cached o ho =>
      rw [Machine.begin_of_outcome? (h.books.outcome?_toPass ho)]
      exact follows_of_books h.books h.deps rfl (.refl b)
  | cyclic ha => cases ha
  | plain ha hf hkept hgrows hpass hn _ =>
      rw [Machine.begin_of_formula?_eq_none hf]
      exact follows_of_books hkept h.deps hpass hgrows
  | formula ha hf hkept hgrows hpass hn =>
      rw [Machine.begin_of_formula? hn hf]
      exact follows_of_books hkept h.deps hpass hgrows

/-- The innermost formula asks for a cell. -/
theorem follows_read {cell a : String} {depth : Nat}
    {next : Except Failure Value → Dialogue Outcome} {outer : List Activation}
    (h : Kept s ⟨path, w, ⟨cell, .read a depth next⟩ :: outer, b, none⟩) :
    Follows s ⟨path', w', frames', b, none⟩
      (advance s ⟨path, w, ⟨cell, .read a depth next⟩ :: outer, b, none⟩ cell outer
        (.read a depth next))
      (Machine.advance s ⟨path, w, ⟨cell, .read a depth next⟩ :: outer, b.toPass s, none⟩ cell outer
        (.read a depth next)) := by
  have hb : Books.Kept s (cell :: outer.map (·.cell)) b := h.books
  unfold advance Machine.advance
  dsimp only
  by_cases hkey : a ∈ s.cells.keys
  swap
  -- an absent cell is no formula cell, and it holds nothing
  · have hf : s.formula? a = none := by
      cases hf : s.formula? a with
      | none => rfl
      | some text => exact absurd (Sheet.mem_keys_of_formula? hf) hkey
    have ha : a ∉ cell :: outer.map (·.cell) := fun ha => by
      simpa [hf] using hb.formulas a ha
    have hn : (b.toPass s).find? a = none :=
      Option.eq_none_iff_forall_not_mem.mpr fun o ho => by
        simpa [hf] using (hb.find?_toPass.mp ho).2
    have ho : (b.toPass s).outcome? s a = some (.ok .null) :=
      Pass.outcome?_eq_some_iff.mpr
        (.inr ⟨hn, hf, congrArg Except.ok (Cells.get_of_not_mem_keys hkey)⟩)
    rw [if_pos hkey, if_neg ha, ho]
    exact follows_of_books h.books h.deps rfl (.refl b)
  rw [if_neg (not_not_intro hkey)]
  have hlooked := hb.looked a
  generalize b.look s a = r at hlooked
  obtain ⟨found, b'⟩ := r
  cases hlooked with
  | cached ho =>
      have ha : a ∉ cell :: outer.map (·.cell) := fun ha =>
        hb.not_mem_cache ha (mem_cache_of_lookup ho)
      rw [if_neg ha, hb.outcome?_toPass ho]
      exact follows_of_books h.books h.deps rfl (.refl _)
  | cyclic ha hkept hgrows hpass =>
      rw [if_pos ha]
      exact follows_of_books hkept h.deps hpass hgrows
  | plain ha hf hkept hgrows hpass hn _ =>
      rw [if_neg ha, Pass.outcome?_eq_some_iff.mpr (.inr ⟨hn, hf, rfl⟩)]
      exact follows_of_books hkept h.deps hpass hgrows
  | formula ha hf hkept hgrows hpass hn =>
      rw [if_neg ha, Pass.outcome?_eq_none_iff.mpr ⟨hn, _, hf⟩]
      dsimp only
      by_cases hdeep : s.setting.breaksOff depth
      · rw [if_pos hdeep, if_pos hdeep]
        have hlimit := Sheet.limit_ne_none_of_breaksOff hdeep
        exact follows_of_books (hkept.breakOff hlimit) h.deps hpass ⟨hgrows.cache, hgrows.evaluated⟩
      · rw [if_neg hdeep, if_neg hdeep, Machine.begin_of_formula? hn hf]
        exact follows_of_books hkept h.deps hpass hgrows

theorem follows_advance {cell : String} {outer : List Activation} {d : Dialogue Outcome}
    (h : Kept s ⟨path, w, ⟨cell, d⟩ :: outer, b, none⟩) :
    Follows s ⟨path', w', frames', b, none⟩
      (advance s ⟨path, w, ⟨cell, d⟩ :: outer, b, none⟩ cell outer d)
      (Machine.advance s ⟨path, w, ⟨cell, d⟩ :: outer, b.toPass s, none⟩ cell outer d) := by
  have hb : Books.Kept s (cell :: outer.map (·.cell)) b := h.books
  cases d with
  | done o =>
      refine follows_of_books (hb.done o) h.deps (toPass_done hb o) ⟨?_, fun _ _ => rfl⟩
      exact hb.cache_done o ▸ List.prefix_append _ _
  | read a depth next => exact follows_read h
  | drawFraction next =>
      exact follows_of_books (hb.draw RandomSource.drawFraction) h.deps rfl (.of_eq rfl rfl)
  | drawInteger low high next =>
      exact follows_of_books (hb.draw (RandomSource.drawInteger low high)) h.deps rfl (.of_eq rfl rfl)

theorem follows_search {cell : String} {outer : List Branch} {deps : List String}
    (h : Kept s ⟨⟨cell, deps⟩ :: outer, w, [], b, none⟩) :
    Follows s ⟨path', w', frames', b, none⟩
      (search s ⟨⟨cell, deps⟩ :: outer, w, [], b, none⟩ cell outer deps)
      (Machine.search s ⟨⟨cell, deps⟩ :: outer, w, [], b.toPass s, none⟩ cell outer deps) := by
  cases deps with
  | nil =>
      have houter : Kept s ⟨outer, w, [], b, none⟩ :=
        ⟨h.books, fun branch hbranch => h.deps branch (List.mem_cons_of_mem _ hbranch), h.quiet⟩
      unfold search Machine.search
      dsimp only
      by_cases hcell : (outer.isEmpty || decide (cell ∉ w.onCycle)) = true
      · rw [if_pos hcell, if_pos hcell]
        exact follows_request houter cell
      · rw [if_neg hcell, if_neg hcell]
        exact follows_of_books h.books houter.deps rfl (.refl b)
  | cons dep deps =>
      have hdeps : ∀ branch ∈ ⟨cell, deps⟩ :: outer, ∀ dep ∈ branch.deps, (s.formula? dep).isSome := by
        intro branch hbranch dep' hdep
        rcases List.mem_cons.mp hbranch with rfl | hbranch
        · exact h.deps _ List.mem_cons_self dep' (List.mem_cons_of_mem _ hdep)
        · exact h.deps branch (List.mem_cons_of_mem _ hbranch) dep' hdep
      have hf := h.deps _ List.mem_cons_self dep List.mem_cons_self
      unfold search Machine.search
      dsimp only
      by_cases hcache : dep ∈ b.cache.map (·.1)
      · rw [if_pos hcache, if_pos ((h.books.isSome_find?_toPass hf).mpr hcache)]
        exact follows_of_books h.books hdeps rfl (.refl b)
      rw [if_neg hcache, if_neg fun hfound => hcache ((h.books.isSome_find?_toPass hf).mp hfound)]
      by_cases hpath : dep ∈ (⟨cell, deps⟩ :: outer : List Branch).map (·.cell)
      · rw [if_pos hpath, if_pos hpath]
        exact follows_of_books h.books hdeps rfl (.refl b)
      rw [if_neg hpath, if_neg hpath]
      by_cases hvisited : dep ∈ w.visited
      · rw [if_pos hvisited, if_pos hvisited]
        exact follows_of_books h.books hdeps rfl (.refl b)
      rw [if_neg hvisited, if_neg hvisited]
      have hbelow : Kept s ⟨⟨cell, deps⟩ :: outer, w, [], b, none⟩ := ⟨h.books, hdeps, h.quiet⟩
      exact follows_descend hbelow dep

end

/-- **A step of an engine is a step of the machine that it is without its books**, and the books still
agree after it. -/
theorem follows_next (h : Kept s e) (hnext : e.next s = some e') :
    ∃ m, (e.toMachine s).next s = some m ∧ Follows s e e' m := by
  obtain ⟨path, w, frames, b, failure⟩ := e
  cases failure with
  | some cause => cases hnext
  | none =>
  cases frames with
  | cons a outer =>
      obtain rfl := Option.some.inj hnext
      exact ⟨_, rfl, follows_advance h⟩
  | nil =>
      cases path with
      | nil => cases hnext
      | cons branch outer =>
          obtain rfl := Option.some.inj hnext
          exact ⟨_, rfl, follows_search h⟩

/-- An engine is at its end when the machine is. -/
theorem next_eq_none_iff : e.next s = none ↔ (e.toMachine s).next s = none := by
  obtain ⟨path, w, frames, b, failure⟩ := e
  cases failure with
  | some cause => exact ⟨fun _ => rfl, fun _ => rfl⟩
  | none =>
  cases frames with
  | cons a outer => exact ⟨nofun, nofun⟩
  | nil =>
      cases path with
      | nil => exact ⟨fun _ => rfl, fun _ => rfl⟩
      | cons branch outer => exact ⟨nofun, nofun⟩

theorem Follows.trans {e₁ e₂ e₃ : Engine} {m m' : Machine} (h : Follows s e₁ e₂ m)
    (h' : Follows s e₂ e₃ m') : Follows s e₁ e₃ m' :=
  ⟨h'.kept, h'.machine, h.grows.trans h'.grows⟩

/-- Where the machine goes, there goes the engine. -/
theorem exists_runs {m : Machine} (h : Kept s e) (hruns : Machine.Runs s (e.toMachine s) m) :
    ∃ e', Runs s e e' ∧ Follows s e e' m := by
  induction hruns with
  | refl => exact ⟨e, .refl, h, rfl, .refl _⟩
  | @tail m m' _ hnext ih =>
      obtain ⟨e', hruns, hfollows⟩ := ih
      cases he : e'.next s with
      | none =>
          rw [← hfollows.machine, next_eq_none_iff.mp he] at hnext
          cases hnext
      | some e'' =>
          obtain ⟨m'', hm, hstep⟩ := follows_next hfollows.kept he
          rw [hfollows.machine, hnext] at hm
          obtain rfl := Option.some.inj hm
          exact ⟨e'', hruns.tail he, hfollows.trans hstep⟩

/-- An engine that is asked for a cell is the machine that is asked for it. -/
theorem follows_start {b : Books} (h : Books.Kept s [] b) (cell : String) :
    Follows s ⟨[], ⟨[], []⟩, [], b, none⟩ (start s b cell)
      (Machine.start s (b.toPass s) cell) := by
  have hkept : Kept s ⟨[], ⟨[], []⟩, [], b, none⟩ :=
    ⟨h, fun _ hbranch => absurd hbranch List.not_mem_nil, fun _ => rfl⟩
  have hidle : b.inProgress = ∅ := by
    ext a
    simp [h.inProgress]
  unfold start Machine.start
  dsimp only
  cases ho : (b.toPass s).outcome? s cell with
  | some o =>
      have hdone : ¬ (cell ∉ b.cache.map (·.1) ∧ b.inProgress = ∅ ∧ (s.formula? cell).isSome) := by
        rintro ⟨hn, -, hf⟩
        rcases Pass.outcome?_eq_some_iff.mp ho with hfound | ⟨_, hnone, _⟩
        · exact hn (mem_cache_of_lookup (h.find?_toPass.mp hfound).1)
        · simp [hnone] at hf
      rw [if_neg hdone, if_pos Option.isSome_some, ← Machine.begin_of_outcome? ho 0]
      exact follows_request hkept cell
  | none =>
      obtain ⟨hn, text, hf⟩ := Pass.outcome?_eq_none_iff.mp ho
      have hsome : (s.formula? cell).isSome := by simp [hf]
      have hcache : cell ∉ b.cache.map (·.1) := fun hc => by
        simpa [hn] using (h.isSome_find?_toPass hsome).mpr hc
      rw [if_pos ⟨hcache, hidle, hsome⟩, if_neg (by simp)]
      exact follows_descend hkept cell

/-- For a cell with an outcome in the cache nothing is done. -/
theorem start_of_cached {b : Books} {cell : String} {o : Outcome}
    (h : b.cache.lookup cell = some o) : start s b cell = ⟨[], ⟨[], []⟩, [], b, none⟩ := by
  unfold start request
  rw [if_neg fun hc => hc.1 (mem_cache_of_lookup h)]
  unfold look
  rw [h]

/-- A cell without a formula has its value in the cache after it has been looked up. -/
theorem start_of_plain {b : Books} (h : Books.Kept s [] b) {cell : String}
    (hf : s.formula? cell = none) : ∃ b', start s b cell = ⟨[], ⟨[], []⟩, [], b', none⟩ ∧
      b'.cache.lookup cell = some (.ok (s.cells.get cell)) := by
  have hlooked := h.looked cell
  unfold start request
  rw [if_neg fun hc => by simp [hf] at hc]
  generalize b.look s cell = r at hlooked
  obtain ⟨found, b'⟩ := r
  cases hlooked with
  | cached ho => exact ⟨b', rfl, h.plain _ (Pass.mem_of_lookup ho) hf ▸ ho⟩
  | cyclic ha => cases ha
  | plain _ _ _ _ _ _ ho => exact ⟨b', rfl, ho⟩
  | formula _ hf' =>
      rw [hf] at hf'
      cases hf'

/-- All runs to an end come to the same one. -/
theorem eq_of_runs {e₁ e₂ : Engine} (h₁ : Runs s e e₁) (hend₁ : e₁.next s = none)
    (h₂ : Runs s e e₂) (hend₂ : e₂.next s = none) : e₁ = e₂ := by
  have hunique : Relator.RightUnique fun e e' : Engine => e.next s = some e' :=
    fun _ _ _ h h' => Option.some.inj (h.symm.trans h')
  have hstop : ∀ {e e' : Engine}, e.next s = none → Runs s e e' → e = e' := by
    intro e e' hend hruns
    rcases hruns.cases_head with rfl | ⟨_, hnext, _⟩
    · rfl
    · rw [hend] at hnext
      cases hnext
  rcases ReflTransGen.total_of_right_unique hunique h₁ h₂ with hruns | hruns
  · exact hstop hend₁ hruns
  · exact (hstop hend₂ hruns).symm

/-- At the end no formula is being evaluated. -/
theorem Kept.frames_eq_nil (h : Kept s e) (hend : e.next s = none) : e.frames = [] := by
  obtain ⟨path, w, frames, b, failure⟩ := e
  cases failure with
  | some cause => exact h.quiet rfl
  | none =>
  cases frames with
  | nil => rfl
  | cons a outer => cases hend

end Engine

end Worksheet
