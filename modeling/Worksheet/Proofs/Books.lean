import Worksheet.Proofs.Edits
import Worksheet.Proofs.InProgress

/-!
# The books of a pass

A pass keeps more than the outcomes of formulas.  Its cache has an entry for every cell that has been
looked up, with a formula or without one; the cells in progress are kept twice, as a set and as a
stack; and so are the cells on cycles, in the cycles themselves and as a set.  Each of these books is
written by itself, on its own occasion.  Each time a formula is taken up that is put on record, and
so it is when one is put down again because nesting is too deep for it.

Here it is shown, for one entry at a time, that the books go on to agree with one another and with
the cells in progress.
-/

namespace Worksheet

open Formula Dialogue Relation

/-- What a pass keeps. -/
structure Books where
  /-- The outcomes of cells, oldest first. -/
  cache : List (String × Outcome)
  inProgress : Finset String
  /-- The cells in progress, outermost first. -/
  stack : List String
  /-- The cells on cycles. -/
  members : Finset String
  cycles : List (List String)
  source : RandomSource
  /-- The cells whose formulas have been taken up, in order.  One that is taken up again stands there
  again. -/
  evaluated : List String
  /-- The cells whose formulas have been put down before anything of them was looked at, in order. -/
  brokenOff : List String

/-- What comes of looking up a cell. -/
inductive Found where
  | outcome (o : Outcome)
  /-- The cell is in progress. -/
  | cycle (path : List String)
  /-- The formula has to be evaluated first. -/
  | formula (text : String)

namespace Books

/-- Books in which nothing has been written. -/
def start (source : RandomSource) : Books :=
  ⟨[], ∅, [], ∅, [], source, [], []⟩

/-- Puts an outcome in the cache: in the place of the one that is there, or at the end. -/
def store (a : String) (o : Outcome) (b : Books) : Books :=
  { b with cache := if a ∈ b.cache.map (·.1) then
      b.cache.map fun e => if e.1 = a then (a, o) else e
    else b.cache ++ [(a, o)] }

/-- Takes up the formula of a cell. -/
def enter (a : String) (b : Books) : Books :=
  { b with inProgress := insert a b.inProgress
           stack := b.stack ++ [a]
           evaluated := b.evaluated ++ [a] }

/-- Puts down the formula of a cell.  The stack gets shorter only if the cell is the last one on
it. -/
def leave (a : String) (b : Books) : Books :=
  { b with inProgress := b.inProgress.erase a
           stack := if b.stack.getLast? = some a then b.stack.dropLast else b.stack }

/-- Puts down the formula of a cell without an outcome. -/
def breakOff (a : String) (b : Books) : Books :=
  { b.leave a with brokenOff := b.brokenOff ++ [a] }

/-- The outcome of a cell whose formula has come to one.  If the cell is on a cycle, that is its
outcome. -/
def verdict (a : String) (o : Outcome) (b : Books) : Outcome :=
  if a ∈ b.members then .error (.circular ((b.cycles.find? (a ∈ ·)).getD [])) else o

/-- Keeps the outcome of a formula. -/
def settle (a : String) (o : Outcome) (b : Books) : Books :=
  b.store a (b.verdict a o)

/-- Looks up a cell. -/
def look (s : Sheet) (a : String) (b : Books) : Found × Books :=
  match b.cache.lookup a with
  | some o => (.outcome o, b)
  | none =>
    if a ∈ b.inProgress then
      let path := b.stack.drop (b.stack.idxOf a) ++ [a]
      (.cycle path, { b with cycles := b.cycles ++ [path], members := b.members ∪ path.toFinset })
    else
      match s.formula? a with
      | none => (.outcome (.ok (s.cells.get a)), b.store a (.ok (s.cells.get a)))
      | some text => (.formula text, b.enter a)

/-- Uses the random source. -/
def draw {α : Type} (x : StateM RandomSource α) (b : Books) : α × Books :=
  let (a, source) := x.run b.source
  (a, { b with source })

/-- The pass that is in the books: the outcomes of formulas, the cycles and the random source. -/
def toPass (s : Sheet) (b : Books) : Pass where
  results := (b.cache.filter fun e => (s.formula? e.1).isSome).reverse
  cycles := b.cycles
  source := b.source

end Books

/-! ## Books that agree -/

namespace Books

/-- The formula cells that have an outcome in the cache. -/
def completed (s : Sheet) (b : Books) : List String :=
  (b.cache.map (·.1)).filter fun a => (s.formula? a).isSome

variable {s : Sheet} {cells : List String} {b b' : Books} {a : String} {o : Outcome}

/-- The books agree with the cells in progress, innermost first, and with one another.  Each time a
formula was taken up it has been broken off, is in progress or has come to its outcome. -/
structure Kept (s : Sheet) (cells : List String) (b : Books) : Prop where
  stack : b.stack = cells.reverse
  inProgress : ∀ a, a ∈ b.inProgress ↔ a ∈ cells
  distinct : (cells ++ b.cache.map (·.1)).Nodup
  members : ∀ a, a ∈ b.members ↔ ∃ path ∈ b.cycles, a ∈ path
  plain : ∀ e ∈ b.cache, s.formula? e.1 = none → e.2 = .ok (s.cells.get e.1)
  formulas : ∀ a ∈ cells, (s.formula? a).isSome
  evaluated : b.evaluated.Perm (b.brokenOff ++ (cells ++ b.completed s))
  unbroken : s.limit = none → b.brokenOff = []

/-- Books that have been written on.  No formula has been taken up for a cell with an outcome in the
cache. -/
structure Grows (b b' : Books) : Prop where
  cache : b.cache <+: b'.cache
  evaluated : ∀ a ∈ b.cache.map (·.1), b'.evaluated.count a = b.evaluated.count a

theorem Grows.of_eq (hcache : b'.cache = b.cache) (hevaluated : b'.evaluated = b.evaluated) :
    b.Grows b' :=
  ⟨hcache ▸ List.prefix_rfl, fun _ _ => hevaluated ▸ rfl⟩

theorem Grows.mem_cache (h : b.Grows b') (ha : a ∈ b.cache.map (·.1)) : a ∈ b'.cache.map (·.1) :=
  (h.cache.map _).subset ha

theorem Grows.refl (b : Books) : b.Grows b :=
  .of_eq rfl rfl

theorem Grows.trans {b₁ b₂ b₃ : Books} (h : b₁.Grows b₂) (h' : b₂.Grows b₃) : b₁.Grows b₃ :=
  ⟨h.cache.trans h'.cache, fun a ha =>
    (h'.evaluated a (h.mem_cache ha)).trans (h.evaluated a ha)⟩

theorem mem_cache_of_lookup (h : b.cache.lookup a = some o) : a ∈ b.cache.map (·.1) :=
  List.mem_map.mpr ⟨(a, o), Pass.mem_of_lookup h, rfl⟩

theorem lookup_eq_none_iff : b.cache.lookup a = none ↔ a ∉ b.cache.map (·.1) := by
  rw [List.lookup_eq_none_iff, List.mem_map]
  constructor
  · rintro h ⟨e, he, rfl⟩
    exact bne_iff_ne.mp (h e he) rfl
  · exact fun h e he => bne_iff_ne.mpr fun heq => h ⟨e, he, heq.symm⟩

theorem store_of_not_mem (h : a ∉ b.cache.map (·.1)) (o : Outcome) :
    b.store a o = { b with cache := b.cache ++ [(a, o)] } := by
  unfold store
  rw [if_neg h]

theorem completed_append (hcache : b'.cache = b.cache ++ [(a, o)]) (hf : (s.formula? a).isSome) :
    b'.completed s = b.completed s ++ [a] := by
  simp [completed, hcache, hf]

theorem completed_append_of_plain (hcache : b'.cache = b.cache ++ [(a, o)])
    (hf : s.formula? a = none) : b'.completed s = b.completed s := by
  simp [completed, hcache, hf]

namespace Kept

theorem nodup_keys (h : Kept s cells b) : (b.cache.map (·.1)).Nodup :=
  (List.nodup_append.mp h.distinct).2.1

theorem not_mem_cache (h : Kept s cells b) (ha : a ∈ cells) : a ∉ b.cache.map (·.1) :=
  fun hc => (List.nodup_append.mp h.distinct).2.2 a ha a hc rfl

/-- The end of the stack from a cell in progress on is the path back to it. -/
theorem drop_stack (h : Kept s cells b) (ha : a ∈ cells) :
    b.stack.drop (b.stack.idxOf a) ++ [a] = cyclePath cells a := by
  obtain ⟨before, after, rfl, hn⟩ := List.eq_append_cons_of_mem ha
  -- the cell is in progress once, so its first place on the stack is its only one
  have hafter : a ∉ after.reverse := by
    have hd := (List.nodup_append.mp h.distinct).1
    rw [List.nodup_append] at hd
    simpa using (List.nodup_cons.mp hd.2.1).1
  have hstack : b.stack = after.reverse ++ a :: before.reverse := by
    rw [h.stack, List.reverse_append, List.reverse_cons, List.append_assoc]
    rfl
  have hidx : b.stack.idxOf a = after.reverse.length := by
    rw [hstack, List.idxOf_append_of_notMem hafter, List.idxOf_cons_self, Nat.add_zero]
  rw [Sheet.cyclePath_eq hn, hidx, hstack, List.drop_left]

/-- What is kept when one more formula is taken up. -/
theorem enter (h : Kept s cells b) (ha : a ∉ cells) (hn : a ∉ b.cache.map (·.1))
    (hf : (s.formula? a).isSome) : Kept s (a :: cells) (b.enter a) where
  stack := by simp [Books.enter, h.stack]
  inProgress c := by simp [Books.enter, h.inProgress]
  distinct := List.nodup_cons.mpr
    ⟨fun hm => (List.mem_append.mp hm).elim ha hn, h.distinct⟩
  members := h.members
  plain := h.plain
  formulas := by
    intro c hc
    rcases List.mem_cons.mp hc with rfl | hc
    · exact hf
    · exact h.formulas c hc
  evaluated := by
    refine List.perm_iff_count.mpr fun c => ?_
    have hlog := h.evaluated.count_eq c
    simp only [Books.enter, completed, List.count_append, List.count_cons, List.count_nil] at hlog ⊢
    omega
  unbroken := h.unbroken

/-- What is kept when the value of a cell without a formula goes to the cache. -/
theorem store_plain (h : Kept s cells b) (hn : a ∉ b.cache.map (·.1)) (hf : s.formula? a = none) :
    Kept s cells (b.store a (.ok (s.cells.get a))) := by
  rw [store_of_not_mem hn]
  have ha : a ∉ cells := fun ha => by simpa [hf] using h.formulas a ha
  exact {
    stack := h.stack
    inProgress := h.inProgress
    distinct := by
      rw [List.map_append, ← List.append_assoc, List.nodup_append]
      refine ⟨h.distinct, List.nodup_singleton _, ?_⟩
      rintro c hc _ hc' rfl
      obtain rfl := List.mem_singleton.mp hc'
      exact (List.mem_append.mp hc).elim ha hn
    members := h.members
    plain := by
      intro e he hfe
      rcases List.mem_append.mp he with he | he
      · exact h.plain e he hfe
      · obtain rfl := List.mem_singleton.mp he
        rfl
    formulas := h.formulas
    evaluated := by
      rw [completed_append_of_plain rfl hf]
      exact h.evaluated
    unbroken := h.unbroken }

/-- What is kept when a cycle is found. -/
theorem record (h : Kept s cells b) (path : List String) :
    Kept s cells
      { b with cycles := b.cycles ++ [path], members := b.members ∪ path.toFinset } where
  stack := h.stack
  inProgress := h.inProgress
  distinct := h.distinct
  members a := by
    simp only [Finset.mem_union, List.mem_toFinset, h.members, List.mem_append, List.mem_cons,
      List.not_mem_nil, or_false]
    grind
  plain := h.plain
  formulas := h.formulas
  evaluated := h.evaluated
  unbroken := h.unbroken

theorem draw {α : Type} (x : StateM RandomSource α) (h : Kept s cells b) :
    Kept s cells (b.draw x).2 :=
  ⟨h.stack, h.inProgress, h.distinct, h.members, h.plain, h.formulas, h.evaluated, h.unbroken⟩

theorem leave_stack (h : Kept s (a :: cells) b) : (b.leave a).stack = cells.reverse := by
  simp [leave, h.stack]

theorem mem_inProgress_leave (h : Kept s (a :: cells) b) (c : String) :
    c ∈ (b.leave a).inProgress ↔ c ∈ cells := by
  have ha := (List.nodup_cons.mp (List.nodup_append.mp h.distinct).1).1
  have hc := h.inProgress c
  rw [List.mem_cons] at hc
  simp only [leave, Finset.mem_erase]
  grind

/-- What is kept when nesting is too deep for the formula that has been taken up last. -/
theorem breakOff (h : Kept s (a :: cells) b) (hs : s.limit ≠ none) :
    Kept s cells (b.breakOff a) where
  stack := h.leave_stack
  inProgress := h.mem_inProgress_leave
  distinct := (List.nodup_cons.mp h.distinct).2
  members := h.members
  plain := h.plain
  formulas := fun c hc => h.formulas c (List.mem_cons_of_mem _ hc)
  evaluated := by
    show b.evaluated.Perm ((b.brokenOff ++ [a]) ++ (cells ++ b.completed s))
    rw [List.append_assoc]
    exact h.evaluated
  unbroken := fun hnone => absurd hnone hs

/-- The outcome of a formula goes to the end of the cache. -/
theorem settle_leave (h : Kept s (a :: cells) b) (o : Outcome) : (b.leave a).settle a o =
    { b.leave a with cache := b.cache ++ [(a, b.verdict a o)] } :=
  store_of_not_mem (b := b.leave a) (h.not_mem_cache List.mem_cons_self) _

/-- What is kept when a formula has come to its outcome. -/
theorem done (h : Kept s (a :: cells) b) (o : Outcome) :
    Kept s cells ((b.leave a).settle a o) := by
  rw [h.settle_leave]
  have hf := h.formulas a List.mem_cons_self
  exact {
    stack := h.leave_stack
    inProgress := h.mem_inProgress_leave
    distinct := by
      rw [List.map_append, ← List.append_assoc]
      exact (List.perm_append_comm.nodup_iff).mpr h.distinct
    members := h.members
    plain := by
      intro e he hfe
      rcases List.mem_append.mp he with he | he
      · exact h.plain e he hfe
      · obtain rfl := List.mem_singleton.mp he
        simp [hfe] at hf
    formulas := fun c hc => h.formulas c (List.mem_cons_of_mem _ hc)
    evaluated := by
      have hcompleted : completed s { b.leave a with cache := b.cache ++ [(a, b.verdict a o)] } =
          b.completed s ++ [a] := completed_append rfl hf
      rw [hcompleted, ← List.append_assoc cells]
      exact h.evaluated.trans (.append_left _ (List.perm_append_singleton a _).symm)
    unbroken := h.unbroken }

end Kept

/-! ## The pass in the books -/

theorem toPass_store_plain (hn : a ∉ b.cache.map (·.1)) (hf : s.formula? a = none) (o : Outcome) :
    (b.store a o).toPass s = b.toPass s := by
  rw [store_of_not_mem hn]
  unfold toPass
  rw [List.filter_append, List.filter_cons_of_neg (by simp [hf]), List.filter_nil,
    List.append_nil]

/-- The outcome is the same by the set of cells on cycles as by the cycles. -/
theorem Kept.verdict_eq (h : Kept s cells b) (a : String) (o : Outcome) :
    b.verdict a o = (Pass.recordOutcome a o (b.toPass s)).1 := by
  unfold verdict Pass.recordOutcome toPass
  dsimp only
  cases hc : b.cycles.find? (a ∈ ·) with
  | some path =>
      have ha : a ∈ path := by simpa using List.find?_some hc
      rw [if_pos ((h.members a).mpr ⟨path, List.mem_of_find?_eq_some hc, ha⟩)]
      rfl
  | none =>
      refine if_neg fun hmem => ?_
      obtain ⟨path, hpath, ha⟩ := (h.members a).mp hmem
      exact absurd ha (by simpa using List.find?_eq_none.mp hc path hpath)

theorem Kept.cache_done (h : Kept s (a :: cells) b) (o : Outcome) :
    ((b.leave a).settle a o).cache = b.cache ++ [(a, b.verdict a o)] := by
  rw [h.settle_leave]

theorem toPass_done (h : Kept s (a :: cells) b) (o : Outcome) :
    ((b.leave a).settle a o).toPass s = (Pass.recordOutcome a o (b.toPass s)).2 := by
  have hf := h.formulas a List.mem_cons_self
  have hfilter : (b.cache ++ [(a, b.verdict a o)]).filter (fun e => (s.formula? e.1).isSome) =
      b.cache.filter (fun e => (s.formula? e.1).isSome) ++ [(a, b.verdict a o)] := by
    rw [List.filter_append]
    simp [hf]
  have hpass : ((b.leave a).settle a o).toPass s =
      { b.toPass s with results := (a, b.verdict a o) :: (b.toPass s).results } := by
    rw [h.settle_leave]
    unfold toPass
    dsimp only
    rw [hfilter, List.reverse_append]
    rfl
  rw [hpass, h.verdict_eq]
  rfl

/-- The pass has found the outcomes of the formula cells in the cache. -/
theorem Kept.find?_toPass (h : Kept s cells b) : (b.toPass s).find? a = some o ↔
    b.cache.lookup a = some o ∧ (s.formula? a).isSome := by
  have hd : ((b.toPass s).results.map (·.1)).Nodup := by
    show (((b.cache.filter _).reverse).map (·.1)).Nodup
    rw [List.map_reverse, List.nodup_reverse]
    exact (List.filter_sublist.map _).nodup h.nodup_keys
  unfold Pass.find?
  rw [Pass.lookup_eq_some_iff_mem hd, Pass.lookup_eq_some_iff_mem h.nodup_keys]
  simp [toPass]

theorem Kept.find?_toPass_eq_none (h : Kept s cells b) (ha : a ∉ b.cache.map (·.1)) :
    (b.toPass s).find? a = none := by
  refine Option.eq_none_iff_forall_not_mem.mpr fun o ho => ?_
  exact ha (mem_cache_of_lookup (h.find?_toPass.mp ho).1)

theorem Kept.isSome_find?_toPass (h : Kept s cells b) (hf : (s.formula? a).isSome) :
    ((b.toPass s).find? a).isSome ↔ a ∈ b.cache.map (·.1) := by
  constructor
  · intro hfound
    obtain ⟨o, ho⟩ := Option.isSome_iff_exists.mp hfound
    exact mem_cache_of_lookup (h.find?_toPass.mp ho).1
  · intro ha
    obtain ⟨o, ho⟩ := Option.ne_none_iff_exists'.mp fun hn => lookup_eq_none_iff.mp hn ha
    rw [h.find?_toPass.mpr ⟨ho, hf⟩]
    rfl

/-- An outcome in the cache is the one that the pass knows for the cell. -/
theorem Kept.outcome?_toPass (h : Kept s cells b) (ho : b.cache.lookup a = some o) :
    (b.toPass s).outcome? s a = some o := by
  rw [Pass.outcome?_eq_some_iff]
  cases hf : s.formula? a with
  | some text => exact .inl (h.find?_toPass.mpr ⟨ho, by simp [hf]⟩)
  | none =>
      refine .inr ⟨Option.eq_none_iff_forall_not_mem.mpr fun o ho => ?_, rfl, ?_⟩
      · simpa [hf] using (h.find?_toPass.mp ho).2
      · exact (h.plain _ (Pass.mem_of_lookup ho) hf).symm

/-! ## Looking up a cell -/

/-- What can come of looking up a cell. -/
inductive Looked (s : Sheet) (cells : List String) (b : Books) (a : String) :
    Found → Books → Prop where
  | cached {o : Outcome} : b.cache.lookup a = some o → Looked s cells b a (.outcome o) b
  | cyclic {b' : Books} :
      a ∈ cells → Kept s cells b' → b.Grows b' →
      b'.toPass s = (b.toPass s).recordCycle (cyclePath cells a) →
      Looked s cells b a (.cycle (cyclePath cells a)) b'
  | plain {b' : Books} :
      a ∉ cells → s.formula? a = none → Kept s cells b' → b.Grows b' →
      b'.toPass s = b.toPass s → (b.toPass s).find? a = none →
      b'.cache.lookup a = some (.ok (s.cells.get a)) →
      Looked s cells b a (.outcome (.ok (s.cells.get a))) b'
  | formula {text : String} {b' : Books} :
      a ∉ cells → s.formula? a = some text → Kept s (a :: cells) b' → b.Grows b' →
      b'.toPass s = b.toPass s → (b.toPass s).find? a = none →
      Looked s cells b a (.formula text) b'

theorem Kept.looked (h : Kept s cells b) (a : String) :
    Looked s cells b a (b.look s a).1 (b.look s a).2 := by
  unfold look
  cases ho : b.cache.lookup a with
  | some o => exact .cached ho
  | none =>
  have hn := lookup_eq_none_iff.mp ho
  dsimp only
  by_cases ha : a ∈ b.inProgress
  · have ha' := (h.inProgress a).mp ha
    rw [if_pos ha, h.drop_stack ha']
    exact .cyclic ha' (h.record _) (.of_eq rfl rfl) rfl
  rw [if_neg ha]
  have ha' : a ∉ cells := fun hc => ha ((h.inProgress a).mpr hc)
  cases hf : s.formula? a with
  | none =>
      refine .plain ha' hf (h.store_plain hn hf) ?_ (toPass_store_plain hn hf _)
        (h.find?_toPass_eq_none hn) ?_
      · rw [store_of_not_mem hn]
        exact ⟨List.prefix_append _ _, fun _ _ => rfl⟩
      · rw [store_of_not_mem hn, List.lookup_append, ho, List.lookup_cons_self]
        rfl
  | some text =>
      refine .formula ha' hf (h.enter ha' hn (by simp [hf])) ⟨List.prefix_rfl, fun c hc => ?_⟩
        rfl (h.find?_toPass_eq_none hn)
      have hne : a ≠ c := fun heq => hn (heq ▸ hc)
      simp [Books.enter, hne]

end Books

end Worksheet
