import Worksheet.Proofs.Evaluation
import Worksheet.Sheet.Pass

/-!
# What a pass has found

A pass is **accounted for** when everything that it holds is: an outcome either is what the formula
comes to with the outcomes that were there before it, or its cell is on a recorded cycle; and a
recorded cycle is a ring of cells each of which asks for the next one.

In the middle of an evaluation some cells are in progress.  They form a chain of questions, and it
is this chain that makes a ring of the path back to a cell in progress.

A formula that is evaluated within others starts at some level of nesting.  As long as nesting is
not bounded that makes no difference, no cell is out of reach, and the accounts can be given with
the outermost level alone: the pass is **sound** then.
-/

namespace Worksheet

open Formula Dialogue Relation

/-! ## Rings -/

/-- A way from a cell back to itself, on which each cell but the first stands once. -/
structure IsRing (R : String → String → Prop) (path : List String) : Prop where
  chain : path.IsChain R
  closed : ∃ a way, path = a :: way ++ [a] ∧ (a :: way).Nodup

namespace IsRing

variable {R S : String → String → Prop} {path : List String}

theorem mono (h : ∀ a b, R a b → S a b) (hr : IsRing R path) : IsRing S path :=
  ⟨hr.chain.imp h, hr.closed⟩

/-- On a ring every cell leads to every cell. -/
theorem transGen (h : IsRing R path) {a b : String} (ha : a ∈ path) (hb : b ∈ path) :
    TransGen R a b := by
  obtain ⟨hc, c, way, rfl, _⟩ := h
  -- every cell leads to the one at which the ring is closed, and that one to every cell
  have hp := List.isChain_iff_pairwise.mp (hc.imp fun _ _ => TransGen.single)
  have hlast : ∀ x ∈ c :: way, TransGen R x c := fun x hx =>
    (List.pairwise_append.mp hp).2.2 x hx c (List.mem_singleton_self c)
  have hac : TransGen R a c := by
    rcases List.mem_append.mp ha with ha | ha
    · exact hlast a ha
    · rw [List.mem_singleton.mp ha]
      exact hlast c List.mem_cons_self
  rcases List.mem_cons.mp hb with rfl | hb
  · exact hac
  · exact hac.trans ((List.pairwise_cons.mp hp).1 b hb)

/-- Each cell of a ring has the next one after it. -/
theorem exists_next (h : IsRing R path) {a : String} (ha : a ∈ path) : ∃ b ∈ path, R a b := by
  obtain ⟨hc, c, way, rfl, _⟩ := h
  -- the last cell of the path is the first one too, so it has a cell after it as well
  have ha' : a ∈ c :: way := by
    rcases List.mem_append.mp ha with ha | ha
    · exact ha
    · exact List.mem_singleton.mp ha ▸ List.mem_cons_self
  obtain ⟨before, after, he⟩ := List.append_of_mem ha'
  rw [he, List.append_assoc, List.cons_append] at hc ⊢
  cases after with
  | nil =>
      refine ⟨c, by simp, ?_⟩
      exact (List.isChain_cons_cons.mp hc.right_of_append).1
  | cons b after =>
      refine ⟨b, by simp, ?_⟩
      exact (List.isChain_cons_cons.mp hc.right_of_append).1

end IsRing

namespace Sheet

/-- The dialogue of a formula, started at the outermost level. -/
def dialogue (s : Sheet) (text : String) : Dialogue Outcome :=
  outcomeAt s.setting 0 text

/-- What a formula can get when it reads a cell: what the cell holds, what has been computed, that
the cell is on a cycle, or, where nesting is bounded, that it is out of reach. -/
inductive Answers (s : Sheet) (results : List (String × Outcome)) (cycles : List (List String)) :
    Answering where
  | plain {a : String} :
      s.formula? a = none → Answers s results cycles a (.ok (s.cells.get a))
  | found {a : String} {o : Outcome} :
      results.lookup a = some o → Answers s results cycles a (readOutcome a o)
  | cyclic {a : String} {path : List String} :
      path ∈ cycles → a ∈ path → Answers s results cycles a (.error (.circular path))
  | outOfReach {a : String} :
      s.limit ≠ none → (s.formula? a).isSome → Answers s results cycles a (.error .tooDeep)

/-- A value that a formula gets is the plain value of a cell or has been evaluated before. -/
theorem Answers.of_ok {s : Sheet} {results : List (String × Outcome)}
    {cycles : List (List String)} {a : String} {u : Value}
    (h : s.Answers results cycles a (.ok u)) :
    (s.formula? a = none ∧ u = s.cells.get a) ∨ results.lookup a = some (.ok u) := by
  generalize hr : Except.ok u = r at h
  cases h with
  | plain hf => exact .inl ⟨hf, Except.ok.inj hr⟩
  | @found _ o ho =>
      cases o with
      | ok v =>
          obtain rfl := Except.ok.inj hr
          exact .inr ho
      | error cause => cases hr
  | cyclic _ _ => cases hr
  | outOfReach _ _ => cases hr

/-- Whether the formula of a cell can come to ask for another one. -/
def Reads (s : Sheet) (answers : Answering) (a b : String) : Prop :=
  ∃ text, s.formula? a = some text ∧ (s.dialogue text).Asks answers b

theorem Reads.mono {s : Sheet} {p q : Answering} (h : ∀ a v, p a v → q a v) {a b : String}
    (hr : s.Reads p a b) : s.Reads q a b := by
  obtain ⟨text, hf, ha⟩ := hr
  exact ⟨text, hf, ha.mono h⟩

/-- Whether the formula of a cell can come to ask for another one, at some level of nesting. -/
def Inquires (s : Sheet) (answers : Answering) (a b : String) : Prop :=
  ∃ text depth, s.formula? a = some text ∧ (outcomeAt s.setting depth text).Asks answers b

theorem Inquires.mono {s : Sheet} {p q : Answering} (h : ∀ a v, p a v → q a v) {a b : String}
    (hr : s.Inquires p a b) : s.Inquires q a b := by
  obtain ⟨text, depth, hf, ha⟩ := hr
  exact ⟨text, depth, hf, ha.mono h⟩

theorem Reads.inquires {s : Sheet} {answers : Answering} {a b : String}
    (h : s.Reads answers a b) : s.Inquires answers a b := by
  obtain ⟨text, hf, ha⟩ := h
  exact ⟨text, 0, hf, ha⟩

theorem Inquires.reads {s : Sheet} (hs : s.limit = none) {answers : Answering} {a b : String}
    (h : s.Inquires answers a b) : s.Reads answers a b := by
  obtain ⟨text, depth, hf, ha⟩ := h
  exact ⟨text, hf, ha.of_level_eq (level_outcomeAt hs depth 0 text)⟩

/-- A way from a cell back to itself along which each cell asks for the next one. -/
abbrev Ring (s : Sheet) (answers : Answering) (path : List String) : Prop :=
  IsRing (s.Reads answers) path

/-- Why a cell has an outcome, given the results that were there before. -/
def Justified (s : Sheet) (cycles : List (List String)) (results : List (String × Outcome))
    (a : String) (o : Outcome) : Prop :=
  ∃ text, s.formula? a = some text ∧
    match cycles.find? (a ∈ ·) with
    | some path => o = .error (.circular path)
    | none => (s.dialogue text).Ends (s.Answers results []) o

/-- The same at some level of nesting. -/
def Explained (s : Sheet) (cycles : List (List String)) (results : List (String × Outcome))
    (a : String) (o : Outcome) : Prop :=
  ∃ text depth, s.formula? a = some text ∧
    match cycles.find? (a ∈ ·) with
    | some path => o = .error (.circular path)
    | none => (outcomeAt s.setting depth text).Ends (s.Answers results []) o

theorem Justified.explained {s : Sheet} {cycles : List (List String)}
    {results : List (String × Outcome)} {a : String} {o : Outcome}
    (h : s.Justified cycles results a o) : s.Explained cycles results a o := by
  obtain ⟨text, hf, h⟩ := h
  exact ⟨text, 0, hf, h⟩

theorem Explained.justified {s : Sheet} (hs : s.limit = none) {cycles : List (List String)}
    {results : List (String × Outcome)} {a : String} {o : Outcome}
    (h : s.Explained cycles results a o) : s.Justified cycles results a o := by
  obtain ⟨text, depth, hf, h⟩ := h
  refine ⟨text, hf, ?_⟩
  cases hc : cycles.find? (a ∈ ·) with
  | some path =>
      rw [hc] at h
      exact h
  | none =>
      rw [hc] at h
      exact Ends.of_level_eq (level_outcomeAt hs depth 0 text) h

end Sheet

namespace Pass

/-- What formulas can get from a pass. -/
abbrev Answers (s : Sheet) (p : Pass) : Answering :=
  s.Answers p.results p.cycles

/-- Whether a cell is on a recorded cycle. -/
def Cyclic (p : Pass) (a : String) : Prop :=
  ∃ path ∈ p.cycles, a ∈ path

/-- Everything that a pass holds is accounted for, with some cells in progress. -/
structure Accounted (s : Sheet) (stack : List String) (p : Pass) : Prop where
  distinct : (stack ++ p.results.map (·.1)).Nodup
  /-- The cells in progress ask for one another, the outer for the inner. -/
  asking : stack.IsChain fun inner outer => s.Inquires (p.Answers s) outer inner
  /-- Outcomes are accounted for by the ones before. -/
  explained : ∀ {a o rest}, (a, o) :: rest <:+ p.results → s.Explained p.cycles rest a o
  rings : ∀ path ∈ p.cycles, IsRing (s.Inquires (p.Answers s)) path
  /-- Cells on cycles have been evaluated or are in progress. -/
  members : ∀ a, p.Cyclic a → a ∈ stack ∨ a ∈ p.results.map (·.1)

/-- Everything that a pass holds is accounted for at the outermost level, and nesting is not
bounded. -/
structure Sound (s : Sheet) (stack : List String) (p : Pass) : Prop where
  unlimited : s.limit = none
  distinct : (stack ++ p.results.map (·.1)).Nodup
  /-- The cells in progress ask for one another, the outer for the inner. -/
  asking : stack.IsChain fun inner outer => s.Reads (p.Answers s) outer inner
  /-- Outcomes are accounted for by the ones before. -/
  justified : ∀ {a o rest}, (a, o) :: rest <:+ p.results → s.Justified p.cycles rest a o
  rings : ∀ path ∈ p.cycles, s.Ring (p.Answers s) path
  /-- Cells on cycles have been evaluated or are in progress. -/
  members : ∀ a, p.Cyclic a → a ∈ stack ∨ a ∈ p.results.map (·.1)

theorem Sound.accounted {s : Sheet} {stack : List String} {p : Pass} (h : p.Sound s stack) :
    p.Accounted s stack where
  distinct := h.distinct
  asking := h.asking.imp fun _ _ => Sheet.Reads.inquires
  explained hr := (h.justified hr).explained
  rings path hp := (h.rings path hp).mono fun _ _ => Sheet.Reads.inquires
  members := h.members

theorem Accounted.sound {s : Sheet} (hs : s.limit = none) {stack : List String} {p : Pass}
    (h : p.Accounted s stack) : p.Sound s stack where
  unlimited := hs
  distinct := h.distinct
  asking := h.asking.imp fun _ _ => Sheet.Inquires.reads hs
  justified hr := (h.explained hr).justified hs
  rings path hp := (h.rings path hp).mono fun _ _ => Sheet.Inquires.reads hs
  members := h.members

/-- A pass that goes on keeps what it holds. -/
structure Grows (p q : Pass) : Prop where
  results : p.results <:+ q.results
  cycles : p.cycles <+: q.cycles

theorem Grows.refl (p : Pass) : p.Grows p :=
  ⟨List.suffix_refl _, List.prefix_refl _⟩

theorem Grows.trans {p q r : Pass} (h : p.Grows q) (h' : q.Grows r) : p.Grows r :=
  ⟨h.results.trans h'.results, h.cycles.trans h'.cycles⟩

theorem accounted_start (s : Sheet) (source : RandomSource) :
    (Pass.start source).Accounted s [] where
  distinct := List.nodup_nil
  asking := List.isChain_nil
  explained := by
    intro a o rest h
    exact absurd (List.eq_nil_of_suffix_nil h) (List.cons_ne_nil _ _)
  rings := fun path h => absurd h List.not_mem_nil
  members := by
    rintro a ⟨path, h, _⟩
    exact absurd h List.not_mem_nil

theorem sound_start {s : Sheet} (hs : s.limit = none) (source : RandomSource) :
    (Pass.start source).Sound s [] :=
  (accounted_start s source).sound hs

/-! ## Finding outcomes -/

theorem suffix_of_lookup {β : Type} {l : List (String × β)} {a : String} {b : β}
    (h : l.lookup a = some b) : ∃ rest, (a, b) :: rest <:+ l := by
  obtain ⟨l₁, l₂, rfl, _⟩ := List.lookup_eq_some_iff.mp h
  exact ⟨l₂, List.suffix_append _ _⟩

theorem mem_of_lookup {β : Type} {l : List (String × β)} {a : String} {b : β}
    (h : l.lookup a = some b) : (a, b) ∈ l := by
  obtain ⟨rest, hr⟩ := suffix_of_lookup h
  exact hr.subset List.mem_cons_self

/-- Where keys are distinct, what is found is what is there. -/
theorem lookup_eq_some_iff_mem {β : Type} {l : List (String × β)} (hd : (l.map (·.1)).Nodup)
    {a : String} {b : β} : l.lookup a = some b ↔ (a, b) ∈ l := by
  refine ⟨mem_of_lookup, fun h => ?_⟩
  obtain ⟨l₁, l₂, rfl⟩ := List.append_of_mem h
  refine List.lookup_eq_some_iff.mpr ⟨l₁, l₂, rfl, fun e he => bne_iff_ne.mpr ?_⟩
  rw [List.map_append, List.nodup_append] at hd
  exact (hd.2.2 e.1 (List.mem_map_of_mem he) a List.mem_cons_self).symm

theorem lookup_of_suffix {l l' : List (String × Outcome)} (hd : (l'.map (·.1)).Nodup)
    (hs : l <:+ l') {a : String} {o : Outcome} (h : l.lookup a = some o) :
    l'.lookup a = some o := by
  obtain ⟨t, rfl⟩ := hs
  have ha : a ∈ l.map (·.1) := List.mem_map.mpr ⟨(a, o), mem_of_lookup h, rfl⟩
  rw [List.map_append, List.nodup_append] at hd
  have hn : t.lookup a = none := by
    rw [List.lookup_eq_none_iff]
    intro e he
    exact bne_iff_ne.mpr (hd.2.2 e.1 (List.mem_map.mpr ⟨e, he, rfl⟩) a ha).symm
  rw [List.lookup_append, hn, Option.none_or, h]

theorem Accounted.nodup_results {s : Sheet} {stack : List String} {p : Pass}
    (h : p.Accounted s stack) : (p.results.map (·.1)).Nodup :=
  (List.nodup_append.mp h.distinct).2.1

theorem Accounted.nodup_stack {s : Sheet} {stack : List String} {p : Pass}
    (h : p.Accounted s stack) : stack.Nodup :=
  (List.nodup_append.mp h.distinct).1

theorem find?_cycles_eq_none {p : Pass} {a : String} (hc : ¬ p.Cyclic a) :
    p.cycles.find? (a ∈ ·) = none :=
  List.find?_eq_none.mpr fun path hpath ha => hc ⟨path, hpath, by simpa using ha⟩

namespace Sound

variable {s : Sheet} {stack : List String} {p : Pass}

theorem nodup_results (h : p.Sound s stack) : (p.results.map (·.1)).Nodup :=
  (List.nodup_append.mp h.distinct).2.1

/-- The outcome of a cell on no recorded cycle is what its formula has come to. -/
theorem ends_of_not_cyclic (h : p.Sound s stack) {a : String} {o : Outcome}
    {rest : List (String × Outcome)} (hr : (a, o) :: rest <:+ p.results) (hc : ¬ p.Cyclic a) :
    ∃ text, s.formula? a = some text ∧ (s.dialogue text).Ends (s.Answers rest []) o := by
  obtain ⟨text, hf, he⟩ := h.justified hr
  rw [find?_cycles_eq_none hc] at he
  exact ⟨text, hf, he⟩

end Sound

namespace Accounted

variable {s : Sheet} {stack : List String} {p : Pass} {a : String} {o : Outcome}
  {rest : List (String × Outcome)}

theorem formula_of_find (h : p.Accounted s stack) (ho : p.find? a = some o) :
    ∃ text, s.formula? a = some text := by
  obtain ⟨rest, hr⟩ := suffix_of_lookup ho
  obtain ⟨text, _, hf, _⟩ := h.explained hr
  exact ⟨text, hf⟩

/-- A cell on a recorded cycle has the failure of one that goes through it. -/
theorem error_of_cyclic (h : p.Accounted s stack) (hr : (a, o) :: rest <:+ p.results)
    (hc : p.Cyclic a) : ∃ path ∈ p.cycles, a ∈ path ∧ o = .error (.circular path) := by
  obtain ⟨_, _, _, he⟩ := h.explained hr
  cases hpath : p.cycles.find? (a ∈ ·) with
  | some path =>
      rw [hpath] at he
      exact ⟨path, List.mem_of_find?_eq_some hpath, by simpa using List.find?_some hpath, he⟩
  | none =>
      obtain ⟨path, hmem, ha⟩ := hc
      exact absurd ha (by simpa using List.find?_eq_none.mp hpath path hmem)

/-- The outcome of any other cell is what its formula has come to. -/
theorem ends_of_not_cyclic (h : p.Accounted s stack) (hr : (a, o) :: rest <:+ p.results)
    (hc : ¬ p.Cyclic a) : ∃ text depth, s.formula? a = some text ∧
      (outcomeAt s.setting depth text).Ends (s.Answers rest []) o := by
  obtain ⟨text, depth, hf, he⟩ := h.explained hr
  rw [find?_cycles_eq_none hc] at he
  exact ⟨text, depth, hf, he⟩

/-- Between two calls, each cell on a recorded cycle has failed. -/
theorem find_of_cyclic (h : p.Accounted s []) (hc : p.Cyclic a) :
    ∃ path ∈ p.cycles, a ∈ path ∧ p.find? a = some (.error (.circular path)) := by
  have hk : a ∈ p.results.map (·.1) := (h.members a hc).resolve_left List.not_mem_nil
  cases ho : p.find? a with
  | none =>
      obtain ⟨e, he, hea⟩ := List.mem_map.mp hk
      exact absurd hea.symm (bne_iff_ne.mp (List.lookup_eq_none_iff.mp ho e he))
  | some o =>
      obtain ⟨rest, hr⟩ := suffix_of_lookup ho
      obtain ⟨path, hpath, ha, rfl⟩ := h.error_of_cyclic hr hc
      exact ⟨path, hpath, ha, rfl⟩

end Accounted

/-- Answers stay possible when results and cycles are added. -/
theorem answers_mono {s : Sheet} {l l' : List (String × Outcome)}
    {cycles cycles' : List (List String)}
    (hd : (l'.map (·.1)).Nodup) (hl : l <:+ l') (hc : cycles ⊆ cycles') {a : String}
    {v : Except Failure Value} (hv : s.Answers l cycles a v) : s.Answers l' cycles' a v := by
  cases hv with
  | plain hf => exact .plain hf
  | found ho => exact .found (lookup_of_suffix hd hl ho)
  | cyclic hp ha => exact .cyclic (hc hp) ha
  | outOfReach hs hf => exact .outOfReach hs hf

theorem Grows.answers {s : Sheet} {p q : Pass} (h : p.Grows q)
    (hd : (q.results.map (·.1)).Nodup) {a : String} {v : Except Failure Value}
    (hv : p.Answers s a v) : q.Answers s a v :=
  answers_mono hd h.results h.cycles.subset hv

theorem Grows.cyclic {p q : Pass} (h : p.Grows q) {a : String} (ha : p.Cyclic a) : q.Cyclic a := by
  obtain ⟨path, hp, ha⟩ := ha
  exact ⟨path, h.cycles.subset hp, ha⟩

end Pass

namespace Sheet

/-- What a formula gets that reads a cell while some cells are in progress. -/
def answerWhile (s : Sheet) (stack : List String) (a : String) (depth : Nat) :
    StateM Pass (Except Failure Value) :=
  if h : a ∈ stack then do
    let path := cyclePath stack a
    modify (Pass.recordCycle path)
    return .error (.circular path)
  else do
    if s.outOfReach depth a (← get) then return .error .tooDeep
    readOutcome a <$> s.outcomeOf stack depth a h

/-- Holds the dialogue of a formula while some cells are in progress. -/
def hold (s : Sheet) (stack : List String) (d : Dialogue Outcome) : StateM Pass Outcome :=
  d.run (s.answerWhile stack) (Pass.draw RandomSource.drawFraction)
    fun low high => Pass.draw (RandomSource.drawInteger low high)

theorem outcomeOf_run (s : Sheet) (stack : List String) (depth : Nat) (a : String)
    (fresh : a ∉ stack) (p : Pass) :
    (s.outcomeOf stack depth a fresh).run p =
      match p.find? a, s.formula? a with
      | some o, _ => (o, p)
      | none, none => (.ok (s.cells.get a), p)
      | none, some text =>
        let r := (s.hold (a :: stack) (outcomeAt s.setting depth text)).run p
        Pass.recordOutcome a r.1 r.2 := by
  rw [outcomeOf, StateT.run_bind, StateT.run_get, pure_bind]
  dsimp only
  cases p.find? a with
  | some o => rfl
  | none =>
      cases hf : s.formula? a with
      | none => rfl
      | some text => rfl

theorem answerWhile_of_mem (s : Sheet) {stack : List String} {a : String} (h : a ∈ stack)
    (depth : Nat) (p : Pass) :
    (s.answerWhile stack a depth).run p =
      (.error (.circular (cyclePath stack a)), p.recordCycle (cyclePath stack a)) := by
  rw [answerWhile, dif_pos h]
  rfl

theorem outOfReach_iff {s : Sheet} {depth : Nat} {a : String} {p : Pass} :
    s.outOfReach depth a p ↔
      s.setting.breaksOff depth ∧ p.find? a = none ∧ (s.formula? a).isSome := by
  simp [outOfReach, and_assoc]

theorem limit_ne_none_of_breaksOff {s : Sheet} {depth : Nat} (h : s.setting.breaksOff depth) :
    s.limit ≠ none := by
  intro hs
  rw [Setting.breaksOff, Setting.exceeds_of_unlimited hs] at h
  cases h

theorem answerWhile_of_outOfReach {s : Sheet} {stack : List String} {a : String} (h : a ∉ stack)
    {depth : Nat} {p : Pass} (hr : s.outOfReach depth a p) :
    (s.answerWhile stack a depth).run p = (.error .tooDeep, p) := by
  rw [answerWhile, dif_neg h]
  show StateT.run (if s.outOfReach depth a p then _ else _ : StateM Pass _) p = _
  rw [if_pos hr]
  rfl

theorem answerWhile_of_not_mem {s : Sheet} {stack : List String} {a : String} (h : a ∉ stack)
    {depth : Nat} {p : Pass} (hr : ¬ s.outOfReach depth a p) :
    (s.answerWhile stack a depth).run p =
      (readOutcome a ((s.outcomeOf stack depth a h).run p).1,
        ((s.outcomeOf stack depth a h).run p).2) := by
  rw [answerWhile, dif_neg h]
  show StateT.run (if s.outOfReach depth a p then _ else _ : StateM Pass _) p = _
  rw [if_neg hr]
  rfl

/-! ## Cycles -/

theorem cyclePath_eq {before after : List String} {a : String} (h : a ∉ before) :
    cyclePath (before ++ a :: after) a = a :: before.reverse ++ [a] := by
  have hw : (before ++ a :: after).takeWhile (· ≠ a) = before := by
    rw [List.takeWhile_append_of_pos (fun b hb => by simpa using fun he : b = a => h (he ▸ hb))]
    simp
  rw [cyclePath, hw, List.reverse_append]
  rfl

/-- The path back to a cell in progress is a ring when the innermost cell asks for that cell. -/
theorem isRing_cyclePath {R : String → String → Prop} {stack : List String} {top a : String}
    (hd : (top :: stack).Nodup) (hc : (top :: stack).IsChain fun inner outer => R outer inner)
    (hr : R top a) (ha : a ∈ top :: stack) : IsRing R (cyclePath (top :: stack) a) := by
  obtain ⟨before, after, he, hn⟩ := List.eq_append_cons_of_mem ha
  have hhead : (before ++ [a]).head? = some top := by
    have hh := congrArg List.head? he
    rw [List.head?_cons, List.head?_append] at hh
    rw [List.head?_append, hh]
    rfl
  rw [he] at hd hc ⊢
  rw [cyclePath_eq hn]
  -- the path is read from the outermost cell in, and the stack from the innermost cell out
  have hpre : before ++ [a] <+: before ++ a :: after := ⟨after, by simp⟩
  have hrev : a :: before.reverse = (before ++ [a]).reverse := by simp
  have hway : (before ++ [a]).IsChain fun inner outer => R outer inner := by
    obtain ⟨t, ht⟩ := hpre
    rw [← ht] at hc
    exact hc.left_of_append
  refine ⟨?_, a, before.reverse, rfl, ?_⟩
  · rw [hrev, List.isChain_append, List.isChain_reverse]
    refine ⟨hway, List.isChain_singleton a, ?_⟩
    intro x hx y hy
    rw [List.getLast?_reverse, hhead] at hx
    rw [← Option.some.inj hx, ← Option.some.inj hy]
    exact hr
  · rw [hrev, List.nodup_reverse]
    exact hd.sublist hpre.sublist

theorem mem_cyclePath {stack : List String} {a : String} : a ∈ cyclePath stack a :=
  List.mem_append_right _ (List.mem_singleton_self a)

theorem head_mem_cyclePath {top : String} {stack : List String} {a : String} :
    top ∈ cyclePath (top :: stack) a := by
  unfold cyclePath
  by_cases h : top = a
  · simp [h]
  · simp [h]

theorem mem_of_mem_cyclePath {stack : List String} {a b : String} (ha : a ∈ stack)
    (hb : b ∈ cyclePath stack a) : b ∈ stack := by
  obtain ⟨before, after, rfl, hn⟩ := List.eq_append_cons_of_mem ha
  rw [cyclePath_eq hn] at hb
  simp only [List.cons_append, List.mem_cons, List.mem_append, List.mem_reverse,
    List.not_mem_nil, or_false] at hb
  rcases hb with rfl | hb | rfl
  · exact ha
  · exact List.mem_append_left _ hb
  · exact ha

end Sheet

/-! ## What one step preserves -/

namespace Pass.Accounted

variable {s : Sheet} {stack : List String} {p : Pass}

/-- A cell comes to be in progress. -/
theorem push (h : p.Accounted s stack) {a : String} (fresh : a ∉ stack) (hn : p.find? a = none)
    (hr : ∀ top ∈ stack.head?, s.Inquires (p.Answers s) top a) : p.Accounted s (a :: stack) where
  distinct := by
    rw [List.cons_append, List.nodup_cons, List.mem_append]
    refine ⟨?_, h.distinct⟩
    rintro (hs | hs)
    · exact fresh hs
    · have hl := List.lookup_eq_none_iff.mp hn
      obtain ⟨e, he, hea⟩ := List.mem_map.mp hs
      exact bne_iff_ne.mp (hl e he) hea.symm
  asking := h.asking.cons hr
  explained := h.explained
  rings := h.rings
  members := fun b hb => (h.members b hb).imp (List.mem_cons_of_mem a) id

/-- The source of random numbers is no part of what is accounted for. -/
theorem draw {α : Type} (h : p.Accounted s stack) (x : StateM RandomSource α) :
    ((Pass.draw x).run p).2.Accounted s stack :=
  ⟨h.distinct, h.asking, h.explained, h.rings, h.members⟩

/-- The innermost cell asks for a cell in progress. -/
theorem recordCycle {top a : String} (h : p.Accounted s (top :: stack))
    (hr : s.Inquires (p.Answers s) top a) (ha : a ∈ top :: stack) :
    (p.recordCycle (cyclePath (top :: stack) a)).Accounted s (top :: stack) := by
  have hg : p.Grows (p.recordCycle (cyclePath (top :: stack) a)) :=
    ⟨List.suffix_refl _, List.prefix_append _ _⟩
  have hans : ∀ b v, p.Answers s b v →
      (p.recordCycle (cyclePath (top :: stack) a)).Answers s b v :=
    fun b v => hg.answers h.nodup_results
  have hring := (Sheet.isRing_cyclePath h.nodup_stack h.asking hr ha).mono
    fun _ _ => Sheet.Inquires.mono hans
  refine ⟨h.distinct, h.asking.imp fun _ _ => Sheet.Inquires.mono hans, ?_, ?_, ?_⟩
  · intro b o rest hs
    -- a cell that has been evaluated is not in progress, so the new cycle does not hold it
    have hb : b ∉ cyclePath (top :: stack) a := by
      intro hb
      have hk : b ∈ p.results.map (·.1) :=
        List.mem_map.mpr ⟨(b, o), hs.subset List.mem_cons_self, rfl⟩
      exact (List.nodup_append.mp h.distinct).2.2 b (Sheet.mem_of_mem_cyclePath ha hb) b hk rfl
    obtain ⟨text, depth, hf, hj⟩ := h.explained hs
    refine ⟨text, depth, hf, ?_⟩
    rw [Pass.recordCycle, List.find?_append, List.find?_singleton, if_neg (by simpa using hb),
      Option.or_none]
    exact hj
  · intro path hp
    rcases List.mem_append.mp hp with hp | hp
    · exact (h.rings path hp).mono fun _ _ => Sheet.Inquires.mono hans
    · rw [List.mem_singleton.mp hp]
      exact hring
  · rintro b ⟨path, hp, hb⟩
    rcases List.mem_append.mp hp with hp | hp
    · exact h.members b ⟨path, hp, hb⟩
    · rw [List.mem_singleton.mp hp] at hb
      exact Or.inl (Sheet.mem_of_mem_cyclePath ha hb)

/-- The innermost cell is done.  If no recorded cycle holds it, its formula has to have come to its
outcome from the outcomes that were there. -/
theorem recordOutcome {a text : String} {depth : Nat} {o : Outcome}
    (h : p.Accounted s (a :: stack)) (hf : s.formula? a = some text)
    (he : ¬ p.Cyclic a → (outcomeAt s.setting depth text).Ends (s.Answers p.results []) o) :
    (Pass.recordOutcome a o p).2.Accounted s stack := by
  have hd : ((Pass.recordOutcome a o p).2.results.map (·.1) ++ stack).Nodup := by
    have hp := h.distinct
    rw [List.cons_append, (List.perm_append_comm.cons a).nodup_iff] at hp
    exact hp
  have hg : p.Grows (Pass.recordOutcome a o p).2 :=
    ⟨List.suffix_cons _ _, List.prefix_refl _⟩
  have hans : ∀ b v, p.Answers s b v → (Pass.recordOutcome a o p).2.Answers s b v :=
    fun b v => hg.answers (List.nodup_append.mp hd).1
  refine ⟨(List.perm_append_comm.nodup_iff).mp hd,
    h.asking.tail.imp fun _ _ => Sheet.Inquires.mono hans,
    ?_, fun path hp => (h.rings path hp).mono fun _ _ => Sheet.Inquires.mono hans, ?_⟩
  · intro b o' rest hs
    rcases List.suffix_cons_iff.mp hs with he' | hs
    · injection he' with hb hrest
      injection hb with hb ho
      subst hb; subst ho; subst hrest
      refine ⟨text, depth, hf, ?_⟩
      show match p.cycles.find? (b ∈ ·) with | some path => _ | none => _
      cases hc : p.cycles.find? (b ∈ ·) with
      | some path => rfl
      | none =>
          refine he ?_
          rintro ⟨path, hp, hb⟩
          exact absurd hb (by simpa using List.find?_eq_none.mp hc path hp)
    · exact h.explained hs
  · intro b hb
    rcases h.members b hb with hb | hb
    · rcases List.mem_cons.mp hb with rfl | hb
      · exact Or.inr List.mem_cons_self
      · exact Or.inl hb
    · exact Or.inr (List.mem_cons_of_mem _ hb)

end Pass.Accounted

/-! ## Evaluating a cell -/

/-- What a formula gets from a cell that has been evaluated or holds no formula. -/
def Pass.Holds (s : Sheet) (p : Pass) (a : String) (o : Outcome) : Prop :=
  (s.formula? a = none ∧ o = .ok (s.cells.get a)) ∨ p.find? a = some o

/-- What comes of evaluating a cell: everything is accounted for, the pass has gone on, and it holds
the outcome. -/
structure Pass.Evaluated (s : Sheet) (stack : List String) (p : Pass) (a : String)
    (r : Outcome × Pass) : Prop where
  accounted : r.2.Accounted s stack
  grows : p.Grows r.2
  holds : r.2.Holds s a r.1

namespace Sheet

theorem Answers.of_holds {s : Sheet} {p : Pass} {a : String} {o : Outcome} (h : p.Holds s a o)
    (cycles : List (List String)) : s.Answers p.results cycles a (readOutcome a o) := by
  rcases h with ⟨hf, rfl⟩ | h
  · exact .plain hf
  · exact .found h

/-- **Evaluating a cell keeps a pass accounted for**, whichever cells are in progress.  The
induction is on the cells that are not; within the evaluation of one cell, it is on what is left of
its dialogue, which has been reached by answers that the pass accounts for. -/
theorem outcomeOf_evaluated {s : Sheet} (stack : List String) (depth : Nat) (a : String)
    (fresh : a ∉ stack) : ∀ p : Pass, p.Accounted s stack →
      (∀ top ∈ stack.head?, s.Inquires (p.Answers s) top a) →
      p.Evaluated s stack a ((s.outcomeOf stack depth a fresh).run p) := by
  induction stack, depth, a, fresh using outcomeOf.induct s with
  | case1 stack depth a fresh ih =>
  intro p hp htop
  rw [outcomeOf_run]
  cases hn : p.find? a with
  | some o => exact ⟨hp, Pass.Grows.refl p, .inr hn⟩
  | none =>
  cases hf : s.formula? a with
  | none => exact ⟨hp, Pass.Grows.refl p, .inl ⟨hf, rfl⟩⟩
  | some text =>
  dsimp only
  -- as long as no cycle has been found through the cell, the answers came from outcomes alone
  let I : Dialogue Outcome → Pass → Prop := fun d q =>
    q.Accounted s (a :: stack) ∧ p.Grows q ∧
      Reaches (q.Answers s) (outcomeAt s.setting depth text) d ∧
      (¬ q.Cyclic a → Reaches (s.Answers q.results []) (outcomeAt s.setting depth text) d)
  have hstart : I (outcomeAt s.setting depth text) p :=
    ⟨hp.push fresh hn htop, Pass.Grows.refl p, .refl, fun _ => .refl⟩
  have hend : I (.done ((s.hold (a :: stack) (outcomeAt s.setting depth text)).run p).1)
      ((s.hold (a :: stack) (outcomeAt s.setting depth text)).run p).2 := by
    refine run_induction I ?_ ?_ ?_ _ p hstart
    · rintro b depth' next q ⟨hq, hg, hreach, hplain⟩
      have hr : s.Inquires (q.Answers s) a b := ⟨text, depth, hf, depth', next, hreach⟩
      by_cases hb : b ∈ a :: stack
      -- a cell in progress is asked for: a cycle is found, and the answer is a failure
      · rw [answerWhile_of_mem s hb]
        have hg' : q.Grows (q.recordCycle (cyclePath (a :: stack) b)) :=
          ⟨List.suffix_refl _, List.prefix_append _ _⟩
        have hlast : cyclePath (a :: stack) b ∈ (q.recordCycle (cyclePath (a :: stack) b)).cycles :=
          List.mem_append_right _ (List.mem_singleton_self _)
        refine ⟨hq.recordCycle hr hb, hg.trans hg', ?_, ?_⟩
        · refine Relation.ReflTransGen.tail (hreach.mono fun c v => hg'.answers hq.nodup_results) ?_
          exact .read (.cyclic hlast mem_cyclePath)
        · intro hc
          exact absurd ⟨_, hlast, head_mem_cyclePath⟩ hc
      by_cases hout : s.outOfReach depth' b q
      -- a cell out of reach answers with a failure, and the pass stays as it is
      · rw [answerWhile_of_outOfReach hb hout]
        obtain ⟨hdeep, _, hformula⟩ := outOfReach_iff.mp hout
        have hs := limit_ne_none_of_breaksOff hdeep
        exact ⟨hq, hg, hreach.tail (.read (.outOfReach hs hformula)),
          fun hc => (hplain hc).tail (.read (.outOfReach hs hformula))⟩
      -- any other cell is evaluated first, which the induction hypothesis is for
      · rw [answerWhile_of_not_mem hb hout]
        have hev := ih text hf b depth' hb q hq fun top ht => Option.some.inj ht ▸ hr
        refine ⟨hev.accounted, hg.trans hev.grows, ?_, ?_⟩
        · refine Relation.ReflTransGen.tail
            (hreach.mono fun c v => hev.grows.answers hev.accounted.nodup_results) ?_
          exact .read (Answers.of_holds hev.holds _)
        · intro hc
          refine Relation.ReflTransGen.tail
            ((hplain fun h => hc (hev.grows.cyclic h)).mono fun c v =>
              Pass.answers_mono hev.accounted.nodup_results hev.grows.results
                (List.Subset.refl _)) ?_
          exact .read (Answers.of_holds hev.holds _)
    · rintro next q ⟨hq, hg, hreach, hplain⟩
      exact ⟨hq.draw _, ⟨hg.results, hg.cycles⟩, hreach.tail (.fraction _),
        fun hc => (hplain hc).tail (.fraction _)⟩
    · rintro low high next q ⟨hq, hg, hreach, hplain⟩
      exact ⟨hq.draw _, ⟨hg.results, hg.cycles⟩, hreach.tail (.integer _),
        fun hc => (hplain hc).tail (.integer _)⟩
  obtain ⟨hq, hg, _, hplain⟩ := hend
  refine ⟨hq.recordOutcome hf hplain, ?_, .inr ?_⟩
  · exact hg.trans ⟨List.suffix_cons _ _, List.prefix_refl _⟩
  · exact List.lookup_cons_self

/-- The same with no other cell in progress. -/
theorem outcome_evaluated (s : Sheet) (a : String) {p : Pass} (hp : p.Accounted s []) :
    p.Evaluated s [] a ((s.outcome a).run p) :=
  outcomeOf_evaluated [] 0 a List.not_mem_nil p hp nofun

end Sheet

end Worksheet
