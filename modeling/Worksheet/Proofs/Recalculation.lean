import Worksheet.Proofs.Order
import Worksheet.Proofs.Totality
import Worksheet.Sheet.Recalculation

/-!
# What a recalculation tells

The events of a recalculation are put together after all cells have been evaluated: from the paths
that the pass has recorded, and from the failures among its outcomes.  By then the pass holds an
outcome of each formula cell, so who asks for a cell afterwards is given what the events say.
-/

namespace Worksheet

open Formula (Outcome)

/-! ## What is found in the context of an event -/

namespace Log

theorem lookup_truncateContext (key : List CodePoint) (context : Context) :
    (truncateContext context).lookup key = (context.lookup key).map truncate := by
  induction context with
  | nil => rfl
  | cons e rest ih =>
      obtain ⟨k, v⟩ := e
      rw [truncateContext, List.lookup_cons, List.lookup_cons]
      cases key == k with
      | true => rfl
      | false => exact ih

theorem lookup_put_self (key : List CodePoint) (v : Json) (context : Context) :
    (Json.put key v context).lookup key = some v := by
  induction context with
  | nil => exact List.lookup_cons_self
  | cons e rest ih =>
      obtain ⟨k, w⟩ := e
      rw [Json.put]
      by_cases hk : k = key
      · rw [if_pos hk, hk]
        exact List.lookup_cons_self
      · rw [if_neg hk, List.lookup_cons, beq_false_of_ne (Ne.symm hk)]
        exact ih

/-- The value under a key in the context of an event. -/
def Event.about? (e : Event) (key : String) : Option Json :=
  e.context.lookup (CodePoint.ofString key)

/-- Whether an event is about a cycle, and has the cells on it. -/
structure Event.TellsCycle (path : List String) (e : Event) : Prop where
  topic : e.topic = .cycleDetected
  cells : e.about? "cycle_path" = some (.array (path.map Json.ofString))
  kind : e.errorCode = some (CodePoint.ofString FailureKind.circular.name)
  message : e.message = CodePoint.ofString (Failure.cycleText path)

/-- Whether an event is about the failure of a cell, and has its address, as far as texts are
logged, and the kind and the message of the failure. -/
structure Event.TellsFailure (failed : String × Failure) (e : Event) : Prop where
  topic : e.topic = .cellError
  address : e.about? "addr" = some (truncate (.ofString failed.1))
  kind : e.errorCode = some (CodePoint.ofString failed.2.kind.name)
  message : e.message = CodePoint.ofString failed.2.message

/-- Whether an event says that a recalculation is complete, and how many cells and how many failed
ones there are. -/
structure Event.TellsCompletion (cells failed : Nat) (e : Event) : Prop where
  topic : e.topic = .recalcCompleted
  cells : e.about? "cells" = some (.ofInt cells)
  failed : e.about? "errors" = some (.ofInt failed)

end Log

namespace Session

open Log

theorem tellsCycle (path : List String) : (cycleEvent path).truncated.TellsCycle path where
  topic := rfl
  cells := by
    show (truncateContext (Json.put (CodePoint.ofString "cycle_path")
      (.array (path.map Json.ofString)) _)).lookup (CodePoint.ofString "cycle_path") = _
    rw [lookup_truncateContext, lookup_put_self]
    rfl
  kind := rfl
  message := rfl

theorem tellsFailure (sheet : Sheet) (failed : String × Failure) :
    (failureEvent sheet failed.1 failed.2).truncated.TellsFailure failed where
  topic := rfl
  address := by
    show (truncateContext (Json.entry "addr" (.ofString failed.1) :: _)).lookup
      (CodePoint.ofString "addr") = _
    rw [lookup_truncateContext]
    exact congrArg (Option.map truncate) List.lookup_cons_self
  kind := rfl
  message := rfl

/-! ## The failures of a session -/

theorem mem_failures {s : Session} {a : String} {cause : Failure} :
    (a, cause) ∈ s.failures ↔ (a, .error cause) ∈ s.pass.results := by
  unfold failures
  rw [List.mem_filterMap]
  constructor
  · rintro ⟨⟨b, o⟩, hmem, he⟩
    cases o with
    | ok v => cases he
    | error cause' =>
        obtain ⟨rfl, rfl⟩ := Prod.mk.inj (Option.some.inj he)
        exact List.mem_reverse.mp hmem
  · exact fun hmem => ⟨_, List.mem_reverse.mpr hmem, rfl⟩

/-- The cells that have failed are some of those with an outcome. -/
theorem sublist_failures (s : Session) :
    (s.failures.map (·.1)).Sublist (s.pass.results.reverse.map (·.1)) := by
  unfold failures
  induction s.pass.results.reverse with
  | nil => exact .slnil
  | cons e rest ih =>
      obtain ⟨a, o⟩ := e
      cases o with
      | ok v => exact ih.cons a
      | error cause => exact ih.cons_cons a

theorem nodup_failures {s : Session} (h : s.pass.Accounted s.sheet []) :
    (s.failures.map (·.1)).Nodup := by
  refine (sublist_failures s).nodup ?_
  rw [List.map_reverse, List.nodup_reverse]
  exact h.nodup_results

/-- The entries of a list under given keys. -/
def entriesAt {β : Type} (l : List (String × β)) (keys : List String) : List (String × β) :=
  keys.filterMap fun a => (l.lookup a).map (a, ·)

theorem keys_entriesAt {β : Type} {l : List (String × β)} {keys : List String}
    (h : ∀ a ∈ keys, a ∈ l.map (·.1)) (hd : (l.map (·.1)).Nodup) :
    (entriesAt l keys).map (·.1) = keys := by
  induction keys with
  | nil => rfl
  | cons a keys ih =>
      obtain ⟨e, he, rfl⟩ := List.mem_map.mp (h a List.mem_cons_self)
      have hfound : l.lookup e.1 = some e.2 := (Pass.lookup_eq_some_iff_mem hd).mpr he
      unfold entriesAt at ih ⊢
      rw [List.filterMap_cons, hfound]
      exact congrArg (e.1 :: ·) (ih fun b hb => h b (List.mem_cons_of_mem _ hb))

theorem mem_entriesAt {β : Type} {l : List (String × β)} {keys : List String}
    (hd : (l.map (·.1)).Nodup) {a : String} {b : β} :
    (a, b) ∈ entriesAt l keys ↔ a ∈ keys ∧ (a, b) ∈ l := by
  unfold entriesAt
  rw [List.mem_filterMap, ← Pass.lookup_eq_some_iff_mem hd]
  constructor
  · rintro ⟨a', ha', he⟩
    obtain ⟨b', hb', he⟩ := Option.map_eq_some_iff.mp he
    obtain ⟨rfl, rfl⟩ := Prod.mk.inj he
    exact ⟨ha', hb'⟩
  · rintro ⟨ha, hb⟩
    exact ⟨a, ha, by rw [hb]; rfl⟩

/-! ## After all cells have been evaluated -/

variable {sheet : Sheet}

/-- All cells of a sheet whose rows can be read are shown, and then the pass holds an outcome of
each. -/
theorem run_shownAll (h : sheet.Legible) {p : Pass} (hp : p.Accounted sheet []) :
    ∃ values q, StateT.run shownAll.run ⟨sheet, p⟩ = (.ok values, ⟨sheet, q⟩) ∧
      q.Accounted sheet [] ∧ values.length = sheet.cells.keys.length ∧
      ∀ a ∈ sheet.cells.keys, ∃ o, q.Holds sheet (Text.upper a) o := by
  obtain ⟨names, hsort⟩ := Address.sortRowMajor_ok h.keys
  have hperm := Address.perm_of_sortRowMajor hsort
  obtain ⟨outcomes, q, hrun, hq, _, hnames, hholds⟩ :=
    Sheet.run_shownEach h.references_ok names p hp
  refine ⟨outcomes.map fun r => (r.1, r.2.shown), q, ?_, hq, ?_, fun a ha => ?_⟩
  · show StateT.run ((liftM (Address.sortRowMajor sheet.cells.keys) : Computation (List String)) >>=
      shownEach).run ⟨sheet, p⟩ = _
    rw [hsort]
    exact hrun
  · rw [List.length_map, ← List.length_map (f := (·.1)), hnames, hperm.length_eq]
  · have ha : a ∈ outcomes.map (·.1) := hnames ▸ hperm.mem_iff.mpr ha
    obtain ⟨r, hr, rfl⟩ := List.mem_map.mp ha
    exact ⟨r.2, hholds r hr⟩

/-- Who asks for a cell of which the pass holds an outcome is given that outcome. -/
theorem result_of_holds (href : ∀ a, ∃ deps, sheet.references a = .ok deps) {q : Pass}
    (hq : q.Accounted sheet []) {name : String} {o : Outcome}
    (h : q.Holds sheet (Text.upper name) o) :
    (StateT.run (result name).run ⟨sheet, q⟩).1 = .ok o := by
  obtain ⟨o', q', hrun, hq', hg, hholds⟩ := Sheet.result_accounted href name hq
  obtain rfl : o' = o := hholds.unique (h.mono hg hq') hq'
  rw [run_result hrun]

/-- Whether these are the cells of a session that fail, row-major and each once, with the failures
that are given to those who ask for them. -/
structure ListsFailed (s : Session) (failed : List (String × Failure)) : Prop where
  distinct : (failed.map (·.1)).Nodup
  ordered : (failed.map (·.1)).Pairwise fun x y =>
    ∃ a b, Address.decode x = .ok a ∧ Address.decode y = .ok b ∧ Address.rowMajorLE a b
  complete : ∀ a cause, (a, cause) ∈ failed ↔
    a ∈ s.sheet.cells.keys ∧ (StateT.run (result a).run s).1 = .ok (.error cause)

/-- The failures among the outcomes of a pass that holds one of each cell are all there are. -/
theorem mem_failures_iff (hcap : sheet.Capital)
    (href : ∀ a, ∃ deps, sheet.references a = .ok deps) {q : Pass} (hq : q.Accounted sheet [])
    (hall : ∀ a ∈ sheet.cells.keys, ∃ o, q.Holds sheet (Text.upper a) o) {a : String}
    {cause : Failure} : (a, cause) ∈ failures ⟨sheet, q⟩ ↔
      a ∈ sheet.cells.keys ∧ (StateT.run (result a).run ⟨sheet, q⟩).1 = .ok (.error cause) := by
  rw [mem_failures, ← Pass.lookup_eq_some_iff_mem hq.nodup_results]
  constructor
  · intro hfound
    obtain ⟨text, hf⟩ := hq.formula_of_find hfound
    have ha : a ∈ sheet.cells.keys := Sheet.mem_keys_of_formula? hf
    exact ⟨ha, result_of_holds href hq (.inr (by rwa [hcap a ha]))⟩
  · rintro ⟨ha, hresult⟩
    obtain ⟨o, ho⟩ := hall a ha
    have he : o = .error cause :=
      Except.ok.inj ((result_of_holds href hq ho).symm.trans hresult)
    subst he
    rw [hcap a ha] at ho
    rcases ho with ⟨_, hplain⟩ | hfound
    · cases hplain
    · exact hfound

theorem listsFailed {q : Pass} (hcap : sheet.Capital)
    (href : ∀ a, ∃ deps, sheet.references a = .ok deps) (hq : q.Accounted sheet [])
    (hall : ∀ a ∈ sheet.cells.keys, ∃ o, q.Holds sheet (Text.upper a) o) {names : List String}
    (hsort : Address.sortRowMajor ((failures ⟨sheet, q⟩).map (·.1)) = .ok names) :
    (entriesAt (failures ⟨sheet, q⟩) names).map (·.1) = names ∧
      ListsFailed ⟨sheet, q⟩ (entriesAt (failures ⟨sheet, q⟩) names) := by
  have hd : ((failures ⟨sheet, q⟩).map (·.1)).Nodup := nodup_failures hq
  have hperm := Address.perm_of_sortRowMajor hsort
  have hkeys := keys_entriesAt (fun a ha => hperm.mem_iff.mp ha) hd
  refine ⟨hkeys, ?_, ?_, fun a cause => ?_⟩
  · rw [hkeys]
    exact hperm.nodup_iff.mpr hd
  · rw [hkeys]
    exact Address.pairwise_sortRowMajor hsort
  · rw [mem_entriesAt hd, ← mem_failures_iff hcap href hq hall, and_iff_right_iff_imp]
    exact fun hmem => hperm.mem_iff.mpr (List.mem_map_of_mem hmem)

/-! ## The events -/

/-- The events of a recalculation that comes to its end. -/
theorem recalculate_eq {s t : Session} {values : List (String × Value)} {names : List String}
    (hrun : StateT.run shownAll.run s = (.ok values, t))
    (hsort : Address.sortRowMajor (t.failures.map (·.1)) = .ok names) :
    ∃ started completed, s.recalculate =
        ((started :: (t.pass.cycles.map cycleEvent ++
          (entriesAt t.failures names).map (fun r => failureEvent t.sheet r.1 r.2) ++
          [completed])).map Event.truncated, .ok values, t) ∧
      started.topic = .recalcStarted ∧
      completed.truncated.TellsCompletion values.length t.failures.length := by
  have hevents : (entriesAt t.failures names).map (fun r => failureEvent t.sheet r.1 r.2) =
      names.filterMap fun a => (t.failures.lookup a).map (failureEvent t.sheet a) := by
    unfold entriesAt
    rw [List.map_filterMap]
    refine congrArg (fun f => names.filterMap f) (funext fun a => ?_)
    rw [Option.map_map]
    rfl
  have hrun : shownAll.run s = (.ok values, t) := hrun
  unfold recalculate
  rw [hevents]
  dsimp only
  rw [hrun]
  dsimp only [bind, Except.bind]
  rw [hsort]
  exact ⟨_, _, rfl, rfl, ⟨rfl, rfl, rfl⟩⟩

/-- Whether the events of a recalculation agree with the session after it, in which given cells have
failed. -/
structure Recount (s : Session) (failed : List (String × Failure)) (started : Event)
    (cycleEvents failureEvents : List Event) (completed : Event) : Prop where
  started : started.topic = .recalcStarted
  cycles : List.Forall₂ Event.TellsCycle s.pass.cycles cycleEvents
  listed : s.ListsFailed failed
  failures : List.Forall₂ Event.TellsFailure failed failureEvents
  completed : completed.TellsCompletion s.sheet.cells.keys.length failureEvents.length
  /-- A cell that has failed for a cycle is on one that is told. -/
  circular : ∀ a cause, (a, cause) ∈ failed → cause.kind = .circular →
    ∃ e ∈ cycleEvents, ∃ path, e.TellsCycle path ∧ a ∈ path

/-- **The events of a recalculation agree with the sheet after it.**  If the rows can be read that
are come to, a recalculation comes to its end, and tells that it starts, each recorded cycle, each
cell that fails, and that it is complete. -/
theorem recalculate_tells {entries : List (String × Value)}
    (hcells : sheet.cells = Sheet.cellsOfList entries) (hrows : sheet.Legible)
    (source : RandomSource) :
    ∃ failed started cycleEvents failureEvents completed values pass,
      (start sheet source).recalculate =
        (started :: (cycleEvents ++ failureEvents ++ [completed]), .ok values, ⟨sheet, pass⟩) ∧
      Recount ⟨sheet, pass⟩ failed started cycleEvents failureEvents completed := by
  have hcap : sheet.Capital := fun a ha => Sheet.upper_of_mem_cellsOfList (hcells ▸ ha)
  have href := hrows.references_ok
  obtain ⟨values, q, hrun, hq, hlength, hall⟩ :=
    run_shownAll hrows (Pass.accounted_start sheet source)
  obtain ⟨names, hsort⟩ : ∃ names,
      Address.sortRowMajor ((failures ⟨sheet, q⟩).map (·.1)) = .ok names := by
    refine Address.sortRowMajor_ok fun a ha => ?_
    obtain ⟨r, hr, rfl⟩ := List.mem_map.mp ha
    exact hrows.keys _ ((mem_failures_iff hcap href hq hall).mp hr).1
  obtain ⟨started, completed, hevents, hstarted, hcompleted⟩ := recalculate_eq hrun hsort
  obtain ⟨hnames, hfailed⟩ := listsFailed hcap href hq hall hsort
  have hcount : (failures ⟨sheet, q⟩).length = (entriesAt (failures ⟨sheet, q⟩) names).length := by
    calc (failures ⟨sheet, q⟩).length
      _ = ((failures ⟨sheet, q⟩).map (·.1)).length := List.length_map _ |>.symm
      _ = names.length := (Address.perm_of_sortRowMajor hsort).length_eq.symm
      _ = ((entriesAt (failures ⟨sheet, q⟩) names).map (·.1)).length := by rw [hnames]
      _ = (entriesAt (failures ⟨sheet, q⟩) names).length := List.length_map _
  rw [List.map_cons, List.map_append, List.map_append, List.map_map, List.map_map] at hevents
  refine ⟨_, _, _, _, _, _, _, hevents, hstarted, ?_, hfailed, ?_, ?_, ?_⟩
  · exact List.forall₂_map_right_iff.mpr (List.forall₂_same.mpr fun path _ => tellsCycle path)
  · exact List.forall₂_map_right_iff.mpr (List.forall₂_same.mpr fun r _ => tellsFailure sheet r)
  · rw [List.length_map, ← hcount, ← hlength]
    exact hcompleted
  · intro a cause hmem hkind
    have hfailure : (a, cause) ∈ failures ⟨sheet, q⟩ :=
      (mem_failures_iff hcap href hq hall).mpr ((hfailed.complete a cause).mp hmem)
    have hfound : q.find? a = some (.error cause) :=
      (Pass.lookup_eq_some_iff_mem hq.nodup_results).mpr (mem_failures.mp hfailure)
    obtain ⟨path, hpath, ha⟩ := hq.circular_iff.mp ⟨cause, hfound, hkind⟩
    exact ⟨_, List.mem_map_of_mem hpath, path, tellsCycle path, ha⟩

/-- Two cells that read each other, one that reads them, one that divides by zero, and a number. -/
def loopBesideQuotient : Sheet :=
  .ofEntries [("c2", .text "=B2"), ("B2", .text "=C2+1"), ("A1", .text "=SUM(B2:C2)"),
    ("A3", .text "=1/0"), ("D1", .number (.int 5))]

/-- A recalculation with a cycle and failures of three kinds. -/
theorem recalculate_loopBesideQuotient :
    loopBesideQuotient.cells = Sheet.cellsOfList [("c2", .text "=B2"), ("B2", .text "=C2+1"),
      ("A1", .text "=SUM(B2:C2)"), ("A3", .text "=1/0"), ("D1", .number (.int 5))] ∧
    loopBesideQuotient.Legible ∧
    (start loopBesideQuotient (.scripted [] [])).recalculate.1.map (·.topic) =
      [.recalcStarted, .cycleDetected, .cellError, .cellError, .cellError, .cellError,
        .recalcCompleted] ∧
    ∃ failed started cycleEvents failureEvents completed values pass,
      (start loopBesideQuotient (.scripted [] [])).recalculate =
        (started :: (cycleEvents ++ failureEvents ++ [completed]), .ok values,
          ⟨loopBesideQuotient, pass⟩) ∧
      Recount ⟨loopBesideQuotient, pass⟩ failed started cycleEvents failureEvents completed := by
  have hrows : loopBesideQuotient.RowsReadable := by decide +kernel
  exact ⟨rfl, hrows.legible, by decide +kernel, recalculate_tells rfl hrows.legible _⟩

end Session

end Worksheet
