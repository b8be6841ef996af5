import Worksheet.Command.Run
import Worksheet.Proofs.Display

/-!
# What is printed of a value

The command that evaluates a formula writes nothing until it has an outcome.  Then it logs a failure,
if there is a journal, and prints what is shown.  It is not prepared for a value that cannot be
displayed: it ends with nothing printed then, by the very fault of writing the value.
-/

namespace Worksheet.Command

open Worksheet.Command.Action Formula

/-! ## Actions that write nothing -/

/-- Whether an action has written nothing when it goes on, and something is known of what it has come
to. -/
def Quiet (P : α → Prop) (x : Action α) : Prop :=
  ∀ o a o', StateT.run (ExceptT.run x) o = (.ok a, o') → o' = o ∧ P a

namespace Quiet

variable {α β : Type} {P : α → Prop} {Q : β → Prop}

theorem pure {a : α} (h : P a) : Quiet P (Pure.pure a : Action α) := by
  intro o b o' hrun
  obtain ⟨hb, ho⟩ := Prod.mk.inj hrun
  obtain rfl := Except.ok.inj hb
  exact ⟨ho.symm, h⟩

theorem throw (stop : Stop) : Quiet P (MonadExcept.throw stop : Action α) := by
  intro o b o' hrun
  cases congrArg Prod.fst hrun

theorem bind {x : Action α} {f : α → Action β} (hx : Quiet P x) (hf : ∀ a, P a → Quiet Q (f a)) :
    Quiet Q (x >>= f) := by
  intro o b o' h
  cases hrun : StateT.run (ExceptT.run x) o with
  | mk r o₁ =>
      cases r with
      | error stop =>
          rw [Sheet.run_bind_error hrun] at h
          cases congrArg Prod.fst h
      | ok a =>
          rw [Sheet.run_bind_ok hrun] at h
          obtain ⟨rfl, ha⟩ := hx _ _ _ hrun
          exact hf a ha _ _ _ h

theorem mapM {f : α → Action β} (hf : ∀ a, Quiet (fun _ => True) (f a)) (l : List α) :
    Quiet (fun _ => True) (l.mapM f) := by
  induction l with
  | nil => exact pure trivial
  | cons a l ih =>
      rw [List.mapM_cons]
      exact bind (hf a) fun b _ => bind ih fun bs _ => pure trivial

theorem mapM_option {f : α → Action β} (hf : ∀ a, Quiet (fun _ => True) (f a)) (o : Option α) :
    Quiet (fun _ => True) (o.mapM f) := by
  cases o with
  | none => exact pure trivial
  | some a => exact bind (hf a) fun b _ => pure trivial

theorem require (stop : Stop) (o : Option α) : Quiet (fun _ => True) (Action.require stop o) := by
  cases o with
  | none => exact throw stop
  | some a => exact pure trivial

theorem must {ε : Type} (fault : ε → Fault) (r : Except ε α) :
    Quiet (fun _ => True) (Action.must fault r) := by
  cases r with
  | error e => exact throw _
  | ok a => exact pure trivial

theorem computed (r : Except Failure α) : Quiet (fun _ => True) (Action.computed r) :=
  must _ r

theorem ofExcept (r : Except Stop α) : Quiet (fun _ => True) (liftM r : Action α) := by
  cases r with
  | error stop => exact throw stop
  | ok a => exact pure trivial

/-- Help is written by a command that does not go on. -/
theorem help (args : Arguments) (text : String) : Quiet (fun _ => True) (Action.help args text) := by
  unfold Action.help
  split
  · intro o a o' hrun
    cases congrArg Prod.fst hrun
  · exact pure trivial

end Quiet

variable (env : Environment)

theorem quiet_readArguments (specs : List OptionSpec) (text : String) (args : List String) :
    Quiet (fun _ => True) (readArguments specs text args) :=
  .bind (.require _ _) fun args _ => .bind (.help args text) fun _ _ => .pure trivial

theorem quiet_onlyOperand (args : Arguments) : Quiet (fun _ => True) (onlyOperand args) := by
  unfold onlyOperand
  split
  · exact .pure trivial
  · exact .throw _

theorem quiet_loadCells (path : Option String) : Quiet (fun _ => True) (loadCells env path) := by
  unfold loadCells
  cases path with
  | none => exact .pure trivial
  | some path =>
      refine .bind (.require _ _) fun text _ => .bind (.must _ _) fun doc _ =>
        .bind (.ofExcept _) fun _ _ => .mapM (fun e => ?_) _
      exact .bind (.computed _) fun k _ => .pure trivial

/-! ## Evaluating a formula -/

/-- What the command that evaluates a formula has before it answers. -/
structure Evaluated where
  options : Arguments
  formula : String
  outcome : Outcome

/-- What is evaluated, and what it comes to. -/
def evaluated (s : Settings) (args : List String) : Action Evaluated := do
  let args ← readArguments
    [⟨"--context", true⟩, ⟨"--set", true⟩, ⟨"--strict", false⟩, ⟨"--seed", true⟩,
      ⟨"--json", false⟩]
    evalHelp args
  let formula ← onlyOperand args
  let context ← (args.value? "--context").mapM (existing env)
  let seed ← (args.value? "--seed").mapM fun seed => require .misused (integer? seed)
  let given ← loadCells env context
  let overrides ← (args.valuesOf "--set").mapM fun item => (override item : Except Stop _)
  let source ← randomSource env (match seed with
    | some seed => { s with randomSeed := .number (.int seed) }
    | none => s)
  let outcome := ((Formula.evaluate (args.has "--strict" || s.strictReferences.isSet) env.clock
    env.limit (Cells.ofList (given ++ overrides)) (.text formula)).run source).1
  return ⟨args, formula, outcome⟩

/-- Logs a failure and prints what is shown. -/
def answer (s : Settings) (e : Evaluated) : Action Unit := do
  let failure := match e.outcome with
    | .ok _ => none
    | .error f => some f
  if let some f := failure then
    logEvents env (← directoryOf s.logDir)
      [Log.event .warning .evalFailed f.message (Log.cellContext none (some e.formula) [])
        (some f.kind.name)]
  if e.options.has "--json" then
    let v ← computed (jsonOf e.outcome.shown)
    let payload := Json.object [Json.entry "formula" (.ofString e.formula), Json.entry "value" v,
      Json.entry "error" (.ofOption (failure.map (·.kind.name))),
      Json.entry "message" (.ofString ((failure.map (·.message)).getD ""))]
    sayLine (← computed payload.renderIndented)
  else sayLine (← computed e.outcome.shown.display)

/-- The command is the evaluation and the answer. -/
theorem evaluate_eq (s : Settings) (args : List String) :
    evaluate env s args = evaluated env s args >>= answer env s := by
  unfold evaluate evaluated answer
  simp only [bind_assoc, pure_bind]
  refine bind_congr fun options => bind_congr fun formula => bind_congr fun context =>
    bind_congr fun seed => bind_congr fun given => bind_congr fun overrides => ?_
  cases seed with
  | none => rfl
  | some seed => rfl

/-- Nothing is written up to the outcome, which is that of the formula among some cells. -/
theorem quiet_evaluated (s : Settings) (args : List String) :
    Quiet (fun e => ∃ strict cells source, e.outcome =
      ((Formula.evaluate strict env.clock env.limit cells (.text e.formula)).run source).1)
      (evaluated env s args) := by
  refine .bind (quiet_readArguments _ _ _) fun options _ => .bind (quiet_onlyOperand _) fun formula _ =>
    .bind (.mapM_option (fun path => ?_) _) fun context _ =>
    .bind (.mapM_option (fun seed => .require _ _) _) fun seed _ =>
    .bind (quiet_loadCells env _) fun given _ =>
    .bind (.mapM (fun item => .ofExcept _) _) fun overrides _ =>
    .bind (P := fun _ => True) ?_ fun source _ => .pure ⟨_, _, _, rfl⟩
  · exact .bind (.require _ _) fun _ _ => .pure trivial
  · exact .bind (.must _ _) fun _ _ => .pure trivial

/-! ## The answer -/

/-- Whether a failure can be logged: there is no journal, or its directory can be made. -/
def CanLog (s : Settings) : Prop :=
  s.logDir.isSet = false ∨
    ∃ directory, s.logDir = .text directory ∧ env.files.hasRoomFor directory = true

variable {env}

theorem run_logEvents {s : Settings} (h : CanLog env s) (events : List Log.Event) (o : Output) :
    ∃ logged, StateT.run (ExceptT.run (do logEvents env (← directoryOf s.logDir) events)) o =
      (.ok (), { o with logged }) := by
  unfold directoryOf logEvents
  rcases h with hset | ⟨directory, htext, hroom⟩
  · rw [hset]
    exact ⟨o.logged, rfl⟩
  · rw [htext]
    cases hset : (Value.text directory).isSet with
    | false => exact ⟨o.logged, rfl⟩
    | true =>
        refine ⟨o.logged ++ events.map (directory, ·), ?_⟩
        simp only [hroom, Bool.not_true, Bool.false_eq_true, if_false, pure_bind]
        rfl

/-- What is displayed is printed, and nothing else is. -/
theorem run_answer {s : Settings} {e : Evaluated} (hjson : e.options.has "--json" = false)
    (hlog : ∀ cause, e.outcome = .error cause → CanLog env s) (o : Output) :
    ∃ logged, StateT.run (ExceptT.run (answer env s e)) o =
      match e.outcome.shown.display with
      | .ok t => (.ok (), { o with out := o.out ++ (t ++ "\n"), logged })
      | .error cause => (.error (.failed (.computation cause)), { o with logged }) := by
  unfold answer
  cases houtcome : e.outcome with
  | ok v =>
      refine ⟨o.logged, ?_⟩
      rw [hjson]
      show StateT.run (ExceptT.run (do sayLine (← computed v.display))) o = match v.display with
        | .ok t => _
        | .error _ => _
      cases v.display with
      | ok t => rfl
      | error cause => rfl
  | error cause =>
      obtain ⟨logged, hrun⟩ := run_logEvents (hlog cause houtcome)
        [Log.event .warning .evalFailed cause.message (Log.cellContext none (some e.formula) [])
          (some cause.kind.name)] o
      refine ⟨logged, ?_⟩
      rw [hjson]
      simp only [← bind_assoc]
      rw [Sheet.run_bind_ok hrun]
      rfl

/-- The command prints what is displayed.  If nothing is, it ends by the fault of that. -/
theorem run_evaluate {s : Settings} {args : List String} {e : Evaluated} {o : Output}
    (hrun : StateT.run (ExceptT.run (evaluated env s args)) .nothing = (.ok e, o))
    (hjson : e.options.has "--json" = false)
    (hlog : ∀ cause, e.outcome = .error cause → CanLog env s) :
    ∃ logged, (evaluate env s args).run =
      match e.outcome.shown.display with
      | .ok t => (0, ⟨t ++ "\n", "", logged, none⟩)
      | .error cause => (1, ⟨"", "", logged, some (.computation cause)⟩) := by
  obtain ⟨rfl, -⟩ := quiet_evaluated env s args _ _ _ hrun
  obtain ⟨logged, hanswer⟩ := run_answer hjson hlog .nothing
  refine ⟨logged, ?_⟩
  unfold Action.run
  rw [evaluate_eq, Sheet.run_bind_ok hrun, hanswer]
  cases e.outcome.shown.display with
  | ok t =>
      show (0, (⟨"" ++ (t ++ "\n"), "", logged, none⟩ : Output)) = _
      rw [String.empty_append]
  | error cause => rfl

/-! ## A command line with nothing but a formula -/

/-- A formula is an operand. -/
theorem read?_formula {text : String} (h : (Value.text text).isFormula = true)
    (specs : List OptionSpec) : Arguments.read? specs true [text] = some ⟨[], [text]⟩ := by
  obtain ⟨formula, hformula⟩ := Option.isSome_iff_exists.mp h
  obtain ⟨-, rest, htext⟩ := formula?_text_iff.mp hformula
  have hdashes : text ≠ "--" := by
    rintro rfl
    cases htext
  have hoption : Arguments.isOption text = false := by
    unfold Arguments.isOption
    rw [Bool.and_eq_false_iff]
    refine .inl (Bool.eq_false_iff.mpr fun hhyphen => ?_)
    obtain ⟨rest', htext'⟩ := String.startsWith_string_iff.mp hhyphen
    cases htext.symm.trans htext'.symm
  unfold Arguments.read?
  rw [if_neg hdashes, hoption]
  rfl

/-- A formula alone is evaluated with the initial settings, among no cells. -/
theorem run_evaluated_formula {text : String} (h : (Value.text text).isFormula = true) (o : Output) :
    StateT.run (ExceptT.run (evaluated env .initial [text])) o =
      (.ok ⟨⟨[], [text]⟩, text, ((Formula.evaluate false env.clock env.limit .empty
        (.text text)).run (env.random .null)).1⟩, o) := by
  unfold evaluated readArguments
  rw [read?_formula h]
  rfl

/-- The program is given a formula and prints what is displayed of it. -/
theorem run_formula {text : String} (h : (Value.text text).isFormula = true) :
    ∃ logged, run env ["eval", text] =
      match ((Formula.evaluate false env.clock env.limit .empty (.text text)).run
        (env.random .null)).1.shown.display with
      | .ok t => (0, ⟨t ++ "\n", "", logged, none⟩)
      | .error cause => (1, ⟨"", "", logged, some (.computation cause)⟩) := by
  have hname : Arguments.isOption "eval" = false := by decide +kernel
  have hrun : run env ["eval", text] = (evaluate env .initial [text]).run := by
    unfold run carryOut Arguments.read?
    rw [if_neg (by decide), hname]
    rfl
  rw [hrun]
  exact run_evaluate (run_evaluated_formula h _) rfl fun _ _ => .inl rfl

/-- **What a formula comes to is displayed unless it is an integer with more digits than are written
out.**  That takes an operation that can come to a longer integer than its operands: where none is
allowed, and nothing is counted or drawn, all values are displayed, and with any one of them there is
one that is not.  The command that evaluates a formula prints what is displayed and ends with code 0.
Where nothing is displayed it prints nothing and ends with code 1, by the fault of that: no command is
prepared for an integer that is too long to write. -/
theorem displayed_unless_long (env : Environment) (text : String) :
    (∀ strict cells source, InFormat cells source →
      let outcome := ((Formula.evaluate strict env.clock env.limit cells (.text text)).run source).1
      ((∃ t, outcome.shown.display = .ok t) ↔ ∀ n, outcome = .ok (.number n) → n.Short) ∧
        ∀ cause, outcome.shown.display = .error cause → cause = .integerTooLongToWrite) ∧
    (∀ allowedOperator allowed, (∀ f, allowed f → ¬ f.Counts) →
      (DisplaysAll allowedOperator allowed ↔
        (∀ op, allowedOperator op → ¬ op.Lengthens) ∧ ∀ f, allowed f → ¬ f.Lengthens)) ∧
    (∀ s args e o, StateT.run (ExceptT.run (evaluated env s args)) .nothing = (.ok e, o) →
      e.options.has "--json" = false → (∀ cause, e.outcome = .error cause → CanLog env s) →
      (∃ strict cells source, e.outcome =
        ((Formula.evaluate strict env.clock env.limit cells (.text e.formula)).run source).1) ∧
      ∃ logged, (evaluate env s args).run =
        match e.outcome.shown.display with
        | .ok t => (0, ⟨t ++ "\n", "", logged, none⟩)
        | .error cause => (1, ⟨"", "", logged, some (.computation cause)⟩)) ∧
    ((Value.text text).isFormula = true → ∃ logged, run env ["eval", text] =
      match ((Formula.evaluate false env.clock env.limit .empty (.text text)).run
        (env.random .null)).1.shown.display with
      | .ok t => (0, ⟨t ++ "\n", "", logged, none⟩)
      | .error cause => (1, ⟨"", "", logged, some (.computation cause)⟩)) :=
  ⟨fun strict _ _ h => ⟨display_evaluate_iff h strict env.clock env.limit text,
      fun _ => cause_of_display_evaluate h⟩,
    fun _ _ hcounts => displaysAll_iff hcounts,
    fun s args _ _ hrun hjson hlog =>
      ⟨(quiet_evaluated env s args _ _ _ hrun).2, run_evaluate hrun hjson hlog⟩,
    run_formula⟩

/-- A place with no files, at noon. -/
def emptyPlace : Environment where
  files := ⟨[], []⟩
  clock := noon
  random _ := .scripted [] []
  limit := none

/-- Some powers of ten come to a value of which nothing is printed, and which ends the program. -/
theorem not_displayed_powers :
    let outcome := ((Formula.evaluate false noon none .empty (.text "=((10^64)^64)^2")).run
      (.scripted [] [])).1
    outcome.isOk = true ∧ outcome.shown.display.isOk = false ∧
      (run emptyPlace ["eval", "=((10^64)^64)^2"]).1 = 1 ∧
      (run emptyPlace ["eval", "=((10^64)^64)^2"]).2.out = "" ∧
      (run emptyPlace ["eval", "=((10^64)^64)^2"]).2.fault =
        some (.computation .integerTooLongToWrite) := by
  decide +kernel

end Worksheet.Command
