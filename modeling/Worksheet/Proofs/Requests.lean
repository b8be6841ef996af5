import Worksheet.Proofs.Engine
import Worksheet.Proofs.Order

/-!
# One evaluation for each cell

What becomes of the books when cells are asked for, one request after the other, between two changes
of the cells.  Each request comes to an end, also one that fails as a whole, and after it no formula
is being evaluated.  Whatever the requests were, each formula has come to an outcome once at most, and
what has been put in the cache stays there: who asks again gets the same, and nothing is evaluated for
it.  It is only where nesting is too deep to look at a formula that it is put down without an outcome,
and then it can be taken up once more.
-/

namespace Worksheet

open Formula Dialogue Relation

/-! ## Requests -/

/-- What a session can be asked between two changes of its cells. -/
inductive Request where
  | result (name : String)
  | shown (name : String)
  | shownAll
  | failures
  | cycles

/-- What a request can be answered with. -/
inductive Reply where
  | outcome (o : Outcome)
  | value (v : Value)
  | values (values : List (String × Value))
  | failures (failures : List (String × Failure))
  | cycles (cycles : List (List String))

namespace Session

/-- Answers a request. -/
def respond : Request → Computation Reply
  | .result name => return .outcome (← result name)
  | .shown name => return .value (← shown name)
  | .shownAll => return .values (← shownAll)
  | .failures => return .failures (← getThe Session).failures
  | .cycles => return .cycles (← getThe Session).pass.cycles

/-- Answers requests one after the other, whether they fail or not. -/
def respondEach (t : Session) : List Request → List (Except Failure Reply) × Session
  | [] => ([], t)
  | request :: requests =>
    let (r, t) := StateT.run (respond request).run t
    let (replies, t) := t.respondEach requests
    (r :: replies, t)

end Session

namespace Books

/-- The cells that have failed, in the order of the cache. -/
def failures (b : Books) : List (String × Failure) :=
  b.cache.filterMap fun (address, o) =>
    match o with
    | .ok _ => none
    | .error cause => some (address, cause)

/-- Whether asking for a cell under a name in any case ends with given books and gives a result. -/
def Asked (s : Sheet) (b : Books) (name : String) (r : Except Failure Outcome) (b' : Books) : Prop :=
  ∃ e, Engine.Runs s (Engine.start s b (Text.upper name)) e ∧ e.next s = none ∧
    e.Gives (Text.upper name) r ∧ e.books = b'

/-- Whether asking for cells one after the other, up to the first failure as a whole, ends with given
books and gives what the cells show. -/
inductive ShownEach (s : Sheet) :
    Books → List String → Except Failure (List (String × Value)) → Books → Prop where
  | nil {b : Books} : ShownEach s b [] (.ok []) b
  | failed {b b' : Books} {name : String} {names : List String} {cause : Failure} :
      Asked s b name (.error cause) b' → ShownEach s b (name :: names) (.error cause) b'
  | cons {b b' b'' : Books} {name : String} {names : List String} {o : Outcome}
      {r : Except Failure (List (String × Value))} :
      Asked s b name (.ok o) b' → ShownEach s b' names r b'' →
      ShownEach s b (name :: names) (r.map ((name, o.shown) :: ·)) b''

/-- Whether a request ends with given books and is given a reply. -/
inductive Serves (s : Sheet) : Books → Request → Except Failure Reply → Books → Prop where
  | result {b b' : Books} {name : String} {r : Except Failure Outcome} :
      Asked s b name r b' → Serves s b (.result name) (r.map .outcome) b'
  | shown {b b' : Books} {name : String} {r : Except Failure Outcome} :
      Asked s b name r b' → Serves s b (.shown name) (r.map fun o => .value o.shown) b'
  | unsorted {b : Books} {cause : Failure} :
      Address.sortRowMajor s.cells.keys = .error cause → Serves s b .shownAll (.error cause) b
  | shownAll {b b' : Books} {names : List String} {r : Except Failure (List (String × Value))} :
      Address.sortRowMajor s.cells.keys = .ok names → ShownEach s b names r b' →
      Serves s b .shownAll (r.map .values) b'
  | failures {b : Books} : Serves s b .failures (.ok (.failures b.failures)) b
  | cycles {b : Books} : Serves s b .cycles (.ok (.cycles b.cycles)) b

/-- The same for requests one after the other, whether they fail or not. -/
inductive ServesEach (s : Sheet) :
    Books → List Request → List (Except Failure Reply) → Books → Prop where
  | nil {b : Books} : ServesEach s b [] [] b
  | cons {b b' b'' : Books} {request : Request} {requests : List Request}
      {r : Except Failure Reply} {replies : List (Except Failure Reply)} :
      Serves s b request r b' → ServesEach s b' requests replies b'' →
      ServesEach s b (request :: requests) (r :: replies) b''

/-! ## Computations of a session -/

section

variable {s : Sheet} {b b' b'' : Books} {α β : Type}

/-- Whether a computation of a session gives a result and leads to given books, which agree and have
kept what was in the cache. -/
structure Agrees (s : Sheet) (b : Books) (x : Session.Computation α) (r : Except Failure α)
    (b' : Books) : Prop where
  kept : Kept s [] b'
  grows : b.Grows b'
  run : StateT.run x.run ⟨s, b.toPass s⟩ = (r, ⟨s, b'.toPass s⟩)

namespace Agrees

theorem ofExcept (h : Kept s [] b) (r : Except Failure α) :
    Agrees s b (liftM r : Session.Computation α) r b := by
  cases r <;> exact ⟨h, .refl b, rfl⟩

theorem bind {x : Session.Computation α} {f : α → Session.Computation β} {a : α}
    {r : Except Failure β} (hx : Agrees s b x (.ok a) b') (hf : Agrees s b' (f a) r b'') :
    Agrees s b (x >>= f) r b'' :=
  ⟨hf.kept, hx.grows.trans hf.grows, (Sheet.run_bind_ok hx.run).trans hf.run⟩

theorem bind_error {x : Session.Computation α} {f : α → Session.Computation β} {cause : Failure}
    (hx : Agrees s b x (.error cause) b') : Agrees s b (x >>= f) (.error cause) b' :=
  ⟨hx.kept, hx.grows, Sheet.run_bind_error hx.run⟩

/-- All cells are asked for in the order in which their addresses are sorted. -/
theorem shownAll {sorted : Except Failure (List String)}
    {r : Except Failure (List (String × Value))}
    (hsort : Address.sortRowMajor s.cells.keys = sorted)
    (hx : Agrees s b ((liftM sorted : Session.Computation (List String)) >>= Session.shownEach) r
      b') : Agrees s b Session.shownAll r b' := by
  subst hsort
  exact ⟨hx.kept, hx.grows, hx.run⟩

theorem map {x : Session.Computation α} {r : Except Failure α} (hx : Agrees s b x r b')
    (f : α → β) : Agrees s b (do return f (← x)) (r.map f) b' := by
  cases r with
  | error cause => exact hx.bind_error
  | ok a => exact hx.bind ⟨hx.kept, .refl b', rfl⟩

end Agrees

end

/-! ## Asking for a cell -/

variable {s : Sheet} {b b' b'' : Books} {name : String}

/-- At its end an engine has the outcome in its cache that the machine tells. -/
theorem gives_of_machine {b : Books} (h : Kept s [] b) {cell : String} {e : Engine}
    (hruns : Engine.Runs s (Engine.start s b cell) e) (hkept : e.Kept s)
    {r : Except Failure Outcome} (hgives : (e.toMachine s).Gives s cell r) : e.Gives cell r := by
  cases r with
  | error cause => exact hgives
  | ok o =>
  refine ⟨hgives.1, ?_⟩
  rcases Pass.outcome?_eq_some_iff.mp hgives.2 with hfound | ⟨_, hf, rfl⟩
  · exact (hkept.books.find?_toPass.mp hfound).1
  · -- the value of a cell without a formula is put in the cache at once
    obtain ⟨b', hstart, ho⟩ := Engine.start_of_plain h hf
    rw [hstart] at hruns
    rcases hruns.cases_head with rfl | ⟨_, hnext, _⟩
    · exact ho
    · cases hnext

/-- **Asking for a cell comes to an end**, and to the same as without books. -/
theorem exists_asked (h : Kept s [] b) (name : String) :
    ∃ r b', Asked s b name r b' ∧ Agrees s b (Session.result name) r b' := by
  -- the machine comes to an end, and the engine takes the same steps
  obtain ⟨m, hruns, hend⟩ := Machine.exists_endsIn s (b.toPass s) name
  have hstart := Engine.follows_start h (Text.upper name)
  rw [← hstart.machine] at hruns
  obtain ⟨e, hrun, hfollows⟩ := Engine.exists_runs hstart.kept hruns
  have hnext : e.next s = none := Engine.next_eq_none_iff.mpr (hfollows.machine ▸ hend.ended)
  have hkept : Kept s [] e.books := by
    have hbooks := hfollows.kept.books
    rwa [hfollows.kept.frames_eq_nil hnext] at hbooks
  obtain ⟨r, q, hresult⟩ : ∃ r q, StateT.run (s.result name).run (b.toPass s) = (r, q) :=
    ⟨_, _, rfl⟩
  rw [hresult] at hend
  refine ⟨r, e.books, ⟨e, hrun, hnext, ?_, rfl⟩, hkept, hstart.grows.trans hfollows.grows, ?_⟩
  · exact gives_of_machine h hrun hfollows.kept (hfollows.machine ▸ hend.gives)
  · have hpass : e.books.toPass s = q := (congrArg Machine.pass hfollows.machine).trans hend.pass
    rw [Session.run_result hresult, hpass]

/-- Asking for a cell comes to one result. -/
theorem Asked.unique {r₁ r₂ : Except Failure Outcome} {b₁ b₂ : Books}
    (h₁ : Asked s b name r₁ b₁) (h₂ : Asked s b name r₂ b₂) : r₁ = r₂ ∧ b₁ = b₂ := by
  obtain ⟨e₁, hruns₁, hend₁, hgives₁, rfl⟩ := h₁
  obtain ⟨e₂, hruns₂, hend₂, hgives₂, rfl⟩ := h₂
  obtain rfl := Engine.eq_of_runs hruns₁ hend₁ hruns₂ hend₂
  refine ⟨?_, rfl⟩
  cases r₁ with
  | ok o₁ =>
      cases r₂ with
      | ok o₂ => exact congrArg Except.ok (Option.some.inj (hgives₁.2.symm.trans hgives₂.2))
      | error cause => cases hgives₁.1.symm.trans hgives₂
  | error cause₁ =>
      cases r₂ with
      | ok o => cases hgives₂.1.symm.trans hgives₁
      | error cause₂ => exact congrArg Except.error (Option.some.inj (hgives₁.symm.trans hgives₂))

theorem Asked.agrees {r : Except Failure Outcome} (ha : Asked s b name r b') (h : Kept s [] b) :
    Agrees s b (Session.result name) r b' := by
  obtain ⟨r', b'', ha', hagrees⟩ := exists_asked h name
  obtain ⟨rfl, rfl⟩ := ha.unique ha'
  exact hagrees

/-- **Who asks again gets the same outcome**, and the books stay as they are. -/
theorem Asked.again {o : Outcome} (ha : Asked s b name (.ok o) b') (hgrows : b'.Grows b'') :
    Asked s b'' name (.ok o) b'' := by
  obtain ⟨e, _, _, hgives, rfl⟩ := ha
  -- what was put in the cache is still the first that is found for the cell
  have ho : b''.cache.lookup (Text.upper name) = some o := by
    obtain ⟨added, hadded⟩ := hgrows.cache
    rw [← hadded, List.lookup_append, hgives.2]
    rfl
  refine ⟨_, .refl, ?_, ?_, ?_⟩
  · rw [Engine.start_of_cached ho]
    rfl
  · rw [Engine.start_of_cached ho]
    exact ⟨rfl, ho⟩
  · rw [Engine.start_of_cached ho]

/-! ## Asking for several cells -/

namespace ShownEach

variable {names : List String} {r r₁ r₂ : Except Failure (List (String × Value))} {b₁ b₂ : Books}

theorem unique (h₁ : ShownEach s b names r₁ b₁) (h₂ : ShownEach s b names r₂ b₂) :
    r₁ = r₂ ∧ b₁ = b₂ := by
  induction h₁ generalizing r₂ b₂ with
  | nil =>
      cases h₂
      exact ⟨rfl, rfl⟩
  | failed ha =>
      cases h₂ with
      | failed ha' =>
          obtain ⟨hcause, rfl⟩ := ha.unique ha'
          obtain rfl := Except.error.inj hcause
          exact ⟨rfl, rfl⟩
      | cons ha' _ => cases (ha.unique ha').1
  | cons ha _ ih =>
      cases h₂ with
      | failed ha' => cases (ha.unique ha').1
      | cons ha' hrest' =>
          obtain ⟨ho, rfl⟩ := ha.unique ha'
          obtain rfl := Except.ok.inj ho
          obtain ⟨rfl, rfl⟩ := ih hrest'
          exact ⟨rfl, rfl⟩

theorem agrees (hs : ShownEach s b names r b') (h : Kept s [] b) :
    Agrees s b (Session.shownEach names) r b' := by
  unfold Session.shownEach
  induction hs with
  | nil => exact ⟨h, .refl _, rfl⟩
  | failed ha =>
      rw [List.mapM_cons]
      exact .bind_error (.bind_error (.bind_error (ha.agrees h)))
  | @cons b b' b'' name names o r ha _ ih =>
      have hfirst : Agrees s b (do return (name, ← Session.shown name)) (.ok (name, o.shown)) b' :=
        .map (.map (ha.agrees h) _) _
      rw [List.mapM_cons]
      exact hfirst.bind (.map (ih hfirst.kept) _)

/-- Who asks again is shown the same, and the books stay as they are. -/
theorem again {l : List (String × Value)} (hs : ShownEach s b names (.ok l) b')
    (hgrows : b'.Grows b'') (h : Kept s [] b) : ShownEach s b'' names (.ok l) b'' := by
  generalize hr : Except.ok l = r at hs
  induction hs generalizing l with
  | nil =>
      cases hr
      exact .nil
  | failed => cases hr
  | @cons b b₁ b₂ name names o r ha hrest ih =>
      cases r with
      | error cause => cases hr
      | ok rest =>
          have hkept := (ha.agrees h).kept
          have hlater := ih hgrows hkept rfl
          exact .cons (ha.again ((hrest.agrees hkept).grows.trans hgrows)) hlater

end ShownEach

/-! ## Requests one after the other -/

theorem failures_eq (s : Sheet) (h : Kept s [] b) :
    b.failures = Session.failures ⟨s, b.toPass s⟩ := by
  unfold failures Session.failures toPass
  rw [List.reverse_reverse, List.filterMap_filter]
  refine List.filterMap_congr fun e he => ?_
  cases hf : s.formula? e.1 with
  | some text => rfl
  | none =>
      obtain ⟨a, o⟩ := e
      have ho : o = .ok (s.cells.get a) := h.plain _ he hf
      subst ho
      rfl

namespace Serves

variable {request : Request} {r r₁ r₂ : Except Failure Reply} {b₁ b₂ : Books}

theorem unique (h₁ : Serves s b request r₁ b₁) (h₂ : Serves s b request r₂ b₂) :
    r₁ = r₂ ∧ b₁ = b₂ := by
  cases h₁ with
  | result ha =>
      cases h₂ with
      | result ha' =>
          obtain ⟨rfl, rfl⟩ := ha.unique ha'
          exact ⟨rfl, rfl⟩
  | shown ha =>
      cases h₂ with
      | shown ha' =>
          obtain ⟨rfl, rfl⟩ := ha.unique ha'
          exact ⟨rfl, rfl⟩
  | unsorted hsort =>
      cases h₂ with
      | unsorted hsort' =>
          obtain rfl := Except.error.inj (hsort.symm.trans hsort')
          exact ⟨rfl, rfl⟩
      | shownAll hsort' _ => cases hsort.symm.trans hsort'
  | shownAll hsort hs =>
      cases h₂ with
      | unsorted hsort' => cases hsort.symm.trans hsort'
      | shownAll hsort' hs' =>
          obtain rfl := Except.ok.inj (hsort.symm.trans hsort')
          obtain ⟨rfl, rfl⟩ := hs.unique hs'
          exact ⟨rfl, rfl⟩
  | failures =>
      cases h₂
      exact ⟨rfl, rfl⟩
  | cycles =>
      cases h₂
      exact ⟨rfl, rfl⟩

theorem agrees (hs : Serves s b request r b') (h : Kept s [] b) :
    Agrees s b (Session.respond request) r b' := by
  cases hs with
  | result ha => exact .map (ha.agrees h) _
  | @shown _ name r ha =>
      have hagrees := ((ha.agrees h).map fun o => o.shown).map Reply.value
      cases r <;> exact hagrees
  | unsorted hsort => exact .map (.shownAll hsort (.bind_error (.ofExcept h _))) _
  | shownAll hsort hs => exact .map (.shownAll hsort (.bind (.ofExcept h _) (hs.agrees h))) _
  | failures => exact ⟨h, .refl b, by rw [failures_eq s h]; rfl⟩
  | cycles => exact ⟨h, .refl b, rfl⟩

/-- Who asks again for outcomes or values gets the same, and the books stay as they are. -/
theorem again {reply : Reply} (hs : Serves s b request (.ok reply) b') (hgrows : b'.Grows b'')
    (h : Kept s [] b) (hfailures : request ≠ .failures) (hcycles : request ≠ .cycles) :
    Serves s b'' request (.ok reply) b'' := by
  generalize hr : Except.ok reply = r at hs
  cases hs with
  | @result b' name r ha =>
      cases r with
      | error cause => cases hr
      | ok o => exact .result (ha.again hgrows)
  | @shown b' name r ha =>
      cases r with
      | error cause => cases hr
      | ok o => exact .shown (ha.again hgrows)
  | unsorted => cases hr
  | @shownAll b' names r hsort hs =>
      cases r with
      | error cause => cases hr
      | ok values => exact .shownAll hsort (hs.again hgrows h)
  | failures => exact absurd rfl hfailures
  | cycles => exact absurd rfl hcycles

end Serves

namespace ServesEach

variable {requests : List Request} {replies replies₁ replies₂ : List (Except Failure Reply)}
  {b₁ b₂ : Books}

theorem unique (h₁ : ServesEach s b requests replies₁ b₁)
    (h₂ : ServesEach s b requests replies₂ b₂) : replies₁ = replies₂ ∧ b₁ = b₂ := by
  induction h₁ generalizing replies₂ b₂ with
  | nil =>
      cases h₂
      exact ⟨rfl, rfl⟩
  | cons hs _ ih =>
      cases h₂ with
      | cons hs' hrest' =>
          obtain ⟨rfl, rfl⟩ := hs.unique hs'
          obtain ⟨rfl, rfl⟩ := ih hrest'
          exact ⟨rfl, rfl⟩

/-- The books agree after requests, have kept what was in the cache, and the replies are those of the
session. -/
theorem agrees (hs : ServesEach s b requests replies b') (h : Kept s [] b) :
    Kept s [] b' ∧ b.Grows b' ∧
      Session.respondEach ⟨s, b.toPass s⟩ requests = (replies, ⟨s, b'.toPass s⟩) := by
  induction hs with
  | nil => exact ⟨h, .refl _, rfl⟩
  | cons hs _ ih =>
      have hfirst := hs.agrees h
      obtain ⟨hkept, hgrows, hrest⟩ := ih hfirst.kept
      refine ⟨hkept, hfirst.grows.trans hgrows, ?_⟩
      rw [Session.respondEach, hfirst.run]
      dsimp only
      rw [hrest]

/-- Each reply with outcomes or values is given again after all requests. -/
theorem again (hs : ServesEach s b requests replies b') (h : Kept s [] b) {request : Request}
    {reply : Reply} (hmem : (request, .ok reply) ∈ requests.zip replies)
    (hfailures : request ≠ .failures) (hcycles : request ≠ .cycles) :
    Serves s b' request (.ok reply) b' := by
  induction hs with
  | nil => cases hmem
  | cons hs hrest ih =>
      have hfirst := hs.agrees h
      rcases List.mem_cons.mp hmem with heq | hmem
      · obtain ⟨rfl, rfl⟩ := Prod.mk.inj heq
        exact hs.again (hrest.agrees hfirst.kept).2.1 h hfailures hcycles
      · exact ih hfirst.kept hmem

end ServesEach

end Books

end Worksheet
