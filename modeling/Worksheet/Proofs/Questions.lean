import Worksheet.Proofs.Lockstep

/-!
# What a formula asks for, and what it makes of it

A formula asks for no cell that its expression does not read.  It finds no cycle by itself: if it
fails for one, one of its answers did.  And whether a range is walked cell by cell or looked up
among the keys makes no difference but for questions to cells that hold nothing.
-/

namespace Worksheet.Formula

open Dialogue

variable {s : Setting} {text : String} {e : Expr} {α β : Type}

/-! ## Which cells are asked for -/

/-- **A formula asks for the cells that its expression reads, and for no others.** -/
theorem reads_of_asks {depth : Nat} (hp : parse text = .ok e) {a : String}
    (h : (outcomeAt s depth text).Asks anyAnswer a) : e.Reads a := by
  have hseq : Sequenced fun {α} (x _ : Evaluation α) =>
      ∀ a, x.run.Asks anyAnswer a → e.Reads a := by
    refine ⟨fun _ _ h => absurd h not_asks_done, fun {α β x y f g} hx hf a h => ?_⟩
    rcases asks_bind h with h | ⟨r, h⟩
    · exact hx a h
    · cases r with
      | ok v => exact hf v a h
      | error cause => exact absurd h not_asks_done
  have hrelates : Relates s s.keys (· = ·) (Expr.ReadsWithin e.Reads) (fun _ => True)
      fun {α} (x _ : Evaluation α) => ∀ a, x.run.Asks anyAnswer a → e.Reads a := by
    refine .ofCells hseq (fun hd => congrArg s.exceeds hd) (fun cost hd => congrArg (· + cost) hd)
      ?_ ?_ ?_ ?_
    · intro depth depth' a _ ha b h
      rcases asks_read h with rfl | ⟨v, _, h⟩
      · exact ha
      · exact absurd h not_asks_done
    · intro α x y _ hx a h
      rcases asks_bind h with h | ⟨r, h⟩
      · exact hx a h
      · exact absurd h not_asks_done
    · intro f _ a h
      obtain ⟨x, h⟩ := asks_fraction h
      exact absurd h not_asks_done
    · intro f low high _ a h
      obtain ⟨i, h⟩ := asks_integer h
      exact absurd h not_asks_done
  refine hrelates.outcomeAt rfl text (fun e' hp' part hpart => ?_) (fun _ _ => trivial) a h
  obtain rfl := Except.ok.inj (hp.symm.trans hp')
  exact Expr.readsWithin_of_mem_parts hpart fun _ => id

/-- What asks for a cell can be parsed. -/
theorem parse_of_asks {depth : Nat} {answers : Answering} {a : String}
    (h : (outcomeAt s depth text).Asks answers a) : ∃ e, parse text = .ok e := by
  unfold outcomeAt at h
  cases hp : parse text with
  | ok e => exact ⟨e, rfl⟩
  | error cause =>
      rw [hp] at h
      exact absurd h not_asks_done

/-! ## Where cycles are found -/

/-- Whether a dialogue fails for a cycle only if one of its answers does. -/
def Faithful (d : Dialogue (Except Failure α)) : Prop :=
  ∀ answers : Answering, (∀ a v, answers a v → FindsNoCycle v) →
    ∀ r, d.Ends answers r → FindsNoCycle r

theorem faithful_done {r : Except Failure α} (h : FindsNoCycle r) : Faithful (.done r) :=
  fun _ _ _ hr => ends_done hr ▸ h

theorem Faithful.bind {d : Dialogue (Except Failure α)}
    {f : Except Failure α → Dialogue (Except Failure β)} (hd : Faithful d)
    (hf : ∀ r, FindsNoCycle r → Faithful (f r)) : Faithful (d.bind f) := by
  intro answers ha r hr
  obtain ⟨r', hr', hr⟩ := ends_bind hr
  exact hf r' (hd answers ha r' hr') answers ha r hr

/-- **A formula finds no cycle by itself.** -/
theorem faithful_outcomeAt (s : Setting) (depth : Nat) (text : String) :
    Faithful (outcomeAt s depth text) := by
  have hseq : Sequenced fun {α} (x _ : Evaluation α) => Faithful x.run := by
    refine ⟨fun h => faithful_done h, fun {α β x y f g} hx hf => hx.bind fun r hr => ?_⟩
    cases r with
    | ok v => exact hf v
    | error cause => exact faithful_done (failsIn_error.mpr (failsIn_error.mp hr))
  have hrelates : Relates s s.keys (· = ·) (Expr.ReadsWithin fun _ => True) (fun _ => True)
      fun {α} (x _ : Evaluation α) => Faithful x.run := by
    refine .ofCells hseq (fun hd => congrArg s.exceeds hd) (fun cost hd => congrArg (· + cost) hd)
      ?_ ?_ ?_ ?_
    · intro depth depth' a _ _ answers ha r hr
      obtain ⟨v, hv, hr⟩ := ends_read hr
      exact ends_done hr ▸ ha a v hv
    · exact fun _ hx => hx.bind fun r _ => faithful_done failsIn_ok
    · intro f _ answers _ r hr
      obtain ⟨x, hr⟩ := ends_fraction hr
      exact ends_done hr ▸ failsIn_ok
    · intro f low high _ answers _ r hr
      obtain ⟨i, hr⟩ := ends_integer hr
      exact ends_done hr ▸ failsIn_ok
  exact hrelates.outcomeAt rfl text
    (fun e _ part hpart => Expr.readsWithin_of_mem_parts hpart fun _ _ => trivial)
    (fun _ _ => trivial)

/-! ## Cells that hold nothing -/

namespace Dialogue

/-- The dialogue without the questions to cells that are not among the keys, which hold nothing. -/
def skipping (keys : List String) : Dialogue α → Dialogue α
  | done a => done a
  | read a depth next =>
    if a ∈ keys then read a depth fun v => (next v).skipping keys
    else (next (.ok .null)).skipping keys
  | drawFraction next => drawFraction fun x => (next x).skipping keys
  | drawInteger low high next => drawInteger low high fun i => (next i).skipping keys

theorem skipping_read_of_mem {keys : List String} {a : String} (h : a ∈ keys) (depth : Nat)
    (next : Except Failure Value → Dialogue α) :
    (read a depth next).skipping keys = read a depth fun v => (next v).skipping keys := by
  rw [skipping, if_pos h]

theorem skipping_read_of_not_mem {keys : List String} {a : String} (h : a ∉ keys) (depth : Nat)
    (next : Except Failure Value → Dialogue α) :
    (read a depth next).skipping keys = (next (.ok .null)).skipping keys := by
  rw [skipping, if_neg h]

theorem skipping_bind (keys : List String) (d : Dialogue α) (f : α → Dialogue β) :
    (d.bind f).skipping keys = (d.skipping keys).bind fun a => (f a).skipping keys := by
  induction d with
  | done a => rfl
  | read a depth next ih =>
      by_cases h : a ∈ keys
      · rw [skipping_read_of_mem h]
        exact (skipping_read_of_mem h _ _).trans (congrArg (read a depth) (funext ih))
      · rw [skipping_read_of_not_mem h]
        exact (skipping_read_of_not_mem h _ _).trans (ih _)
  | drawFraction next ih => exact congrArg drawFraction (funext ih)
  | drawInteger low high next ih => exact congrArg (drawInteger low high) (funext ih)

end Dialogue

namespace Dialogue

/-- Being the same but for questions to cells that are not among the keys, which get the answer that
these cells hold nothing. -/
inductive AlikeOver (keys : List String) : Dialogue α → Dialogue α → Prop where
  | done (a : α) : AlikeOver keys (.done a) (.done a)
  | read {a : String} {depth : Nat} {next next' : Except Failure Value → Dialogue α} :
      (∀ v, AlikeOver keys (next v) (next' v)) →
      AlikeOver keys (.read a depth next) (.read a depth next')
  | left {a : String} {depth : Nat} {next : Except Failure Value → Dialogue α}
      {d : Dialogue α} :
      a ∉ keys → AlikeOver keys (next (.ok .null)) d → AlikeOver keys (.read a depth next) d
  | right {a : String} {depth : Nat} {next : Except Failure Value → Dialogue α}
      {d : Dialogue α} :
      a ∉ keys → AlikeOver keys d (next (.ok .null)) → AlikeOver keys d (.read a depth next)

/-- Dialogues that are the same without questions to absent cells differ in such questions alone. -/
theorem alikeOver_of_skipping {keys : List String} {d d' : Dialogue α} (hd : d.Drawless)
    (h : d.skipping keys = d'.skipping keys) : AlikeOver keys d d' := by
  induction d generalizing d' with
  | done a =>
      induction d' with
      | done b =>
          cases h
          exact .done a
      | read b depth next ih =>
          by_cases hb : b ∈ keys
          · rw [skipping_read_of_mem hb] at h
            cases h
          · exact .right hb (ih _ (h.trans (skipping_read_of_not_mem hb depth next)))
      | drawFraction next => cases h
      | drawInteger low high next => cases h
  | read a depth next ih =>
      by_cases ha : a ∈ keys
      swap
      · rw [skipping_read_of_not_mem ha] at h
        exact .left ha (ih _ (hd _) h)
      rw [skipping_read_of_mem ha] at h
      induction d' with
      | done b => cases h
      | read b depth' next' ih' =>
          by_cases hb : b ∈ keys
          · rw [skipping_read_of_mem hb] at h
            injection h with haddress hdepth hnext
            subst haddress hdepth
            exact .read fun v => ih v (hd v) (congrFun hnext v)
          · exact .right hb (ih' _ (h.trans (skipping_read_of_not_mem hb depth' next')))
      | drawFraction next => cases h
      | drawInteger low high next => cases h
  | drawFraction next => exact hd.elim
  | drawInteger low high next => exact hd.elim

end Dialogue

/-- Reading some cells and keeping what is found in them is reading those that can hold
something. -/
theorem skipping_mapM {keys : List String} {depth : Nat} {use : Value → Except Failure (Option α)}
    (huse : use .null = .ok none) (l : List String) : ∀ (k : List α → Evaluation β),
      (l.mapM (fun a => do
        let v ← Evaluation.readCell depth a
        Evaluation.ofExcept (use v)) >>= fun found => k (found.filterMap id)).run.skipping keys =
      ((l.filter (· ∈ keys)).mapM (fun a => do
        let v ← Evaluation.readCell depth a
        Evaluation.ofExcept (use v)) >>=
          fun found => k (found.filterMap id)).run.skipping keys := by
  induction l with
  | nil => exact fun k => rfl
  | cons a l ih =>
      intro k
      by_cases ha : a ∈ keys
      · rw [List.filter_cons_of_pos (by simpa using ha), List.mapM_cons, List.mapM_cons]
        simp only [LawfulMonad.bind_assoc, pure_bind]
        refine (skipping_read_of_mem ha _ _).trans (Eq.trans ?_ (skipping_read_of_mem ha _ _).symm)
        refine congrArg (read a depth) (funext fun v => ?_)
        cases v with
        | error cause => rfl
        | ok v =>
            show (Evaluation.ofExcept (use v) >>= _).run.skipping keys =
              (Evaluation.ofExcept (use v) >>= _).run.skipping keys
            cases use v with
            | error cause => rfl
            | ok o =>
                cases o with
                | none => exact ih k
                | some x => exact ih fun xs => k (x :: xs)
      · rw [List.filter_cons_of_neg (by simpa using ha), List.mapM_cons]
        simp only [LawfulMonad.bind_assoc, pure_bind]
        refine (skipping_read_of_not_mem ha _ _).trans ?_
        show (Evaluation.ofExcept (use .null) >>= _).run.skipping keys = _
        rw [huse]
        exact ih k

theorem skipping_readRange {keys : List String} (hd : s.keys.Nodup) (hd' : keys.Nodup)
    (hrows : ∀ k ∈ s.keys, Address.RowReadable k) (hrows' : ∀ k ∈ keys, Address.RowReadable k)
    {depth : Nat} {first last : String} {use : Value → Except Failure (Option α)}
    (huse : use .null = .ok none)
    (hkeys : ∀ a, Covers (first, last) a → (a ∈ s.keys ↔ a ∈ keys)) :
    (readRange s depth first last use).run.skipping s.keys =
      (readRange { s with keys } depth first last use).run.skipping s.keys := by
  unfold readRange
  cases hr : Rectangle.ofTexts first last with
  | error cause => rfl
  | ok r =>
  show (Evaluation.ofExcept (r.populated s.keys) >>= _).run.skipping s.keys =
    (Evaluation.ofExcept (r.populated keys) >>= _).run.skipping s.keys
  obtain ⟨found, hf⟩ := Rectangle.populated_ok hrows (r := r)
  obtain ⟨found', hf'⟩ := Rectangle.populated_ok hrows' (r := r)
  rw [hf, hf']
  refine (skipping_mapM huse found pure).trans ?_
  rw [Rectangle.filter_populated hr hd hd' hf hf' hkeys]
  exact (skipping_mapM huse found' pure).symm

/-- **Formulas ask the same but for cells that hold nothing**, whichever other cells there are. -/
theorem skipping_outcomeAt {keys : List String} (hd : s.keys.Nodup) (hd' : keys.Nodup)
    (hrows : ∀ k ∈ s.keys, Address.RowReadable k) (hrows' : ∀ k ∈ keys, Address.RowReadable k)
    (depth : Nat) (text : String)
    (hkeys : ∀ e, parse text = .ok e → ∀ a, e.Reads a → (a ∈ s.keys ↔ a ∈ keys)) :
    (outcomeAt s depth text).skipping s.keys =
      (outcomeAt { s with keys } depth text).skipping s.keys := by
  have hseq : Sequenced fun {α} (x y : Evaluation α) =>
      x.run.skipping s.keys = y.run.skipping s.keys := by
    refine ⟨fun _ => rfl, fun {α β x y f g} hxy hfg => ?_⟩
    show (x.run.bind _).skipping s.keys = (y.run.bind _).skipping s.keys
    rw [skipping_bind, skipping_bind, hxy]
    refine congrArg _ (funext fun r => ?_)
    cases r with
    | ok a => exact hfg a
    | error cause => rfl
  have hrelates : Relates s keys (· = ·)
      (Expr.ReadsWithin fun a => a ∈ s.keys ↔ a ∈ keys) (fun _ => True)
      fun {α} (x y : Evaluation α) => x.run.skipping s.keys = y.run.skipping s.keys :=
    { hseq with
      exceeds := fun hd => congrArg s.exceeds hd
      deeper := fun cost hd => congrArg (· + cost) hd
      readCell := fun hd _ => by rw [hd]
      readRange := by
        rintro α depth _ first last use rfl hr huse _
        refine skipping_readRange hd hd' hrows hrows' huse fun a ha => ?_
        rcases hr with hr | ⟨rfl, hr⟩
        · exact hr a ha
        · exact Rectangle.eq_of_covers_self ha ▸ hr
      attempt := fun {α x y} _ hxy => by
        show (x.run.bind _).skipping s.keys = (y.run.bind _).skipping s.keys
        rw [skipping_bind, skipping_bind, hxy]
      fraction := fun _ => rfl
      integer := fun _ _ _ => rfl }
  exact hrelates.outcomeAt rfl text
    (fun e hp part hpart => Expr.readsWithin_of_mem_parts hpart (hkeys e hp)) (fun _ _ => trivial)

end Worksheet.Formula
