import Worksheet.Proofs.Completeness

/-!
# The parser reads the grammar

A formula is read as an expression exactly if it is a writing of that expression.  That writings are
read has been shown; for the converse, the text before a place is what the frames there stand for,
and an expression at that place has to have the level that the innermost frame asks for.
-/

namespace Worksheet.Formula

open Relation

/-! ## The text before a place -/

/-- Arguments of a call, last one first, each with a comma after it. -/
inductive SpellsDone : List Expr → List Char → Prop where
  | nil : SpellsDone [] []
  | cons {e : Expr} {args : List Expr} {done gap cs gap' : List Char} :
      SpellsDone args done → Gap gap → Spells 0 e cs → Gap gap' →
      SpellsDone (e :: args) (done ++ gap ++ cs ++ gap' ++ [','])

/-- `Opens frames n before`: the text `before` leaves the frames open, and an expression of level
`n` or a higher one has to follow. -/
inductive Opens : List Frame → Nat → List Char → Prop where
  | nil : Opens [] 0 []
  | operator {op : BinaryOp} {left : Expr} {frames : List Frame} {n : Nat}
      {before gap cs gap' : List Char} :
      Opens frames n before → n ≤ op.level → Gap gap → Spells op.leftLevel left cs → Gap gap' →
      Opens (.operator op left :: frames) op.rightLevel (before ++ gap ++ cs ++ gap' ++ op.symbol)
  | sign {op : SignOp} {frames : List Frame} {n : Nat} {before gap : List Char} :
      Opens frames n before → Gap gap →
      Opens (.sign op :: frames) op.level (before ++ gap ++ [op.symbol])
  | group {frames : List Frame} {n : Nat} {before gap : List Char} :
      Opens frames n before → Gap gap → Opens (.group :: frames) 0 (before ++ gap ++ ['('])
  | call {args : List Expr} {frames : List Frame} {n : Nat} {before gap opener done : List Char} :
      Opens frames n before → Gap gap → IsOpener opener → SpellsDone args done →
      Opens (.call (String.ofList opener) args :: frames) 0 (before ++ gap ++ opener ++ done)

/-- What follows the frames at a place. -/
inductive Follows : Focus → List Char → Prop where
  | operand : Follows .operand []
  | complete {e : Expr} {gap cs : List Char} :
      Gap gap → Spells 7 e cs → Follows (.complete e) (gap ++ cs)
  | cell {gap cs : List Char} :
      Gap gap → IsCell cs → Follows (.cell (String.ofList cs)) (gap ++ cs)
  | rangeEnd {gap cs gap' : List Char} :
      Gap gap → IsCell cs → Gap gap' →
      Follows (.rangeEnd (String.ofList cs)) (gap ++ cs ++ gap' ++ [':'])

/-- `Stands r before`: a reading of the text `before` has come to `r`. -/
inductive Stands : Reading → List Char → Prop where
  | after {frames : List Frame} {focus : Focus} {n : Nat} {before cs : List Char} :
      Opens frames n before → Follows focus cs → Stands ⟨frames, focus⟩ (before ++ cs)
  | firstArgument {frames : List Frame} {n : Nat} {before gap opener : List Char} :
      Opens frames n before → Gap gap → IsOpener opener →
      Stands ⟨.call (String.ofList opener) [] :: frames, .firstArgument⟩ (before ++ gap ++ opener)

theorem BinaryOp.rightLevel_le_five (op : BinaryOp) : op.rightLevel ≤ 5 := by
  unfold BinaryOp.rightLevel
  by_cases hpow : op = .pow
  · rw [if_pos hpow]
  · rw [if_neg hpow]
    have := BinaryOp.level_le_four hpow
    omega

theorem Opens.level_le_five {frames : List Frame} {n : Nat} {before : List Char}
    (h : Opens frames n before) : n ≤ 5 := by
  cases h with
  | nil => omega
  | operator => exact BinaryOp.rightLevel_le_five _
  | sign => exact le_refl 5
  | group => omega
  | call => omega

theorem SpellsDone.reverse {done : List Expr} {before : List Char} (h : SpellsDone done before) :
    ∀ {args : List Expr} {cs : List Char}, SpellsArguments args cs →
      SpellsArguments (done.reverse ++ args) (before ++ cs) := by
  induction h with
  | nil => exact fun h => h
  | @cons e done before gap cs' gap' _ hg he hg' ih =>
      intro args cs h
      have hmore := ih (.more hg he hg' h)
      rw [List.reverse_cons, List.append_assoc, List.singleton_append]
      have heq : before ++ gap ++ cs' ++ gap' ++ [','] ++ cs =
          before ++ (gap ++ cs' ++ gap' ++ [','] ++ cs) := by simp
      rw [heq]
      exact hmore

/-- Closing frames puts together a writing of what they stand for: the text is the same, and the
frames that are left ask for the level at which they were closed or a lower one. -/
theorem Opens.close {frames : List Frame} {m : Nat} {before : List Char}
    (h : Opens frames m before) :
    ∀ {n k : Nat} {e : Expr} {gap cs : List Char}, m ≤ n → k ≤ n → k ≤ 5 → Gap gap →
      Spells n e cs → ∃ frames' e' m' before' gap' cs',
        Formula.close k frames e = (frames', e') ∧ Opens frames' m' before' ∧ m' ≤ k ∧ Gap gap' ∧
        Spells k e' cs' ∧ before ++ gap ++ cs = before' ++ gap' ++ cs' := by
  induction h with
  | nil =>
      intro n k e gap cs _ hk _ hg hcs
      exact ⟨[], e, 0, [], gap, cs, rfl, .nil, by omega, hg, .loosen hk hcs, rfl⟩
  | group h hg₀ _ =>
      intro n k e gap cs _ hk _ hg hcs
      exact ⟨_, e, 0, _, gap, cs, rfl, .group h hg₀, by omega, hg, .loosen hk hcs, rfl⟩
  | call h hg₀ ho hdone _ =>
      intro n k e gap cs _ hk _ hg hcs
      exact ⟨_, e, 0, _, gap, cs, rfl, .call h hg₀ ho hdone, by omega, hg, .loosen hk hcs, rfl⟩
  | @sign op frames m before gap₀ h hg₀ ih =>
      intro n k e gap cs hm hk hk5 hg hcs
      -- every level that frames are closed at is low enough for a sign
      have hsign : Spells op.level (.sign op e) ([op.symbol] ++ gap ++ cs) :=
        .sign op hg (.loosen hm hcs)
      obtain ⟨frames', e', m', before', gap', cs', hclose, hopens, hm', hg', hcs', heq⟩ :=
        ih h.level_le_five hk5 hk5 hg₀ hsign
      refine ⟨frames', e', m', before', gap', cs', ?_, hopens, hm', hg', hcs', ?_⟩
      · rw [close_sign hk5, hclose]
      · rw [← heq]
        simp
  | @operator op left frames m before gap₀ cs₀ gap₁ h hm₀ hg₀ hleft hg₁ ih =>
      intro n k e gap cs hm hk hk5 hg hcs
      by_cases hlevel : k ≤ op.level
      -- the operator gets its right operand, and what is below it goes on to be closed
      · have hbinary : Spells op.level (.binary op left e)
            (cs₀ ++ gap₁ ++ op.symbol ++ gap ++ cs) :=
          .binary op hleft hg₁ hg (.loosen hm hcs)
        obtain ⟨frames', e', m', before', gap', cs', hclose, hopens, hm', hg', hcs', heq⟩ :=
          ih hm₀ hlevel hk5 hg₀ hbinary
        refine ⟨frames', e', m', before', gap', cs', ?_, hopens, hm', hg', hcs', ?_⟩
        · rw [close_operator hlevel, hclose]
        · rw [← heq]
          simp
      -- the operator stays open, and asks for one level more than its own
      · have hlt : op.level < k := by omega
        refine ⟨_, e, op.rightLevel, _, gap, cs, close_operator_of_lt hlt left e frames,
          .operator h hm₀ hg₀ hleft hg₁, ?_, hg, .loosen hk hcs, rfl⟩
        have hpow : op ≠ .pow := by
          rintro rfl
          have : BinaryOp.pow.level = 6 := rfl
          omega
        unfold BinaryOp.rightLevel
        rw [if_neg hpow]
        omega

/-! ## One token -/

theorem BinaryOp.eq_symbol {op : BinaryOp} {lexeme : List Char} (h : op.terminal.Matches lexeme) :
    lexeme = op.symbol := by
  rcases op with c | _ | _ | _ | _ | _ | _
  · cases c <;> exact h
  all_goals exact h

/-- A closing frame, with everything that was put together before it. -/
theorem Opens.close_zero {frames : List Frame} {n : Nat} {before gap cs : List Char} {e : Expr}
    (h : Opens frames n before) (hg : Gap gap) (hcs : Spells 7 e cs) {frames' : List Frame}
    {e' : Expr} (hclose : Formula.close 0 frames e = (frames', e')) :
    ∃ m before' gap' cs', Opens frames' m before' ∧ Gap gap' ∧ Spells 0 e' cs' ∧
      before ++ gap ++ cs = before' ++ gap' ++ cs' := by
  have h5 := h.level_le_five
  obtain ⟨_, _, m, before', gap', cs', hclose', hopens, _, hg', hcs', heq⟩ :=
    h.close (n := 7) (k := 0) (by omega) (by omega) (by omega) hg hcs
  rw [hclose] at hclose'
  cases hclose'
  exact ⟨m, before', gap', cs', hopens, hg', hcs', heq⟩

theorem Continues.stands {frames : List Frame} {n : Nat} {before gap cs gap' lexeme : List Char}
    {e : Expr} {t : Terminal} {r : Reading} (h : Continues frames e t r)
    (hopens : Opens frames n before) (hg : Gap gap) (hcs : Spells 7 e cs) (hg' : Gap gap')
    (hm : t.Matches lexeme) : Stands r (before ++ gap ++ cs ++ gap' ++ lexeme) := by
  have h5 := hopens.level_le_five
  cases h with
  | power =>
      obtain rfl : lexeme = ['^'] := hm
      have hpow : Opens (.operator .pow e :: frames) _ _ :=
        .operator hopens (h5.trans (by decide)) hg hcs hg'
      have hstands := Stands.after hpow .operand
      rw [List.append_nil] at hstands
      exact hstands
  | @operator _ op frames' e' ht hpow hclose =>
      subst ht
      obtain rfl := BinaryOp.eq_symbol hm
      have h4 := BinaryOp.level_le_four hpow
      obtain ⟨_, _, m, before', gap'', cs', hclose', hopens', hm', hg'', hcs', heq⟩ :=
        hopens.close (n := 7) (k := op.level) (by omega) (by omega) (by omega) hg hcs
      rw [hclose] at hclose'
      cases hclose'
      -- what has been closed has the level of the operator, which is what its left operand needs
      have hleft : op.leftLevel = op.level := if_neg hpow
      rw [← hleft] at hcs'
      have hstands := Stands.after (.operator hopens' hm' hg'' hcs' hg') .operand
      rw [List.append_nil] at hstands
      rw [heq]
      exact hstands
  | percent =>
      obtain rfl : lexeme = ['%'] := hm
      have hstands := Stands.after hopens (.complete hg (.percent hcs hg'))
      simp only [List.append_assoc] at hstands ⊢
      exact hstands
  | comma hclose =>
      obtain rfl : lexeme = [','] := hm
      obtain ⟨m, _, gap'', cs', hopens', hg'', hcs', heq⟩ := hopens.close_zero hg hcs hclose
      cases hopens' with
      | call hbefore hgap ho hdone =>
          have hstands := Stands.after (.call hbefore hgap ho (.cons hdone hg'' hcs' hg')) .operand
          rw [heq]
          simp only [List.append_assoc, List.append_nil] at hstands ⊢
          exact hstands
  | closeGroup hclose =>
      obtain rfl : lexeme = [')'] := hm
      obtain ⟨m, _, gap'', cs', hopens', hg'', hcs', heq⟩ := hopens.close_zero hg hcs hclose
      cases hopens' with
      | group hbefore hgap =>
          have hgroup := SpellsAs.group hg'' hcs' hg'
          have hstands := Stands.after hbefore (.complete hgap (.loosen (by omega) hgroup))
          rw [heq]
          simp only [List.append_assoc] at hstands ⊢
          exact hstands
  | closeCall hclose =>
      obtain rfl : lexeme = [')'] := hm
      obtain ⟨m, _, gap'', cs', hopens', hg'', hcs', heq⟩ := hopens.close_zero hg hcs hclose
      cases hopens' with
      | call hbefore hgap ho hdone =>
          have hcall := SpellsAs.call ho (hdone.reverse (.single hg'' hcs' hg'))
          rw [← List.reverse_cons] at hcall
          have hstands := Stands.after hbefore (.complete hgap (.loosen (by omega) hcall))
          rw [heq]
          simp only [List.append_assoc] at hstands ⊢
          exact hstands

theorem Stands.opens {frames : List Frame} {f : Focus} {before : List Char}
    (h : Stands ⟨frames, f⟩ before) (hf : f.StartsExpr) : ∃ n, Opens frames n before := by
  cases h with
  | after hopens hfollows =>
      cases hfollows with
      | operand =>
          rw [List.append_nil]
          exact ⟨_, hopens⟩
      | complete => rcases hf with hf | hf <;> cases hf
      | cell => rcases hf with hf | hf <;> cases hf
      | rangeEnd => rcases hf with hf | hf <;> cases hf
  | firstArgument hopens hg ho =>
      have hcall := Opens.call hopens hg ho .nil
      rw [List.append_nil] at hcall
      exact ⟨0, hcall⟩

/-- What one token preserves. -/
theorem Stands.takes {r r' : Reading} {t : Terminal} {before gap lexeme : List Char}
    (h : Stands r before) (hg : Gap gap) (hm : t.Matches lexeme)
    (htake : r.Takes t (String.ofList lexeme) r') : Stands r' (before ++ gap ++ lexeme) := by
  -- a token where an expression starts follows what is open, or it opens more
  have hprimary : ∀ {frames f e}, Stands ⟨frames, f⟩ before → f.StartsExpr → Spells 8 e lexeme →
      Stands ⟨frames, .complete e⟩ (before ++ gap ++ lexeme) := by
    intro frames f e h hf hcs
    obtain ⟨n, hopens⟩ := h.opens hf
    rw [List.append_assoc]
    exact .after hopens (.complete hg (.loosen (by omega) hcs))
  have hframe : ∀ {frames n}, Opens frames n (before ++ gap ++ lexeme) →
      Stands ⟨frames, .operand⟩ (before ++ gap ++ lexeme) := by
    intro frames n hopens
    have hstands := Stands.after hopens .operand
    rw [List.append_nil] at hstands
    exact hstands
  cases htake with
  | number hf => exact hprimary h hf (.number hm)
  | text hf => exact hprimary h hf (.text hm)
  | bool hf =>
      rcases hm with rfl | rfl
      · exact hprimary h hf (.bool true)
      · exact hprimary h hf (.bool false)
  | cell hf =>
      obtain ⟨n, hopens⟩ := h.opens hf
      rw [List.append_assoc]
      exact .after hopens (.cell hg hm)
  | call hf =>
      obtain ⟨n, hopens⟩ := h.opens hf
      exact .firstArgument hopens hg hm
  | opening hf =>
      obtain ⟨n, hopens⟩ := h.opens hf
      obtain rfl : lexeme = ['('] := hm
      exact hframe (.group hopens hg)
  | @minus frames _ _ hf =>
      obtain ⟨n, hopens⟩ := h.opens hf
      obtain rfl : lexeme = ['-'] := hm
      have hsign : Opens (.sign .neg :: frames) _ _ := .sign hopens hg
      exact hframe hsign
  | @plus frames _ _ hf =>
      obtain ⟨n, hopens⟩ := h.opens hf
      obtain rfl : lexeme = ['+'] := hm
      have hsign : Opens (.sign .pos :: frames) _ _ := .sign hopens hg
      exact hframe hsign
  | noArguments =>
      obtain rfl : lexeme = [')'] := hm
      -- only a call that has just been opened has no arguments
      cases h with
      | after _ hfollows => cases hfollows
      | firstArgument hopens hg₀ ho =>
          have hstands := Stands.after hopens
            (.complete hg₀ (.loosen (by omega) (.callNone ho hg)))
          simp only [List.append_assoc] at hstands ⊢
          exact hstands
  | goOn hc =>
      cases h with
      | after hopens hfollows =>
          cases hfollows with
          | complete hg₀ hcs =>
              have hstands := hc.stands hopens hg₀ hcs hg hm
              simp only [List.append_assoc] at hstands ⊢
              exact hstands
  | goOnCell hc =>
      cases h with
      | after hopens hfollows =>
          cases hfollows with
          | cell hg₀ hcs =>
              have hstands := hc.stands hopens hg₀ (.loosen (by omega) (.cell hcs)) hg hm
              simp only [List.append_assoc] at hstands ⊢
              exact hstands
  | colon =>
      obtain rfl : lexeme = [':'] := hm
      cases h with
      | after hopens hfollows =>
          cases hfollows with
          | cell hg₀ hcs =>
              have hstands := Stands.after hopens (.rangeEnd hg₀ hcs hg)
              simp only [List.append_assoc] at hstands ⊢
              exact hstands
  | rangeEnd =>
      cases h with
      | after hopens hfollows =>
          cases hfollows with
          | rangeEnd hg₀ hcs hg₁ =>
              have hstands := Stands.after hopens
                (.complete hg₀ (.loosen (by omega) (.range hcs ⟨hg₁, hg⟩ hm)))
              simp only [List.append_assoc] at hstands ⊢
              exact hstands

/-! ## Whole texts -/

/-- What reading a text preserves: what is read stands for the text up to there. -/
theorem Stands.steps {r r' : Reading} {before cs rest : List Char} (h : Stands r before)
    (hsteps : Reading.Steps (r, cs) (r', rest)) :
    ∃ before', Stands r' before' ∧ before ++ cs = before' ++ rest := by
  generalize hs : (r', rest) = s at hsteps
  induction hsteps generalizing r' rest with
  | refl =>
      cases hs
      exact ⟨before, h, rfl⟩
  | @tail s _ _ hstep ih =>
      subst hs
      cases hstep with
      | token hg hn ht =>
          obtain ⟨before', hstands, heq⟩ := ih rfl
          refine ⟨_, hstands.takes hg (matches_of_nextLexeme hn).1 ht, ?_⟩
          rw [heq]
          simp

/-- A reading that has an expression ends with the whole of it, if closing leaves no frame. -/
theorem Reading.finish_complete {frames : List Frame} {e' e : Expr} :
    Reading.finish ⟨frames, .complete e'⟩ = some e ↔ close 0 frames e' = ([], e) := by
  unfold Reading.finish
  dsimp only
  constructor
  · intro h
    split at h
    case h_1 hc =>
        obtain rfl := Option.some.inj h
        exact hc
    case h_2 => cases h
  · intro h
    rw [h]

theorem Reading.finish_iff {r : Reading} {e : Expr} :
    r.finish = some e ↔ ∃ e', r.focus.expr? = some e' ∧ close 0 r.frames e' = ([], e) := by
  obtain ⟨frames, f⟩ := r
  cases f with
  | complete e' =>
      constructor
      · exact fun h => ⟨e', rfl, Reading.finish_complete.mp h⟩
      · rintro ⟨_, ⟨⟩, h⟩
        exact Reading.finish_complete.mpr h
  | cell address =>
      constructor
      · exact fun h => ⟨.cell address, rfl, Reading.finish_complete.mp h⟩
      · rintro ⟨_, ⟨⟩, h⟩
        exact Reading.finish_complete.mpr h
  | operand => simp [Reading.finish, Focus.expr?]
  | firstArgument => simp [Reading.finish, Focus.expr?]
  | rangeEnd first => simp [Reading.finish, Focus.expr?]

theorem Follows.spells {f : Focus} {e : Expr} {cs : List Char} (h : Follows f cs)
    (he : f.expr? = some e) : ∃ gap body, Gap gap ∧ Spells 7 e body ∧ cs = gap ++ body := by
  cases h with
  | operand => cases he
  | complete hg hcs =>
      obtain rfl := Option.some.inj he
      exact ⟨_, _, hg, hcs, rfl⟩
  | cell hg hcs =>
      obtain rfl := Option.some.inj he
      exact ⟨_, _, hg, .loosen (by omega) (.cell hcs), rfl⟩
  | rangeEnd => cases he

/-- What has been read when nothing is left open is a writing. -/
theorem Stands.written {r : Reading} {before : List Char} {e : Expr} (h : Stands r before)
    (hf : r.finish = some e) : Written e ('=' :: before) := by
  obtain ⟨e', he, hclose⟩ := Reading.finish_iff.mp hf
  cases h with
  | after hopens hfollows =>
      obtain ⟨gap, body, hg, hbody, rfl⟩ := hfollows.spells he
      obtain ⟨_, _, gap', cs', hopens', hg', hcs', heq⟩ := hopens.close_zero hg hbody hclose
      cases hopens' with
      | nil =>
          refine ⟨gap', cs', hg', hcs', ?_⟩
          rw [← List.append_assoc, heq]
          rfl
  | firstArgument => cases he

theorem parse_iff {text : String} {e : Expr} :
    parse text = .ok e ↔ ∃ cs, Text.trimBlanks text.toList = '=' :: cs ∧
      Reading.readText ⟨[], .operand⟩ 1 2 cs = .ok e := by
  unfold parse
  constructor
  · intro h
    split at h
    case h_1 cs hcs => exact ⟨cs, hcs, h⟩
    case h_2 => cases h
  · rintro ⟨cs, hcs, h⟩
    rw [hcs]
    exact h

theorem parse_of_written {text : String} {e : Expr}
    (h : Written e (Text.trimBlanks text.toList)) : parse text = .ok e := by
  obtain ⟨gap, body, hg, hbody, heq⟩ := h
  have hrest : Delimits [] := ⟨fun _ hc => absurd hc (by simp), by simp⟩
  have hstable : Stable 0 [] := fun _ _ _ _ => rfl
  obtain ⟨r, hr, e', he, hclose, _⟩ := hbody.reads [] .operand gap [] (.inl rfl) hg hstable hrest
  have hfinish : r.finish = some e := Reading.finish_iff.mpr ⟨e', he, hclose 0 (by omega)⟩
  rw [List.append_nil] at hr
  refine parse_iff.mpr ⟨gap ++ body, heq, ?_⟩
  exact Reading.readText_of_steps hr (fun _ hc => absurd hc List.not_mem_nil) hfinish 1 2

/-- No blanks are left at the end of a text without the blanks around it. -/
theorem gap_eq_nil_of_trimBlanks {cs before gap : List Char}
    (h : Text.trimBlanks cs = before ++ gap) (hg : Gap gap) : gap = [] := by
  by_contra hne
  obtain ⟨front, c, rfl, hc⟩ := exists_last hne hg
  have hhead := List.head?_dropWhile_not Text.isBlank (cs.dropWhile Text.isBlank).reverse
  have hrev := congrArg List.reverse h
  unfold Text.trimBlanks Text.trimRight at hrev
  rw [List.reverse_reverse] at hrev
  rw [hrev] at hhead
  simp only [List.reverse_append, List.reverse_cons, List.reverse_nil, List.nil_append,
    List.cons_append, List.head?_cons] at hhead
  exact absurd (isBlank_of_isGap hc) (by simpa using hhead)

theorem written_of_parse {text : String} {e : Expr} (h : parse text = .ok e) :
    Written e (Text.trimBlanks text.toList) := by
  obtain ⟨cs, htrim, hread⟩ := parse_iff.mp h
  obtain ⟨r, gap, hsteps, hg, hf⟩ := Reading.steps_of_readText hread
  have hstart : Stands ⟨[], .operand⟩ [] := .after .nil .operand
  obtain ⟨before, hstands, heq⟩ := hstart.steps hsteps
  rw [List.nil_append] at heq
  rw [heq, ← List.cons_append] at htrim
  obtain rfl := gap_eq_nil_of_trimBlanks htrim hg
  rw [htrim, List.append_nil]
  exact hstands.written hf

/-- The grammar is not ambiguous. -/
theorem WrittenAs.unique {e e' : Expr} {cs : List Char} (h : Written e cs) (h' : Written e' cs) :
    e = e' := by
  have hparse : ∀ {e₀}, Written e₀ cs → parse (String.ofList cs) = .ok e₀ := by
    intro e₀ h₀
    refine parse_of_written ?_
    rw [String.toList_ofList, h₀.trimBlanks]
    exact h₀
  have heq := hparse h
  rw [hparse h'] at heq
  exact (Except.ok.inj heq).symm

/-- **A formula is read as an expression exactly if, without the blanks around it, it is a writing
of that expression.**  A writing has no blanks around it. -/
theorem parse_iff_written (e : Expr) :
    (∀ text : String, parse text = .ok e ↔ Written e (Text.trimBlanks text.toList)) ∧
      ∀ text : String, Written e text.toList → parse text = .ok e := by
  refine ⟨fun text => ⟨written_of_parse, parse_of_written⟩, fun text h => parse_of_written ?_⟩
  rw [h.trimBlanks]
  exact h

theorem isNumber_digit {c : Char} (h : c.isDigit) : IsNumber [c] :=
  ⟨[c], [], rfl, .inl ⟨List.cons_ne_nil _ _, by simpa using h⟩, .inl rfl⟩

theorem written_product :
    Written (.binary .mul (.number "2") (.binary .add (.cell "A1") (.number "1")))
      "=2 * (A1 + 1)".toList := by
  have hcell : IsCell ['A', '1'] :=
    ⟨['A'], ['1'], rfl, by decide, forall_mem_of_all (by decide), by decide,
      forall_mem_of_all (by decide)⟩
  have hspace : Gap [' '] := forall_mem_of_all (by decide)
  have hnone : Gap [] := forall_mem_of_all (by decide)
  have hsum : Spells 3 (.binary .add (.cell "A1") (.number "1")) ['A', '1', ' ', '+', ' ', '1'] :=
    .binary .add (.loosen (by decide) (.cell hcell)) hspace hspace
      (.loosen (by decide) (.number (isNumber_digit (by decide))))
  have hgroup : Spells 8 (.binary .add (.cell "A1") (.number "1"))
      ['(', 'A', '1', ' ', '+', ' ', '1', ')'] :=
    .group hnone (.loosen (by omega) hsum) hnone
  have hproduct : Spells 4 (.binary .mul (.number "2") (.binary .add (.cell "A1") (.number "1")))
      ['2', ' ', '*', ' ', '(', 'A', '1', ' ', '+', ' ', '1', ')'] :=
    .binary .mul (.loosen (by decide) (.number (isNumber_digit (by decide)))) hspace hspace
      (.loosen (by decide) hgroup)
  exact ⟨[], _, hnone, .loosen (by omega) hproduct, rfl⟩

/-- A product with a sum in parentheses, for which they are needed. -/
theorem parse_product : parse "=2 * (A1 + 1)" =
    .ok (.binary .mul (.number "2") (.binary .add (.cell "A1") (.number "1"))) :=
  (parse_iff_written _).2 _ written_product

end Worksheet.Formula
