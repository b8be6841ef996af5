import Worksheet.Proofs.Grammar
import Worksheet.Proofs.Reading

/-!
# Every writing is read

A writing of an expression is read as that expression, whatever stands around it.  What has been
read up to its end need not be put together yet: the frames that the writing has opened are still
there, and closing them gives the expression.
-/

namespace Worksheet.Formula

open Relation

/-! ## Frames and what is read -/

/-- The expression at the end of a reading, if there is one. -/
def Focus.expr? : Focus → Option Expr
  | complete e => some e
  | cell address => some (.cell address)
  | _ => none

/-- Frames that an operator of level `n` or a higher one, other than a power, leaves open. -/
def Stable (n : Nat) (frames : List Frame) : Prop :=
  ∀ k e, n ≤ k → k ≤ 4 → close k frames e = (frames, e)

theorem Stable.mono {m n : Nat} {frames : List Frame} (h : Stable m frames) (hmn : m ≤ n) :
    Stable n frames :=
  fun k e hk => h k e (hmn.trans hk)

/-- No operator closes a frame where a sign, a power or a percent sign asks for an operand. -/
theorem stable_of_five {n : Nat} (hn : 5 ≤ n) (frames : List Frame) : Stable n frames := by
  intro k e hk hk'
  omega

theorem stable_group {n : Nat} {frames : List Frame} : Stable n (.group :: frames) :=
  fun _ _ _ _ => rfl

theorem stable_call {n : Nat} {opener : String} {args : List Expr} {frames : List Frame} :
    Stable n (.call opener args :: frames) :=
  fun _ _ _ _ => rfl

theorem close_operator {k : Nat} {op : BinaryOp} (hk : k ≤ op.level) (left e : Expr)
    (frames : List Frame) :
    close k (.operator op left :: frames) e = close k frames (.binary op left e) := by
  rw [close, if_pos hk]

theorem close_operator_of_lt {k : Nat} {op : BinaryOp} (hk : op.level < k) (left e : Expr)
    (frames : List Frame) :
    close k (.operator op left :: frames) e = (.operator op left :: frames, e) := by
  rw [close, if_neg (by omega)]

theorem close_sign {k : Nat} {op : SignOp} (hk : k ≤ op.level) (e : Expr) (frames : List Frame) :
    close k (.sign op :: frames) e = close k frames (.sign op e) := by
  rw [close, if_pos hk]

/-- A reading that has come to the end of the expression `e` at a place of level `n`.  Operators
that bind less tightly than the place asks for do not see what is still open. -/
def Reading.Ends (r : Reading) (n : Nat) (frames : List Frame) (e : Expr) : Prop :=
  ∃ e', r.focus.expr? = some e' ∧ (∀ k ≤ min n 5, close k r.frames e' = close k frames e) ∧
    (7 ≤ n → r.frames = frames ∧ e' = e)

theorem Reading.ends_of_expr {frames : List Frame} {f : Focus} {e : Expr} (h : f.expr? = some e)
    (n : Nat) : Reading.Ends ⟨frames, f⟩ n frames e :=
  ⟨e, h, fun _ _ => rfl, fun _ => ⟨rfl, rfl⟩⟩

theorem Reading.Ends.loosen {r : Reading} {m n : Nat} {frames : List Frame} {e : Expr}
    (h : r.Ends n frames e) (hmn : m ≤ n) : r.Ends m frames e := by
  obtain ⟨e', he, hclose, hwhole⟩ := h
  exact ⟨e', he, fun k hk => hclose k (by omega), fun hm => hwhole (hm.trans hmn)⟩

/-- Taking a token after an expression, whether it is a cell or not. -/
theorem Reading.Takes.of_continues {r r' : Reading} {e : Expr} {t : Terminal}
    (he : r.focus.expr? = some e) (hc : Continues r.frames e t r') (text : String) :
    r.Takes t text r' := by
  obtain ⟨frames, f⟩ := r
  cases f with
  | complete e' =>
      obtain rfl := Option.some.inj he
      exact .goOn hc
  | cell address =>
      obtain rfl := Option.some.inj he
      exact .goOnCell hc
  | operand => cases he
  | firstArgument => cases he
  | rangeEnd => cases he

theorem isGap_of_space {c : Char} (h : (c == ' ' || c == '\t') = true) : isGap c := by
  unfold isGap
  rcases Bool.or_eq_true_iff.mp h with h | h
  · simp [h]
  · simp [h]

theorem delimits_of {gap : List Char} (hg : Gap gap) {c : Char} (hc : IsSymbol c)
    (rest : List Char) : Delimits (gap ++ c :: rest) := by
  obtain ⟨hname, _, hblank, hopen⟩ := hc
  induction gap with
  | nil =>
      refine ⟨?_, ?_⟩
      · intro d hd
        obtain rfl := Option.some.inj hd
        exact hname
      · have hspace : ¬ (c == ' ' || c == '\t') = true :=
          fun h => hblank (isBlank_of_isGap (isGap_of_space h))
        rw [List.nil_append, List.dropWhile_cons, if_neg hspace]
        exact fun h => hopen (Option.some.inj h)
  | cons b gap ih =>
      have hb : isGap b := hg b List.mem_cons_self
      refine ⟨?_, ?_⟩
      · intro d hd
        obtain rfl := Option.some.inj hd
        exact fun h => not_isGap_of_isNameChar h hb
      · by_cases hspace : (b == ' ' || b == '\t') = true
        · rw [List.cons_append, List.dropWhile_cons, if_pos hspace]
          exact (ih fun d hd => hg d (List.mem_cons_of_mem _ hd)).opens
        · rw [List.cons_append, List.dropWhile_cons, if_neg hspace]
          rintro ⟨⟩
          exact absurd hb (by decide)

/-- One token of a writing is read where an expression starts. -/
theorem Reading.step_operand {frames : List Frame} {f : Focus} {r : Reading} {t : Terminal}
    {gap cs rest : List Char} (hf : f.StartsExpr) (hg : Gap gap)
    (ht : t ∈ Expected.operand.terminals) (hm : t.Matches cs)
    (hrest : t.IsOpenEnded → Delimits rest)
    (htake : Reading.Takes ⟨frames, f⟩ t (String.ofList cs) r) :
    Reading.Step (⟨frames, f⟩, gap ++ (cs ++ rest)) (r, rest) := by
  obtain ⟨hoperand, hfirst⟩ := nextLexeme_of_operand ht hm hrest
  refine .token hg ?_ htake
  rcases hf with rfl | rfl
  · exact hoperand
  · exact hfirst

/-- What opens something is read where an expression starts. -/
theorem Reading.step_start {frames : List Frame} {f : Focus} {r : Reading} {t : Terminal}
    {gap cs : List Char} (hf : f.StartsExpr) (hg : Gap gap)
    (ht : t = .call ∨ t = .opening ∨ t = .minus ∨ t = .plus) (hm : t.Matches cs)
    (htake : Reading.Takes ⟨frames, f⟩ t (String.ofList cs) r) (rest : List Char) :
    Reading.Step (⟨frames, f⟩, gap ++ (cs ++ rest)) (r, rest) := by
  refine Reading.step_operand hf hg ?_ hm ?_ htake
  · rcases ht with rfl | rfl | rfl | rfl <;> decide
  · rintro (rfl | rfl | rfl)
    · rcases ht with h | h | h | h <;> cases h
    · rcases ht with h | h | h | h <;> cases h
    · rcases ht with h | h | h | h <;> cases h

/-- One token of a writing is read after an expression. -/
theorem Reading.step_operator {r r' : Reading} {e : Expr} {t : Terminal} {gap cs rest : List Char}
    (he : r.focus.expr? = some e) (hg : Gap gap) (hc : Continues r.frames e t r')
    (ht : t ∈ Expected.operator.terminals) (hm : t.Matches cs)
    (hrest : t = .less ∨ t = .greater → ∀ c ∈ rest.head?, c ≠ '=' ∧ c ≠ '>') :
    Reading.Step (r, gap ++ (cs ++ rest)) (r', rest) := by
  obtain ⟨hoperator, hcell⟩ := nextLexeme_of_operator ht hm hrest
  refine .token hg ?_ (.of_continues he hc _)
  obtain ⟨frames, f⟩ := r
  cases f with
  | complete => exact hoperator
  | cell => exact hcell
  | operand => cases he
  | firstArgument => cases he
  | rangeEnd => cases he

/-! ## Every way to write an expression -/

/-- One token of a writing that ends an operand is read after it. -/
theorem Reading.step_end {r r' : Reading} {e : Expr} {t : Terminal} {gap cs : List Char}
    (he : r.focus.expr? = some e) (hg : Gap gap) (hc : Continues r.frames e t r')
    (ht : t = .percent ∨ t = .comma ∨ t = .closing) (hm : t.Matches cs) (rest : List Char) :
    Reading.Step (r, gap ++ (cs ++ rest)) (r', rest) := by
  refine Reading.step_operator he hg hc ?_ hm ?_
  · rcases ht with rfl | rfl | rfl <;> decide
  · rintro (rfl | rfl)
    · rcases ht with h | h | h <;> cases h
    · rcases ht with h | h | h <;> cases h

/-- `cs` is read as `e` at every place of level `n`. -/
def Reads (n : Nat) (e : Expr) (cs : List Char) : Prop :=
  ∀ (frames : List Frame) (f : Focus) (gap rest : List Char),
    f.StartsExpr → Gap gap → Stable n frames → Delimits rest →
    ∃ r, Reading.Steps (⟨frames, f⟩, gap ++ (cs ++ rest)) (r, rest) ∧ r.Ends n frames e

/-- `cs` is read as the last arguments of a call. -/
def ReadsArguments (args : List Expr) (cs : List Char) : Prop :=
  ∀ (opener : String) (done : List Expr) (frames : List Frame) (f : Focus) (rest : List Char),
    f.StartsExpr →
    Reading.Steps (⟨.call opener done :: frames, f⟩, cs ++ rest)
      (⟨frames, .complete (.call opener (done.reverse ++ args))⟩, rest)

theorem Reads.loosen {m n : Nat} {e : Expr} {cs : List Char} (h : Reads n e cs) (hmn : m ≤ n) :
    Reads m e cs := by
  intro frames f gap rest hf hg hs hrest
  obtain ⟨r, hr, hends⟩ := h frames f gap rest hf hg (hs.mono hmn) hrest
  exact ⟨r, hr, hends.loosen hmn⟩

/-- An expression of one token. -/
theorem reads_token {t : Terminal} {e : Expr} {cs : List Char} {f' : Focus} (n : Nat)
    (ht : t ∈ Expected.operand.terminals) (hm : t.Matches cs) (he : f'.expr? = some e)
    (htake : ∀ {frames f}, Focus.StartsExpr f →
      Reading.Takes ⟨frames, f⟩ t (String.ofList cs) ⟨frames, f'⟩) : Reads n e cs := by
  intro frames f gap rest hf hg _ hrest
  exact ⟨⟨frames, f'⟩, .single (Reading.step_operand hf hg ht hm (fun _ => hrest) (htake hf)),
    Reading.ends_of_expr he n⟩

theorem reads_bool (b : Bool) : Reads 8 (.bool b) (boolText b) := by
  have htext : (String.ofList (boolText b) == "TRUE") = b := by cases b <;> decide
  have hm : Terminal.bool.Matches (boolText b) := by
    cases b with
    | true => exact .inl rfl
    | false => exact .inr rfl
  have htake : ∀ {frames f}, Focus.StartsExpr f →
      Reading.Takes ⟨frames, f⟩ .bool (String.ofList (boolText b))
        ⟨frames, .complete (.bool b)⟩ := by
    intro frames f hf
    have h : Reading.Takes ⟨frames, f⟩ .bool (String.ofList (boolText b)) _ := .bool hf
    rw [htext] at h
    exact h
  exact reads_token 8 (by decide) hm rfl htake

theorem reads_range {first last gap gap' : List Char} (hfirst : IsCell first) (hg : Gap gap)
    (hg' : Gap gap') (hlast : IsCell last) :
    Reads 8 (.range (String.ofList first) (String.ofList last))
      (first ++ gap ++ [':'] ++ gap' ++ last) := by
  intro frames f gap₀ rest hf hg₀ _ hrest
  have hcolon : Delimits (gap ++ ':' :: (gap' ++ (last ++ rest))) :=
    delimits_of hg (by decide) _
  have hstart : Reading.Step
      (⟨frames, f⟩, gap₀ ++ (first ++ (gap ++ ':' :: (gap' ++ (last ++ rest)))))
      (⟨frames, .cell (String.ofList first)⟩, gap ++ ':' :: (gap' ++ (last ++ rest))) :=
    Reading.step_operand hf hg₀ (t := .cell) (by decide) hfirst (fun _ => hcolon) (.cell hf)
  have hmiddle : Reading.Step
      (⟨frames, .cell (String.ofList first)⟩, gap ++ ([':'] ++ (gap' ++ (last ++ rest))))
      (⟨frames, .rangeEnd (String.ofList first)⟩, gap' ++ (last ++ rest)) :=
    .token hg rfl .colon
  have hend : Reading.Step (⟨frames, .rangeEnd (String.ofList first)⟩, gap' ++ (last ++ rest))
      (⟨frames, .complete (.range (String.ofList first) (String.ofList last))⟩, rest) :=
    .token hg'
      (nextLexeme_of_firstMatch (firstMatch_cons_some (lexeme_of_isCell hlast hrest.stops)))
      .rangeEnd
  refine ⟨⟨frames, .complete _⟩, ?_, Reading.ends_of_expr rfl 8⟩
  simp only [List.append_assoc]
  exact .head hstart (.head hmiddle (.single hend))

theorem reads_group {e : Expr} {gap cs gap' : List Char} (hg : Gap gap) (hcs : Reads 0 e cs)
    (hg' : Gap gap') : Reads 8 e (['('] ++ gap ++ cs ++ gap' ++ [')']) := by
  intro frames f gap₀ rest hf hg₀ _ _
  have hclosing : Delimits (gap' ++ ([')'] ++ rest)) :=
    delimits_of hg' (by decide) rest
  have hstart : Reading.Step
      (⟨frames, f⟩, gap₀ ++ (['('] ++ (gap ++ (cs ++ (gap' ++ ([')'] ++ rest))))))
      (⟨.group :: frames, .operand⟩, gap ++ (cs ++ (gap' ++ ([')'] ++ rest)))) :=
    Reading.step_start hf hg₀ (t := .opening) (by decide) rfl (.opening hf) _
  obtain ⟨r, hr, e', he, hclose, _⟩ :=
    hcs (.group :: frames) .operand gap _ (.inl rfl) hg stable_group hclosing
  have hc : Continues r.frames e' .closing ⟨frames, .complete e⟩ :=
    .closeGroup (hclose 0 (by omega))
  have hend : Reading.Step (r, gap' ++ ([')'] ++ rest)) (⟨frames, .complete e⟩, rest) :=
    Reading.step_end he hg' hc (by decide) rfl _
  refine ⟨⟨frames, .complete e⟩, ?_, Reading.ends_of_expr rfl 8⟩
  simp only [List.append_assoc]
  exact .head hstart (hr.trans (.single hend))

/-- What opens a call is read, and the first argument or a closing parenthesis comes next. -/
theorem Reading.step_opener {frames : List Frame} {f : Focus} {gap opener : List Char}
    (hf : f.StartsExpr) (hg : Gap gap) (ho : IsOpener opener) (rest : List Char) :
    Reading.Step (⟨frames, f⟩, gap ++ (opener ++ rest))
      (⟨.call (String.ofList opener) [] :: frames, .firstArgument⟩, rest) :=
  Reading.step_start hf hg (t := .call) (by decide) ho (.call hf) rest

theorem reads_callNone {opener gap : List Char} (ho : IsOpener opener) (hg : Gap gap) :
    Reads 8 (.call (String.ofList opener) []) (opener ++ gap ++ [')']) := by
  intro frames f gap₀ rest hf hg₀ _ _
  have hend : Reading.Step
      (⟨.call (String.ofList opener) [] :: frames, .firstArgument⟩, gap ++ ([')'] ++ rest))
      (⟨frames, .complete (.call (String.ofList opener) [])⟩, rest) :=
    .token hg rfl .noArguments
  refine ⟨⟨frames, .complete _⟩, ?_, Reading.ends_of_expr rfl 8⟩
  simp only [List.append_assoc]
  exact .head (Reading.step_opener hf hg₀ ho _) (.single hend)

theorem reads_call {opener cs : List Char} {args : List Expr} (ho : IsOpener opener)
    (hcs : ReadsArguments args cs) :
    Reads 8 (.call (String.ofList opener) args) (opener ++ cs) := by
  intro frames f gap₀ rest hf hg₀ _ _
  refine ⟨⟨frames, .complete _⟩, ?_, Reading.ends_of_expr rfl 8⟩
  rw [List.append_assoc]
  exact .head (Reading.step_opener hf hg₀ ho _) (hcs _ [] frames _ rest (.inr rfl))

theorem readsArguments_single {e : Expr} {gap cs gap' : List Char} (hg : Gap gap)
    (hcs : Reads 0 e cs) (hg' : Gap gap') : ReadsArguments [e] (gap ++ cs ++ gap' ++ [')']) := by
  intro opener done frames f rest hf
  have hclosing : Delimits (gap' ++ ([')'] ++ rest)) :=
    delimits_of hg' (by decide) rest
  obtain ⟨r, hr, e', he, hclose, _⟩ :=
    hcs (.call opener done :: frames) f gap _ hf hg stable_call hclosing
  have hc : Continues r.frames e' .closing
      ⟨frames, .complete (.call opener (e :: done).reverse)⟩ :=
    .closeCall (hclose 0 (by omega))
  rw [List.reverse_cons] at hc
  have hend : Reading.Step (r, gap' ++ ([')'] ++ rest))
      (⟨frames, .complete (.call opener (done.reverse ++ [e]))⟩, rest) :=
    Reading.step_end he hg' hc (by decide) rfl _
  simp only [List.append_assoc]
  exact hr.trans (.single hend)

theorem readsArguments_more {e : Expr} {es : List Expr} {gap cs gap' cs' : List Char}
    (hg : Gap gap) (hcs : Reads 0 e cs) (hg' : Gap gap') (hcs' : ReadsArguments es cs') :
    ReadsArguments (e :: es) (gap ++ cs ++ gap' ++ [','] ++ cs') := by
  intro opener done frames f rest hf
  have hcomma : Delimits (gap' ++ ([','] ++ (cs' ++ rest))) :=
    delimits_of hg' (by decide) _
  obtain ⟨r, hr, e', he, hclose, _⟩ :=
    hcs (.call opener done :: frames) f gap _ hf hg stable_call hcomma
  have hc : Continues r.frames e' .comma ⟨.call opener (e :: done) :: frames, .operand⟩ :=
    .comma (hclose 0 (by omega))
  have hmiddle : Reading.Step (r, gap' ++ ([','] ++ (cs' ++ rest)))
      (⟨.call opener (e :: done) :: frames, .operand⟩, cs' ++ rest) :=
    Reading.step_end he hg' hc (by decide) rfl _
  have hmore := hcs' opener (e :: done) frames .operand rest (.inl rfl)
  rw [List.reverse_cons, List.append_assoc, List.singleton_append] at hmore
  simp only [List.append_assoc]
  exact hr.trans (.head hmiddle hmore)

theorem reads_percent {e : Expr} {cs gap : List Char} (hcs : Reads 7 e cs) (hg : Gap gap) :
    Reads 7 (.percent e) (cs ++ gap ++ ['%']) := by
  intro frames f gap₀ rest hf hg₀ _ _
  have hsign : Delimits (gap ++ (['%'] ++ rest)) :=
    delimits_of hg (by decide) rest
  -- at level 7 nothing is left open, so the percent sign belongs to all of the operand
  obtain ⟨r, hr, e', he, _, hwhole⟩ :=
    hcs frames f gap₀ _ hf hg₀ (stable_of_five (by omega) frames) hsign
  obtain ⟨rfl, rfl⟩ := hwhole (by omega)
  have hend : Reading.Step (r, gap ++ (['%'] ++ rest))
      (⟨r.frames, .complete (.percent e')⟩, rest) :=
    Reading.step_end he hg .percent (by decide) rfl _
  refine ⟨⟨r.frames, .complete _⟩, ?_, Reading.ends_of_expr rfl 7⟩
  simp only [List.append_assoc]
  exact hr.trans (.single hend)

/-- What follows an operand that is still open also ends the expression around it. -/
theorem Reading.Ends.of_operand {r : Reading} {n m : Nat} {frames : List Frame} {frame : Frame}
    {e e' : Expr} (h : r.Ends n (frame :: frames) e)
    (hclose : ∀ k ≤ min m 5, close k (frame :: frames) e = close k frames e')
    (hmn : min m 5 ≤ n) (hm : m < 7) : r.Ends m frames e' := by
  obtain ⟨e'', he, hends, _⟩ := h
  refine ⟨e'', he, fun k hk => ?_, fun h7 => absurd h7 (by omega)⟩
  rw [hends k (by omega), hclose k hk]

theorem reads_sign (op : SignOp) {e : Expr} {gap cs : List Char} (hg : Gap gap)
    (hcs : Reads op.level e cs) : Reads op.level (.sign op e) ([op.symbol] ++ gap ++ cs) := by
  intro frames f gap₀ rest hf hg₀ _ hrest
  have hstart : Reading.Step (⟨frames, f⟩, gap₀ ++ ([op.symbol] ++ (gap ++ (cs ++ rest))))
      (⟨.sign op :: frames, .operand⟩, gap ++ (cs ++ rest)) := by
    cases op with
    | neg =>
        exact Reading.step_start hf hg₀ (t := .minus) (by decide) rfl (.minus hf) _
    | pos =>
        exact Reading.step_start hf hg₀ (t := .plus) (by decide) rfl (.plus hf) _
  obtain ⟨r, hr, hends⟩ :=
    hcs (.sign op :: frames) .operand gap rest (.inl rfl) hg (stable_of_five (le_refl 5) _) hrest
  refine ⟨r, ?_, hends.of_operand (fun k hk => close_sign (by unfold SignOp.level at *; omega) _ _)
    (by omega) (by unfold SignOp.level; omega)⟩
  simp only [List.append_assoc]
  exact .head hstart hr

theorem BinaryOp.matches_symbol (op : BinaryOp) : op.terminal.Matches op.symbol := by
  rcases op with c | _ | _ | _ | _ | _ | _
  · cases c <;> rfl
  all_goals rfl

theorem BinaryOp.terminal_mem (op : BinaryOp) : op.terminal ∈ Expected.operator.terminals := by
  rcases op with c | _ | _ | _ | _ | _ | _
  · cases c <;> decide
  all_goals decide

/-- Nothing at the front of an operand makes another operator of the one before it. -/
theorem head_of_operand {n : Nat} {e : Expr} {gap cs : List Char} (hg : Gap gap)
    (hcs : Spells n e cs) (rest : List Char) :
    ∀ c ∈ (gap ++ (cs ++ rest)).head?, c ≠ '=' ∧ c ≠ '>' := by
  intro c hc
  cases gap with
  | nil =>
      obtain ⟨d, ds, rfl, hd⟩ := hcs.head
      obtain rfl := Option.some.inj hc
      exact hd.ne
  | cons b gap =>
      obtain rfl := Option.some.inj hc
      have hb : isGap b := hg b List.mem_cons_self
      refine ⟨?_, ?_⟩
      · rintro rfl
        exact absurd hb (by decide)
      · rintro rfl
        exact absurd hb (by decide)

theorem BinaryOp.level_le_four {op : BinaryOp} (h : op ≠ .pow) : op.level ≤ 4 := by
  cases op with
  | pow => exact absurd rfl h
  | _ => simp [BinaryOp.level]

theorem BinaryOp.level_lt_seven (op : BinaryOp) : op.level < 7 := by
  cases op <;> simp [BinaryOp.level]

theorem stable_right {op : BinaryOp} {left : Expr} {frames : List Frame} :
    Stable op.rightLevel (.operator op left :: frames) := by
  by_cases hpow : op = .pow
  · subst hpow
    exact stable_of_five (le_refl 5) _
  · intro k e hk _
    unfold BinaryOp.rightLevel at hk
    rw [if_neg hpow] at hk
    exact close_operator_of_lt (by omega) left e frames

/-- The frames that an operator closes before it waits for its right operand. -/
theorem Reading.Ends.continues {r : Reading} {op : BinaryOp} {frames : List Frame} {left : Expr}
    (h : r.Ends op.leftLevel frames left) (hs : Stable op.level frames) :
    ∃ e', r.focus.expr? = some e' ∧
      Continues r.frames e' op.terminal ⟨.operator op left :: frames, .operand⟩ := by
  obtain ⟨e', he, hclose, hwhole⟩ := h
  refine ⟨e', he, ?_⟩
  -- a power takes its base as it stands, any other operator closes what binds more tightly
  by_cases hpow : op = .pow
  · subst hpow
    obtain ⟨rfl, rfl⟩ := hwhole (le_refl 7)
    exact .power
  · have hlevel := BinaryOp.level_le_four hpow
    unfold BinaryOp.leftLevel at hclose
    rw [if_neg hpow] at hclose
    refine .operator rfl hpow ?_
    rw [hclose _ (by omega)]
    exact hs _ _ (le_refl _) hlevel

theorem reads_binary (op : BinaryOp) {left right : Expr} {cs gap gap' cs' : List Char}
    (hcs : Reads op.leftLevel left cs) (hg : Gap gap) (hg' : Gap gap')
    (hcs' : Reads op.rightLevel right cs') (hspells : Spells op.rightLevel right cs') :
    Reads op.level (.binary op left right) (cs ++ gap ++ op.symbol ++ gap' ++ cs') := by
  intro frames f gap₀ rest hf hg₀ hs hrest
  have hleft : op.level ≤ op.leftLevel := by
    unfold BinaryOp.leftLevel
    split
    case isTrue h =>
        subst h
        decide
    case isFalse => exact le_refl _
  have hsymbol : Delimits (gap ++ (op.symbol ++ (gap' ++ (cs' ++ rest)))) := by
    obtain ⟨c, ds, hop, hc, _⟩ := op.head_symbol
    rw [hop]
    exact delimits_of hg hc _
  obtain ⟨r, hr, hends⟩ := hcs frames f gap₀ _ hf hg₀ (hs.mono hleft) hsymbol
  obtain ⟨e', he, hc⟩ := hends.continues hs
  have hmiddle : Reading.Step (r, gap ++ (op.symbol ++ (gap' ++ (cs' ++ rest))))
      (⟨.operator op left :: frames, .operand⟩, gap' ++ (cs' ++ rest)) :=
    Reading.step_operator he hg hc op.terminal_mem op.matches_symbol
      fun _ => head_of_operand hg' hspells rest
  -- the right operand is read with the operator waiting for it
  obtain ⟨r', hr', hends'⟩ :=
    hcs' (.operator op left :: frames) .operand gap' rest (.inl rfl) hg' stable_right hrest
  have hright : min op.level 5 ≤ op.rightLevel := by
    unfold BinaryOp.rightLevel
    split <;> omega
  refine ⟨r', ?_, hends'.of_operand (fun k hk => close_operator (by omega) left right frames)
    hright op.level_lt_seven⟩
  simp only [List.append_assoc]
  exact hr.trans (.head hmiddle hr')

mutual

/-- **A writing of an expression is read as that expression**, whatever stands around it. -/
theorem SpellsAs.reads : ∀ {n : Nat} {e : Expr} {cs : List Char}, Spells n e cs → Reads n e cs
  | _, _, _, .loosen hmn h => h.reads.loosen hmn
  | _, _, _, .number h => reads_token 8 (t := .number) (by decide) h rfl .number
  | _, _, _, .bool b => reads_bool b
  | _, _, _, .text h => reads_token 8 (t := .text) (by decide) h rfl .text
  | _, _, _, .cell h => reads_token 8 (t := .cell) (by decide) h rfl .cell
  | _, _, _, .range hfirst hg hlast => reads_range hfirst hg.1 hg.2 hlast
  | _, _, _, .group hg h hg' => reads_group hg h.reads hg'
  | _, _, _, .callNone ho hg => reads_callNone ho hg
  | _, _, _, .call ho h => reads_call ho h.reads
  | _, _, _, .percent h hg => reads_percent h.reads hg
  | _, _, _, .sign op hg h => reads_sign op hg h.reads
  | _, _, _, .binary op h hg hg' h' => reads_binary op h.reads hg hg' h'.reads h'

theorem SpellsArgumentsAs.reads : ∀ {args : List Expr} {cs : List Char}, SpellsArguments args cs →
    ReadsArguments args cs
  | _, _, .single hg h hg' => readsArguments_single hg h.reads hg'
  | _, _, .more hg h hg' h' => readsArguments_more hg h.reads hg' h'.reads

end

end Worksheet.Formula
