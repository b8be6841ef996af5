import Worksheet.Proofs.Lexicon

/-!
# Reading a formula, token by token

Cutting a text into tokens and reading the tokens are two passes in the parser.  What can stand at a
place depends on the token before it alone, and it is what the state of the reading asks for, so the
two passes are one: a step reads the next token off the front of the text.
-/

namespace Worksheet.Formula

open Relation

/-! ## What a token does -/

/-- The token of an operator. -/
def BinaryOp.terminal : BinaryOp → Terminal
  | .compare .greater => .greater
  | .compare .less => .less
  | .compare .greaterEqual => .greaterEqual
  | .compare .lessEqual => .lessEqual
  | .compare .equal => .equal
  | .compare .notEqual => .notEqual
  | .concat => .ampersand
  | .add => .plus
  | .sub => .minus
  | .mul => .star
  | .div => .slash
  | .pow => .caret

theorem binaryOp_terminal (op : BinaryOp) : binaryOp? op.terminal = some op := by
  rcases op with c | _ | _ | _ | _ | _ | _
  · cases c <;> rfl
  all_goals rfl

theorem eq_terminal_of_binaryOp {t : Terminal} {op : BinaryOp} (h : binaryOp? t = some op) :
    t = op.terminal := by
  cases t <;> cases h <;> rfl

/-- All that a token after an expression can do. -/
inductive Continues (frames : List Frame) (e : Expr) : Terminal → Reading → Prop where
  | power : Continues frames e .caret ⟨.operator .pow e :: frames, .operand⟩
  | operator {t : Terminal} {op : BinaryOp} {frames' : List Frame} {e' : Expr} :
      t = op.terminal → op ≠ .pow → close op.level frames e = (frames', e') →
      Continues frames e t ⟨.operator op e' :: frames', .operand⟩
  | percent : Continues frames e .percent ⟨frames, .complete (.percent e)⟩
  | comma {opener : String} {args : List Expr} {frames' : List Frame} {e' : Expr} :
      close 0 frames e = (.call opener args :: frames', e') →
      Continues frames e .comma ⟨.call opener (e' :: args) :: frames', .operand⟩
  | closeGroup {frames' : List Frame} {e' : Expr} :
      close 0 frames e = (.group :: frames', e') →
      Continues frames e .closing ⟨frames', .complete e'⟩
  | closeCall {opener : String} {args : List Expr} {frames' : List Frame} {e' : Expr} :
      close 0 frames e = (.call opener args :: frames', e') →
      Continues frames e .closing ⟨frames', .complete (.call opener (e' :: args).reverse)⟩

theorem not_continues_colon {frames : List Frame} {e : Expr} {r : Reading} :
    ¬ Continues frames e .colon r := by
  intro h
  cases h with
  | @operator _ op _ _ ht =>
      have hop := binaryOp_terminal op
      rw [← ht] at hop
      cases hop

theorem continueOperand_iff {frames : List Frame} {e : Expr} {t : Terminal} {r : Reading} :
    continueOperand frames e t = some r ↔ Continues frames e t r := by
  constructor
  · intro h
    unfold continueOperand at h
    cases hop : binaryOp? t with
    | some op =>
        rw [hop] at h
        obtain rfl := eq_terminal_of_binaryOp hop
        dsimp only at h
        by_cases hpow : op = .pow
        · subst hpow
          obtain rfl := Option.some.inj h
          exact .power
        · rw [if_neg hpow] at h
          obtain rfl := Option.some.inj h
          exact .operator rfl hpow rfl
    | none =>
        rw [hop] at h
        cases t with
        | percent =>
            obtain rfl := Option.some.inj h
            exact .percent
        | comma =>
            dsimp only at h
            split at h
            case h_1 hc =>
                obtain rfl := Option.some.inj h
                exact .comma hc
            case h_2 => cases h
        | closing =>
            dsimp only at h
            split at h
            case h_1 hc =>
                obtain rfl := Option.some.inj h
                exact .closeGroup hc
            case h_2 hc =>
                obtain rfl := Option.some.inj h
                exact .closeCall hc
            case h_3 => cases h
        | _ => cases h
  · intro h
    unfold continueOperand
    cases h with
    | power => rfl
    | operator ht hpow hc =>
        rw [ht, binaryOp_terminal]
        dsimp only
        rw [if_neg hpow, hc]
    | percent => rfl
    | comma hc =>
        dsimp only [binaryOp?]
        rw [hc]
    | closeGroup hc =>
        dsimp only [binaryOp?]
        rw [hc]
    | closeCall hc =>
        dsimp only [binaryOp?]
        rw [hc]

/-- Whether an expression can start where a reading is. -/
def Focus.StartsExpr (f : Focus) : Prop :=
  f = .operand ∨ f = .firstArgument

/-- All that a token can do. -/
inductive Reading.Takes : Reading → Terminal → String → Reading → Prop where
  | number {frames : List Frame} {f : Focus} {text : String} :
      f.StartsExpr → Takes ⟨frames, f⟩ .number text ⟨frames, .complete (.number text)⟩
  | bool {frames : List Frame} {f : Focus} {text : String} :
      f.StartsExpr → Takes ⟨frames, f⟩ .bool text ⟨frames, .complete (.bool (text == "TRUE"))⟩
  | text {frames : List Frame} {f : Focus} {text : String} :
      f.StartsExpr → Takes ⟨frames, f⟩ .text text ⟨frames, .complete (.text text)⟩
  | cell {frames : List Frame} {f : Focus} {text : String} :
      f.StartsExpr → Takes ⟨frames, f⟩ .cell text ⟨frames, .cell text⟩
  | call {frames : List Frame} {f : Focus} {text : String} :
      f.StartsExpr → Takes ⟨frames, f⟩ .call text ⟨.call text [] :: frames, .firstArgument⟩
  | opening {frames : List Frame} {f : Focus} {text : String} :
      f.StartsExpr → Takes ⟨frames, f⟩ .opening text ⟨.group :: frames, .operand⟩
  | minus {frames : List Frame} {f : Focus} {text : String} :
      f.StartsExpr → Takes ⟨frames, f⟩ .minus text ⟨.sign .neg :: frames, .operand⟩
  | plus {frames : List Frame} {f : Focus} {text : String} :
      f.StartsExpr → Takes ⟨frames, f⟩ .plus text ⟨.sign .pos :: frames, .operand⟩
  | noArguments {frames : List Frame} {opener text : String} {args : List Expr} :
      Takes ⟨.call opener args :: frames, .firstArgument⟩ .closing text
        ⟨frames, .complete (.call opener [])⟩
  | goOn {frames : List Frame} {e : Expr} {t : Terminal} {text : String} {r : Reading} :
      Continues frames e t r → Takes ⟨frames, .complete e⟩ t text r
  | goOnCell {frames : List Frame} {address text : String} {t : Terminal} {r : Reading} :
      Continues frames (.cell address) t r → Takes ⟨frames, .cell address⟩ t text r
  | colon {frames : List Frame} {address text : String} :
      Takes ⟨frames, .cell address⟩ .colon text ⟨frames, .rangeEnd address⟩
  | rangeEnd {frames : List Frame} {first text : String} :
      Takes ⟨frames, .rangeEnd first⟩ .cell text ⟨frames, .complete (.range first text)⟩

theorem Reading.step_iff {r r' : Reading} {t : Terminal} {text : String} :
    r.step t text = some r' ↔ r.Takes t text r' := by
  -- the two places where an expression can start differ only in a closing parenthesis
  have hstart : ∀ {frames f}, Focus.StartsExpr f →
      startOperand frames t text = some r' → Reading.Takes ⟨frames, f⟩ t text r' := by
    intro frames f hf h
    cases t <;> cases h
    · exact .call hf
    · exact .cell hf
    · exact .bool hf
    · exact .number hf
    · exact .text hf
    · exact .opening hf
    · exact .minus hf
    · exact .plus hf
  obtain ⟨frames, f⟩ := r
  constructor
  · intro h
    cases f with
    | operand => exact hstart (.inl rfl) h
    | firstArgument =>
        unfold Reading.step at h
        dsimp only at h
        split at h
        case h_1 =>
            obtain rfl := Option.some.inj h
            exact .noArguments
        case h_2 => exact hstart (.inr rfl) h
    | complete e => exact .goOn (continueOperand_iff.mp h)
    | cell address =>
        unfold Reading.step at h
        dsimp only at h
        split at h
        case h_1 =>
            obtain rfl := Option.some.inj h
            exact .colon
        case h_2 => exact .goOnCell (continueOperand_iff.mp h)
    | rangeEnd first =>
        cases t <;> cases h
        exact .rangeEnd
  · intro h
    cases h with
    | number hf => rcases hf with rfl | rfl <;> rfl
    | bool hf => rcases hf with rfl | rfl <;> rfl
    | text hf => rcases hf with rfl | rfl <;> rfl
    | cell hf => rcases hf with rfl | rfl <;> rfl
    | call hf => rcases hf with rfl | rfl <;> rfl
    | opening hf => rcases hf with rfl | rfl <;> rfl
    | minus hf => rcases hf with rfl | rfl <;> rfl
    | plus hf => rcases hf with rfl | rfl <;> rfl
    | noArguments => rfl
    | goOn hc => exact continueOperand_iff.mpr hc
    | goOnCell hc =>
        unfold Reading.step
        dsimp only
        split
        case h_1 => exact absurd hc not_continues_colon
        case h_2 => exact continueOperand_iff.mpr hc
    | colon => rfl
    | rangeEnd => rfl

/-! ## What is asked for -/

/-- What can stand where a reading is. -/
def Focus.expected : Focus → Expected
  | operand => .operand
  | firstArgument => .firstArgument
  | complete _ => .operator
  | cell _ => .afterCell
  | rangeEnd _ => .rangeEnd

theorem Expected.after_terminal (op : BinaryOp) {expected : Expected}
    (he : expected = .operator ∨ expected = .afterCell) :
    expected.after op.terminal = .operand := by
  rcases he with rfl | rfl
  all_goals
    rcases op with c | _ | _ | _ | _ | _ | _
    · cases c <;> rfl
    all_goals rfl

theorem Continues.expected {frames : List Frame} {e : Expr} {t : Terminal} {r : Reading}
    (h : Continues frames e t r) {expected : Expected}
    (he : expected = .operator ∨ expected = .afterCell) :
    r.focus.expected = expected.after t := by
  cases h with
  | @operator _ op _ _ ht _ _ =>
      subst ht
      rw [Expected.after_terminal op he]
      rfl
  | _ => rcases he with rfl | rfl <;> rfl

/-- What can stand after a token is what the state after it asks for. -/
theorem Reading.Takes.expected {r r' : Reading} {t : Terminal} {text : String}
    (h : r.Takes t text r') : r'.focus.expected = r.focus.expected.after t := by
  cases h with
  | goOn hc => exact hc.expected (.inl rfl)
  | goOnCell hc => exact hc.expected (.inr rfl)
  | noArguments => rfl
  | colon => rfl
  | rangeEnd => rfl
  | _ hf => rcases hf with rfl | rfl <;> rfl

/-! ## Reading a text -/

/-- A token is read off the front of what is left of a text. -/
inductive Reading.Step : Reading × List Char → Reading × List Char → Prop where
  | token {r r' : Reading} {t : Terminal} {gap lexeme rest : List Char} :
      Gap gap → nextLexeme? r.focus.expected (lexeme ++ rest) = some (t, lexeme) →
      r.Takes t (String.ofList lexeme) r' → Step (r, gap ++ (lexeme ++ rest)) (r', rest)

/-- Tokens are read off the front of a text. -/
abbrev Reading.Steps : Reading × List Char → Reading × List Char → Prop :=
  ReflTransGen Reading.Step

theorem scan_gap {expected : Expected} {last column : Nat} {gap : List Char} (hg : Gap gap) :
    scan expected last column gap = ([], .finish last) := by
  have hdrop : gap.dropWhile isGap = [] := List.dropWhile_eq_nil_iff.mpr hg
  rw [scan]
  split
  case h_1 => rfl
  case h_2 heq =>
      rw [hdrop] at heq
      cases heq

/-- What is cut off a text that does not end in blanks. -/
theorem scan_cons {expected : Expected} {last column : Nat} {gap : List Char} {c : Char}
    {cs : List Char} (hg : Gap gap) (hc : ¬ isGap c) :
    scan expected last column (gap ++ c :: cs) =
      match nextLexeme? expected (c :: cs) with
      | none => ([], .stray c (advance column gap))
      | some (t, lexeme) =>
        let (tokens, stop) := scan (expected.after t) (advance column gap)
          (advance (advance column gap) lexeme) (cs.drop (lexeme.length - 1))
        (⟨t, lexeme, advance column gap⟩ :: tokens, stop) := by
  have hstop : StopsRun isGap (c :: cs) := by
    intro d hd
    obtain rfl := Option.some.inj hd
    exact hc
  have htake : (gap ++ c :: cs).takeWhile isGap = gap := takeWhile_run hg hstop
  have hdrop : (gap ++ c :: cs).dropWhile isGap = c :: cs := dropWhile_run hg hstop
  rw [scan, htake]
  -- `split` on the match, since its cases carry the equation that termination rests on
  split
  case h_1 heq =>
      rw [hdrop] at heq
      cases heq
  case h_2 heq =>
      rw [hdrop] at heq
      cases heq
      rfl

/-- The expression of a text that starts where a reading is. -/
def Reading.readText (r : Reading) (last column : Nat) (cs : List Char) : Except Failure Expr :=
  r.run (scan r.focus.expected last column cs).2 (scan r.focus.expected last column cs).1

theorem Reading.readText_gap {r : Reading} {last column : Nat} {gap : List Char} {e : Expr}
    (hg : Gap gap) : r.readText last column gap = .ok e ↔ r.finish = some e := by
  unfold Reading.readText
  rw [scan_gap hg]
  unfold Reading.run
  cases r.finish with
  | some e' =>
      constructor
      · intro h
        exact congrArg some (Except.ok.inj h)
      · intro h
        exact congrArg Except.ok (Option.some.inj h)
  | none =>
      constructor
      · intro h
        cases h
      · intro h
        cases h

theorem Reading.readText_token {r r' : Reading} {t : Terminal} {last column : Nat}
    {gap lexeme rest : List Char} (hg : Gap gap)
    (hn : nextLexeme? r.focus.expected (lexeme ++ rest) = some (t, lexeme))
    (ht : r.Takes t (String.ofList lexeme) r') :
    r.readText last column (gap ++ (lexeme ++ rest)) =
      r'.readText (advance column gap) (advance (advance column gap) lexeme) rest := by
  obtain ⟨c, cs, rfl, hc⟩ := (matches_of_nextLexeme hn).1.head
  unfold Reading.readText
  rw [List.cons_append] at hn ⊢
  rw [scan_cons hg hc, hn]
  have hdrop : (cs ++ rest).drop ((c :: cs).length - 1) = rest := by simp
  dsimp only
  rw [hdrop, Reading.run, Reading.step_iff.mpr ht, ht.expected]

/-- A text is read if its tokens can be read one by one up to an end that leaves nothing open. -/
theorem Reading.readText_of_steps {r r' : Reading} {cs gap : List Char} {e : Expr}
    (h : Reading.Steps (r, cs) (r', gap)) (hg : Gap gap) (hf : r'.finish = some e) :
    ∀ last column, r.readText last column cs = .ok e := by
  generalize hs : (r, cs) = s at h
  induction h using ReflTransGen.head_induction_on generalizing r cs with
  | refl =>
      cases hs
      exact fun last column => (Reading.readText_gap hg).mpr hf
  | head hstep _ ih =>
      subst hs
      intro last column
      cases hstep with
      | token hg' hn ht =>
          rw [Reading.readText_token hg' hn ht]
          exact ih rfl _ _

theorem Reading.steps_of_readText {r : Reading} {last column : Nat} {cs : List Char} {e : Expr}
    (h : r.readText last column cs = .ok e) :
    ∃ r' gap, Reading.Steps (r, cs) (r', gap) ∧ Gap gap ∧ r'.finish = some e := by
  induction hn : cs.length using Nat.strong_induction_on generalizing r last column cs with
  | _ n ih =>
      obtain ⟨gap, rest, rfl, hg, hstop⟩ := exists_run isGap cs
      cases rest with
      | nil =>
          rw [List.append_nil] at h ⊢
          exact ⟨r, gap, .refl, hg, (Reading.readText_gap hg).mp h⟩
      | cons c rest =>
          have hc : ¬ isGap c := hstop c rfl
          cases hnext : nextLexeme? r.focus.expected (c :: rest) with
          | none =>
              -- no token starts here, and the character is reported
              unfold Reading.readText at h
              rw [scan_cons hg hc, hnext] at h
              cases h
          | some token =>
              obtain ⟨t, lexeme⟩ := token
              obtain ⟨hm, rest', hrest⟩ := matches_of_nextLexeme hnext
              rw [hrest] at h hnext ⊢
              cases hstep : r.step t (String.ofList lexeme) with
              | none =>
                  -- the token that cannot be taken is the first one, and it is reported
                  obtain ⟨d, ds, rfl, hd⟩ := hm.head
                  unfold Reading.readText at h
                  rw [List.cons_append] at h hnext
                  rw [scan_cons hg hd, hnext] at h
                  dsimp only at h
                  rw [Reading.run, hstep] at h
                  cases h
              | some r' =>
                  have ht := Reading.step_iff.mp hstep
                  rw [Reading.readText_token hg hnext ht] at h
                  -- a token is not empty, so what is left of the text is shorter
                  have hlt : rest'.length < n := by
                    obtain ⟨d, ds, rfl, _⟩ := hm.head
                    rw [hrest] at hn
                    simp only [List.length_append, List.length_cons] at hn
                    omega
                  obtain ⟨r'', gap', hs, hg', hf⟩ := ih _ hlt h rfl
                  exact ⟨r'', gap', .head (.token hg hnext ht) hs, hg', hf⟩

end Worksheet.Formula
