import Worksheet.Proofs.Lexicon
import Worksheet.Text.Blank
import Worksheet.Text.Word

/-!
# How expressions are written

An expression can be written in many ways: with blanks between its tokens, and with more parentheses
than it needs.  It needs them where an operator stands that binds less tightly than its place asks
for.  So each place has a level, and what is written there has that level or a higher one.

* 1 to 4: comparisons, `&`, sums, products; the left operand has the level of the operator and the
  right one the next level, which makes them left-associative;
* 5: a sign before an operand of the same level;
* 6: a power, with a base of level 7 and an exponent of level 5;
* 7: an operand of level 7 before a percent sign;
* 8: everything that cannot be torn apart, parentheses with any expression in them included.
-/

namespace Worksheet.Formula

/-- The text of an operator. -/
def BinaryOp.symbol : BinaryOp → List Char
  | .compare .greater => ['>']
  | .compare .less => ['<']
  | .compare .greaterEqual => ['>', '=']
  | .compare .lessEqual => ['<', '=']
  | .compare .equal => ['=']
  | .compare .notEqual => ['<', '>']
  | .concat => ['&']
  | .add => ['+']
  | .sub => ['-']
  | .mul => ['*']
  | .div => ['/']
  | .pow => ['^']

/-- The level that the left operand of an operator has at least. -/
def BinaryOp.leftLevel (op : BinaryOp) : Nat :=
  if op = .pow then 7 else op.level

/-- The level that the right operand of an operator has at least. -/
def BinaryOp.rightLevel (op : BinaryOp) : Nat :=
  if op = .pow then 5 else op.level + 1

/-- The text of a sign. -/
def SignOp.symbol : SignOp → Char
  | .neg => '-'
  | .pos => '+'

/-- The text of a truth value. -/
def boolText (b : Bool) : List Char :=
  if b then ['T', 'R', 'U', 'E'] else ['F', 'A', 'L', 'S', 'E']

/-- How ranges are written: which blanks stand before and after the colon, for given cells. -/
abbrev RangeStyle := (first last gap gap' : List Char) → Prop

/-- Any blanks around the colon. -/
def RangeStyle.any : RangeStyle :=
  fun _ _ gap gap' => Gap gap ∧ Gap gap'

mutual

/-- `SpellsAs style n e cs`: at a place of level `n`, the expression `e` can be written as `cs`,
with its ranges in a given style. -/
inductive SpellsAs (style : RangeStyle) : Nat → Expr → List Char → Prop where
  | loosen {m n : Nat} {e : Expr} {cs : List Char} :
      m ≤ n → SpellsAs style n e cs → SpellsAs style m e cs
  | number {cs : List Char} : IsNumber cs → SpellsAs style 8 (.number (String.ofList cs)) cs
  | bool (b : Bool) : SpellsAs style 8 (.bool b) (boolText b)
  | text {cs : List Char} : IsString cs → SpellsAs style 8 (.text (String.ofList cs)) cs
  | cell {cs : List Char} : IsCell cs → SpellsAs style 8 (.cell (String.ofList cs)) cs
  | range {first last gap gap' : List Char} :
      IsCell first → style first last gap gap' → IsCell last →
      SpellsAs style 8 (.range (String.ofList first) (String.ofList last))
        (first ++ gap ++ [':'] ++ gap' ++ last)
  | group {e : Expr} {gap cs gap' : List Char} :
      Gap gap → SpellsAs style 0 e cs → Gap gap' →
      SpellsAs style 8 e (['('] ++ gap ++ cs ++ gap' ++ [')'])
  | callNone {opener gap : List Char} :
      IsOpener opener → Gap gap →
      SpellsAs style 8 (.call (String.ofList opener) []) (opener ++ gap ++ [')'])
  | call {opener cs : List Char} {args : List Expr} :
      IsOpener opener → SpellsArgumentsAs style args cs →
      SpellsAs style 8 (.call (String.ofList opener) args) (opener ++ cs)
  | percent {e : Expr} {cs gap : List Char} :
      SpellsAs style 7 e cs → Gap gap → SpellsAs style 7 (.percent e) (cs ++ gap ++ ['%'])
  | sign (op : SignOp) {e : Expr} {gap cs : List Char} :
      Gap gap → SpellsAs style op.level e cs →
      SpellsAs style op.level (.sign op e) ([op.symbol] ++ gap ++ cs)
  | binary (op : BinaryOp) {left right : Expr} {cs gap gap' cs' : List Char} :
      SpellsAs style op.leftLevel left cs → Gap gap → Gap gap' →
      SpellsAs style op.rightLevel right cs' →
      SpellsAs style op.level (.binary op left right) (cs ++ gap ++ op.symbol ++ gap' ++ cs')

/-- How the arguments of a call can be written, if it has any, with the closing parenthesis. -/
inductive SpellsArgumentsAs (style : RangeStyle) : List Expr → List Char → Prop where
  | single {e : Expr} {gap cs gap' : List Char} :
      Gap gap → SpellsAs style 0 e cs → Gap gap' →
      SpellsArgumentsAs style [e] (gap ++ cs ++ gap' ++ [')'])
  | more {e : Expr} {es : List Expr} {gap cs gap' cs' : List Char} :
      Gap gap → SpellsAs style 0 e cs → Gap gap' → SpellsArgumentsAs style es cs' →
      SpellsArgumentsAs style (e :: es) (gap ++ cs ++ gap' ++ [','] ++ cs')

end

/-- `WrittenAs style e cs`: a formula with the expression `e` can be written as `cs`, with its
ranges in a given style. -/
def WrittenAs (style : RangeStyle) (e : Expr) (cs : List Char) : Prop :=
  ∃ gap body, Gap gap ∧ SpellsAs style 0 e body ∧ cs = ['='] ++ gap ++ body

/-- At a place of level `n`, the expression `e` can be written as `cs`. -/
abbrev Spells := SpellsAs .any

/-- The arguments of a call can be written as `cs`, with the closing parenthesis. -/
abbrev SpellsArguments := SpellsArgumentsAs .any

/-- A formula with the expression `e` can be written as `cs`. -/
abbrev Written := WrittenAs .any

/-! ## Ends of writings -/

/-- What an expression can start with. -/
def StartsExpr (c : Char) : Prop :=
  isNameChar c ∨ c = '"' ∨ c = '(' ∨ c = '-' ∨ c = '+'

/-- What an expression can end with. -/
def EndsExpr (c : Char) : Prop :=
  isNameChar c ∨ c = '"' ∨ c = ')' ∨ c = '%'

/-- A character that stands between words: it belongs to none, is no blank and opens no call. -/
def IsSymbol (c : Char) : Prop :=
  ¬ isNameChar c ∧ ¬ Text.isWord c ∧ ¬ Text.isBlank c ∧ c ≠ '('

instance (c : Char) : Decidable (IsSymbol c) :=
  inferInstanceAs (Decidable (_ ∧ _))

theorem BinaryOp.head_symbol (op : BinaryOp) :
    ∃ c cs, op.symbol = c :: cs ∧ IsSymbol c ∧ c ≠ ':' := by
  rcases op with c | _ | _ | _ | _ | _ | _
  · cases c <;> exact ⟨_, _, rfl, by decide, by decide⟩
  all_goals exact ⟨_, _, rfl, by decide, by decide⟩

theorem not_isBlank_of_isNameChar {c : Char} (h : isNameChar c) : ¬ Text.isBlank c := by
  have hn : c.toNat = c.val.toNat := rfl
  unfold isNameChar Char.isAlphanum Char.isAlpha Char.isUpper Char.isLower Char.isDigit at h
  unfold Text.isBlank
  simp only [Bool.or_eq_true, Bool.and_eq_true, decide_eq_true_eq, UInt32.le_iff_toNat_le,
    ge_iff_le, beq_iff_eq] at h ⊢
  have h0 : '0'.val.toNat = 48 := rfl
  have h9 : '9'.val.toNat = 57 := rfl
  have hA : 'A'.val.toNat = 65 := rfl
  have hZ : 'Z'.val.toNat = 90 := rfl
  have ha : 'a'.val.toNat = 97 := rfl
  have hz : 'z'.val.toNat = 122 := rfl
  rcases h with (h | rfl) | rfl
  · omega
  · decide
  · decide

theorem isBlank_of_isGap {c : Char} (h : isGap c) : Text.isBlank c := by
  unfold isGap at h
  simp only [Bool.or_eq_true, beq_iff_eq] at h
  rcases h with (((rfl | rfl) | rfl) | rfl) | rfl <;> decide

theorem EndsExpr.not_isBlank {c : Char} (h : EndsExpr c) : ¬ Text.isBlank c := by
  rcases h with h | rfl | rfl | rfl
  · exact not_isBlank_of_isNameChar h
  · decide
  · decide
  · decide

theorem StartsExpr.ne {c : Char} (h : StartsExpr c) : c ≠ '=' ∧ c ≠ '>' := by
  refine ⟨?_, ?_⟩
  · rintro rfl
    rcases h with h | h | h | h | h <;> exact absurd h (by decide)
  · rintro rfl
    rcases h with h | h | h | h | h <;> exact absurd h (by decide)

theorem exists_last {p : Char → Prop} {cs : List Char} (hne : cs ≠ []) (h : ∀ c ∈ cs, p c) :
    ∃ front c, cs = front ++ [c] ∧ p c :=
  ⟨cs.dropLast, cs.getLast hne, (List.dropLast_concat_getLast hne).symm,
    h _ (List.getLast_mem hne)⟩

theorem IsDigits.last {cs : List Char} (h : IsDigits cs) :
    ∃ front c, cs = front ++ [c] ∧ EndsExpr c :=
  exists_last h.1 fun c hc => .inl (isNameChar_of_isDigit (h.2 c hc))

theorem IsNumber.last {cs : List Char} (h : IsNumber cs) :
    ∃ front c, cs = front ++ [c] ∧ EndsExpr c := by
  obtain ⟨mantissa, exponent, rfl, hm, rfl | ⟨e, sign, digits, rfl, _, _, hdigits⟩⟩ := h
  · rw [List.append_nil]
    rcases hm with hm | ⟨whole, fraction, rfl, _, hfraction, _⟩
    · exact hm.last
    · obtain ⟨front, c, hc, hend⟩ : ∃ front c, '.' :: fraction = front ++ [c] ∧ EndsExpr c := by
        refine exists_last (List.cons_ne_nil _ _) fun c hc => ?_
        rcases List.mem_cons.mp hc with rfl | hc
        · exact .inl (by decide)
        · exact .inl (isNameChar_of_isDigit (hfraction c hc))
      exact ⟨whole ++ front, c, by rw [hc, List.append_assoc], hend⟩
  · obtain ⟨front, c, rfl, hend⟩ := hdigits.last
    exact ⟨mantissa ++ e :: (sign ++ front), c, by simp, hend⟩

theorem IsStringTail.last {cs : List Char} (h : IsStringTail cs) :
    ∃ front, cs = front ++ ['"'] := by
  induction h with
  | close => exact ⟨[], rfl⟩
  | @char c _ _ _ _ _ ih =>
      obtain ⟨front, rfl⟩ := ih
      exact ⟨c :: front, rfl⟩
  | @escape c _ _ _ ih =>
      obtain ⟨front, rfl⟩ := ih
      exact ⟨'\\' :: c :: front, rfl⟩

variable {style : RangeStyle}

theorem SpellsArgumentsAs.last : ∀ {args : List Expr} {cs : List Char},
    SpellsArgumentsAs style args cs →
    ∃ front, cs = front ++ [')']
  | _, _, .single _ _ _ => ⟨_, rfl⟩
  | _, _, .more _ _ _ h => by
      obtain ⟨front, rfl⟩ := h.last
      exact ⟨_, (List.append_assoc _ _ _).symm⟩

theorem SpellsAs.head : ∀ {n : Nat} {e : Expr} {cs : List Char}, SpellsAs style n e cs →
    ∃ c rest, cs = c :: rest ∧ StartsExpr c
  | _, _, _, .loosen _ h => h.head
  | _, _, _, .number h => by
      obtain ⟨c, rest, rfl, hc | rfl⟩ := h.head
      · exact ⟨c, rest, rfl, .inl (isNameChar_of_isDigit hc)⟩
      · exact ⟨'.', rest, rfl, .inl (by decide)⟩
  | _, _, _, .bool b => by
      cases b with
      | true => exact ⟨'T', _, rfl, .inl (by decide)⟩
      | false => exact ⟨'F', _, rfl, .inl (by decide)⟩
  | _, _, _, .text h => by
      obtain ⟨tail, rfl, _⟩ := h
      exact ⟨'"', tail, rfl, .inr (.inl rfl)⟩
  | _, _, _, .cell h => by
      obtain ⟨c, rest, rfl, hc⟩ := h.head
      exact ⟨c, rest, rfl, .inl (isNameChar_of_isNameStart (isNameStart_of_isColumnLetter hc))⟩
  | _, _, _, .range h _ _ => by
      obtain ⟨c, rest, rfl, hc⟩ := h.head
      exact ⟨c, _, rfl, .inl (isNameChar_of_isNameStart (isNameStart_of_isColumnLetter hc))⟩
  | _, _, _, .group _ _ _ => ⟨'(', _, rfl, .inr (.inr (.inl rfl))⟩
  | _, _, _, .callNone h _ => by
      obtain ⟨c, name, gap, rfl, hc, _⟩ := h
      exact ⟨c, _, rfl, .inl (isNameChar_of_isNameStart hc)⟩
  | _, _, _, .call h _ => by
      obtain ⟨c, name, gap, rfl, hc, _⟩ := h
      exact ⟨c, _, rfl, .inl (isNameChar_of_isNameStart hc)⟩
  | _, _, _, .percent h _ => by
      obtain ⟨c, rest, rfl, hc⟩ := h.head
      exact ⟨c, _, rfl, hc⟩
  | _, _, _, .sign op _ _ => by
      cases op with
      | neg => exact ⟨'-', _, rfl, .inr (.inr (.inr (.inl rfl)))⟩
      | pos => exact ⟨'+', _, rfl, .inr (.inr (.inr (.inr rfl)))⟩
  | _, _, _, .binary _ h _ _ _ => by
      obtain ⟨c, rest, rfl, hc⟩ := h.head
      exact ⟨c, _, rfl, hc⟩

theorem SpellsAs.last : ∀ {n : Nat} {e : Expr} {cs : List Char}, SpellsAs style n e cs →
    ∃ front c, cs = front ++ [c] ∧ EndsExpr c
  | _, _, _, .loosen _ h => h.last
  | _, _, _, .number h => h.last
  | _, _, _, .bool b => by
      cases b with
      | true => exact ⟨['T', 'R', 'U'], 'E', rfl, .inl (by decide)⟩
      | false => exact ⟨['F', 'A', 'L', 'S'], 'E', rfl, .inl (by decide)⟩
  | _, _, _, .text h => by
      obtain ⟨tail, rfl, ht⟩ := h
      obtain ⟨front, rfl⟩ := ht.last
      exact ⟨'"' :: front, '"', rfl, .inr (.inl rfl)⟩
  | _, _, _, .cell h => by
      obtain ⟨c, rest, rfl, _⟩ := h.head
      exact exists_last (List.cons_ne_nil _ _) fun d hd => .inl (h.isNameChar d hd)
  | _, _, _, .range _ _ h => by
      obtain ⟨c, rest, rfl, _⟩ := h.head
      obtain ⟨front, d, hd, hend⟩ := exists_last (p := EndsExpr) (List.cons_ne_nil c rest)
        fun d hd => .inl (h.isNameChar d hd)
      exact ⟨_, d, by rw [hd, ← List.append_assoc], hend⟩
  | _, _, _, .group _ _ _ => ⟨_, ')', rfl, .inr (.inr (.inl rfl))⟩
  | _, _, _, .callNone _ _ => ⟨_, ')', rfl, .inr (.inr (.inl rfl))⟩
  | _, _, _, .call _ h => by
      obtain ⟨front, rfl⟩ := h.last
      exact ⟨_, ')', (List.append_assoc _ _ _).symm, .inr (.inr (.inl rfl))⟩
  | _, _, _, .percent _ _ => ⟨_, '%', rfl, .inr (.inr (.inr rfl))⟩
  | _, _, _, .sign _ _ h => by
      obtain ⟨front, c, rfl, hc⟩ := h.last
      exact ⟨_, c, (List.append_assoc _ _ _).symm, hc⟩
  | _, _, _, .binary _ _ _ _ h => by
      obtain ⟨front, c, rfl, hc⟩ := h.last
      exact ⟨_, c, (List.append_assoc _ _ _).symm, hc⟩

/-- A writing has no blanks around it. -/
theorem WrittenAs.trimBlanks {e : Expr} {cs : List Char} (h : WrittenAs style e cs) :
    Text.trimBlanks cs = cs := by
  obtain ⟨gap, body, _, hbody, rfl⟩ := h
  obtain ⟨front, c, rfl, hc⟩ := hbody.last
  have hc' : Text.isBlank c = false := by simpa using hc.not_isBlank
  unfold Text.trimBlanks Text.trimRight
  rw [List.append_assoc, List.singleton_append, List.dropWhile_cons_of_neg (by decide)]
  simp [hc']

end Worksheet.Formula
