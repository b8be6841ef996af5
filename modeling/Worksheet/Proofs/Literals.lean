import Worksheet.Proofs.Parsing
import Worksheet.Proofs.Results

/-!
# Texts in quotes

Any text on one line can be written in a formula: between quotes, with a backslash before each quote
and each backslash in it.  The formula comes to that text, wherever it is evaluated.

A string token is read in two rounds, first the quotes and then the backslashes.  The first round
leaves each backslash of the text doubled.  It never takes half of a pair for the start of an escaped
quote, since no escaped text starts with a bare quote.
-/

namespace Worksheet.Formula

/-! ## Writing a text between quotes -/

/-- A character as it is written between quotes. -/
def escapeChar (c : Char) : List Char :=
  if c = '\\' ∨ c = '"' then ['\\', c] else [c]

/-- A text as it is written between quotes. -/
def escape (cs : List Char) : List Char :=
  cs.flatMap escapeChar

/-- The formula that is a text in quotes. -/
def quotedFormula (cs : List Char) : String :=
  String.ofList (['=', '"'] ++ cs ++ ['"'])

theorem formula?_quotedFormula (cs : List Char) :
    (Value.text (quotedFormula cs)).formula? = some (quotedFormula cs) :=
  formula?_text_iff.mpr ⟨rfl, _, String.toList_ofList⟩

variable {c : Char} {cs : List Char}

theorem escape_backslash : escape ('\\' :: cs) = '\\' :: '\\' :: escape cs := rfl

theorem escape_quote : escape ('"' :: cs) = '\\' :: '"' :: escape cs := rfl

theorem escape_plain (hb : c ≠ '\\') (hq : c ≠ '"') : escape (c :: cs) = c :: escape cs := by
  have hc : escapeChar c = [c] := if_neg (not_or_intro hb hq)
  rw [escape, List.flatMap_cons, hc]
  rfl

/-- What is between the quotes ends at the closing one. -/
theorem isStringTail_escape (h : '\n' ∉ cs) : IsStringTail (escape cs ++ ['"']) := by
  induction cs with
  | nil => exact .close
  | cons c cs ih =>
      obtain ⟨hc, hcs⟩ := List.ne_and_not_mem_of_not_mem_cons h
      by_cases hb : c = '\\'
      · subst hb
        exact .escape (by decide) (ih hcs)
      by_cases hq : c = '"'
      · subst hq
        exact .escape (by decide) (ih hcs)
      · rw [escape_plain hb hq]
        exact .char hq hb (Ne.symm hc) (ih hcs)

/-! ## Reading it back -/

/-- A text with each backslash doubled. -/
def doubleBackslashes (cs : List Char) : List Char :=
  cs.flatMap fun c => if c = '\\' then ['\\', '\\'] else [c]

theorem doubleBackslashes_backslash :
    doubleBackslashes ('\\' :: cs) = '\\' :: '\\' :: doubleBackslashes cs := rfl

theorem doubleBackslashes_other (hb : c ≠ '\\') :
    doubleBackslashes (c :: cs) = c :: doubleBackslashes cs := by
  rw [doubleBackslashes, List.flatMap_cons, if_neg hb]
  rfl

section replacePairs

variable {first second replacement : Char}

theorem replacePairs_pair :
    replacePairs first second replacement (first :: second :: cs) =
      replacement :: replacePairs first second replacement cs := by
  rw [replacePairs]
  simp

/-- A character stays that is not the first of a pair. -/
theorem replacePairs_keep (h : c = first → cs.head? ≠ some second) :
    replacePairs first second replacement (c :: cs) =
      c :: replacePairs first second replacement cs := by
  cases cs with
  | nil => rfl
  | cons d cs =>
      have hpair : ¬ (c = first && d = second) = true := by
        simp only [Bool.and_eq_true, decide_eq_true_eq]
        rintro ⟨hc, rfl⟩
        exact h hc rfl
      rw [replacePairs, if_neg hpair]

end replacePairs

/-- An escaped text does not start with a bare quote. -/
theorem head?_escape_ne_quote : (escape cs).head? ≠ some '"' := by
  cases cs with
  | nil => exact nofun
  | cons c cs =>
      by_cases hb : c = '\\'
      · subst hb
        exact fun h => absurd (Option.some.inj h) (by decide)
      by_cases hq : c = '"'
      · subst hq
        exact fun h => absurd (Option.some.inj h) (by decide)
      · rw [escape_plain hb hq]
        simpa using hq

/-- The first round reads the quotes. -/
theorem replacePairs_escape :
    replacePairs '\\' '"' '"' (escape cs) = doubleBackslashes cs := by
  induction cs with
  | nil => rfl
  | cons c cs ih =>
      by_cases hb : c = '\\'
      · subst hb
        have hpair : ('\\' :: escape cs).head? ≠ some '"' :=
          fun h => absurd (Option.some.inj h) (by decide)
        rw [escape_backslash, doubleBackslashes_backslash, replacePairs_keep fun _ => hpair,
          replacePairs_keep fun _ => head?_escape_ne_quote, ih]
      by_cases hq : c = '"'
      · subst hq
        rw [escape_quote, replacePairs_pair, ih, doubleBackslashes_other (by decide)]
      · rw [escape_plain hb hq, replacePairs_keep fun h => absurd h hb, ih,
          doubleBackslashes_other hb]

/-- The second round reads the backslashes. -/
theorem replacePairs_doubleBackslashes :
    replacePairs '\\' '\\' '\\' (doubleBackslashes cs) = cs := by
  induction cs with
  | nil => rfl
  | cons c cs ih =>
      by_cases hb : c = '\\'
      · subst hb
        rw [doubleBackslashes_backslash, replacePairs_pair, ih]
      · rw [doubleBackslashes_other hb, replacePairs_keep fun h => absurd h hb, ih]

/-- The text that an escaped text between quotes stands for. -/
theorem textLiteral_escape :
    textLiteral (String.ofList ('"' :: (escape cs ++ ['"']))) = String.ofList cs := by
  unfold textLiteral
  rw [String.toList_ofList, List.drop_one, List.tail_cons, List.dropLast_concat,
    replacePairs_escape, replacePairs_doubleBackslashes]

/-! ## Evaluating it -/

theorem parse_quotedFormula (h : '\n' ∉ cs) :
    parse (quotedFormula (escape cs)) =
      .ok (.text (String.ofList ('"' :: (escape cs ++ ['"'])))) := by
  have hstring : IsString ('"' :: (escape cs ++ ['"'])) := ⟨_, rfl, isStringTail_escape h⟩
  refine (parse_iff_written _).2 _ ⟨[], _, forall_mem_of_all rfl, .loosen (by omega) (.text hstring), ?_⟩
  rw [quotedFormula, String.toList_ofList]
  rfl

/-- **A text on one line is what its escaped form between quotes comes to**, in any setting: nothing
is asked of the cells, and no random number is drawn. -/
theorem outcomeAt_quotedFormula (s : Setting) (h : '\n' ∉ cs) :
    outcomeAt s 0 (quotedFormula (escape cs)) = .done (.ok (.text (String.ofList cs))) := by
  have hvalue : eval s 0 (.text (String.ofList ('"' :: (escape cs ++ ['"'])))) =
      Pure.pure (.text (String.ofList cs)) := by
    rw [eval, s.exceeds_zero, textLiteral_escape]
    rfl
  have hparsed (e : Expr) (f : Expr → Evaluation Value) :
      (Evaluation.ofExcept (.ok e) >>= f) = f e := rfl
  rw [outcomeAt, parse_quotedFormula h, hparsed, hvalue]
  rfl

/-- **Texts on one line are read back as they were written.**  The formula that is a text between
quotes, with a backslash before each quote and each backslash, comes to exactly that text, among any
cells and with any options, and it draws no random number. -/
theorem evaluate_quotedFormula {t : String} (h : '\n' ∉ t.toList) (strict : Bool) (clock : Moment)
    (limit : Option Nat) (cells : Cells) :
    evaluate strict clock limit cells (.text (quotedFormula (escape t.toList))) =
      Pure.pure (.ok (.text t)) := by
  unfold evaluate
  rw [formula?_quotedFormula]
  dsimp only
  rw [outcomeAt_quotedFormula _ h, String.ofList_toList]
  rfl

/-- Backslashes before a quote and at the end. -/
theorem evaluate_pathInQuotes : '\n' ∉ "\\\"C:\\\\\" \\".toList ∧
    evaluate true noon (some 0) .empty (.text "=\"\\\\\\\"C:\\\\\\\\\\\" \\\\\"") =
      Pure.pure (.ok (.text "\\\"C:\\\\\" \\")) := by
  have hline : '\n' ∉ "\\\"C:\\\\\" \\".toList := by decide
  have hquoted : quotedFormula (escape "\\\"C:\\\\\" \\".toList) =
      "=\"\\\\\\\"C:\\\\\\\\\\\" \\\\\"" := by decide +kernel
  refine ⟨hline, ?_⟩
  rw [← hquoted]
  exact evaluate_quotedFormula hline true noon (some 0) .empty

end Worksheet.Formula
