import Mathlib
import Worksheet.Formula.Parser

/-!
# The tokens of formulas

What the texts of each class of tokens are, said without regard to how a text is read: a number is
digits with a point and an exponent, a string is what stands between two quotes, and so on.  A token
that is found at the front of a text is of its class, and a token of a class is found at the front
of a text in which nothing follows that would go on with it.
-/

namespace Worksheet.Formula

/-! ## Classes of texts -/

/-- Nothing but blanks that can stand between tokens. -/
def Gap (cs : List Char) : Prop :=
  ∀ c ∈ cs, isGap c

/-- One digit or more. -/
def IsDigits (cs : List Char) : Prop :=
  cs ≠ [] ∧ ∀ c ∈ cs, c.isDigit

/-- Digits with at most one point before, after or among them. -/
def IsMantissa (cs : List Char) : Prop :=
  IsDigits cs ∨ ∃ whole fraction, cs = whole ++ '.' :: fraction ∧ (∀ c ∈ whole, c.isDigit) ∧
    (∀ c ∈ fraction, c.isDigit) ∧ (whole ≠ [] ∨ fraction ≠ [])

/-- A sign or nothing. -/
def IsSign (cs : List Char) : Prop :=
  cs = [] ∨ cs = ['+'] ∨ cs = ['-']

/-- An exponent or nothing. -/
def IsExponent (cs : List Char) : Prop :=
  cs = [] ∨ ∃ e sign digits, cs = e :: (sign ++ digits) ∧ (e = 'e' ∨ e = 'E') ∧ IsSign sign ∧
    IsDigits digits

/-- A number. -/
def IsNumber (cs : List Char) : Prop :=
  ∃ mantissa exponent, cs = mantissa ++ exponent ∧ IsMantissa mantissa ∧ IsExponent exponent

/-- What follows the opening quote of a string, on one line.  A backslash goes with the character
after it. -/
inductive IsStringTail : List Char → Prop where
  | close : IsStringTail ['"']
  | char {c : Char} {cs : List Char} :
      c ≠ '"' → c ≠ '\\' → c ≠ '\n' → IsStringTail cs → IsStringTail (c :: cs)
  | escape {c : Char} {cs : List Char} :
      c ≠ '\n' → IsStringTail cs → IsStringTail ('\\' :: c :: cs)

/-- A string with its quotes. -/
def IsString (cs : List Char) : Prop :=
  ∃ tail, cs = '"' :: tail ∧ IsStringTail tail

/-- The address of a cell: capital letters and digits. -/
def IsCell (cs : List Char) : Prop :=
  ∃ letters digits, cs = letters ++ digits ∧ letters ≠ [] ∧
    (∀ c ∈ letters, Address.isColumnLetter c) ∧ IsDigits digits

/-- The name of a function with its opening parenthesis, and spaces and tabs between them. -/
def IsOpener (cs : List Char) : Prop :=
  ∃ first name gap, cs = first :: (name ++ gap ++ ['(']) ∧ isNameStart first ∧
    (∀ c ∈ name, isNameChar c) ∧ ∀ c ∈ gap, c = ' ' ∨ c = '\t'

/-- The texts of the tokens of a class. -/
def Terminal.Matches : Terminal → List Char → Prop
  | call, cs => IsOpener cs
  | cell, cs => IsCell cs
  | bool, cs => cs = ['T', 'R', 'U', 'E'] ∨ cs = ['F', 'A', 'L', 'S', 'E']
  | number, cs => IsNumber cs
  | text, cs => IsString cs
  | greaterEqual, cs => cs = ['>', '=']
  | lessEqual, cs => cs = ['<', '=']
  | notEqual, cs => cs = ['<', '>']
  | ampersand, cs => cs = ['&']
  | caret, cs => cs = ['^']
  | colon, cs => cs = [':']
  | comma, cs => cs = [',']
  | equal, cs => cs = ['=']
  | less, cs => cs = ['<']
  | opening, cs => cs = ['(']
  | minus, cs => cs = ['-']
  | greater, cs => cs = ['>']
  | percent, cs => cs = ['%']
  | plus, cs => cs = ['+']
  | closing, cs => cs = [')']
  | slash, cs => cs = ['/']
  | star, cs => cs = ['*']

/-! ## Characters -/

theorem isNameChar_of_isNameStart {c : Char} (h : isNameStart c) : isNameChar c := by
  unfold isNameStart at h
  unfold isNameChar Char.isAlphanum
  rcases Bool.or_eq_true_iff.mp h with h | h
  · simp [h]
  · simp [h]

theorem isNameChar_of_isDigit {c : Char} (h : c.isDigit) : isNameChar c := by
  unfold isNameChar Char.isAlphanum
  simp [h]

theorem isNameStart_of_isColumnLetter {c : Char} (h : Address.isColumnLetter c) :
    isNameStart c := by
  have hu : c.isUpper := by
    unfold Char.isUpper
    simpa [Address.isColumnLetter, Char.le_def] using h
  unfold isNameStart Char.isAlpha
  simp [hu]

theorem not_isDigit_of_isNameStart {c : Char} (h : isNameStart c) : ¬ c.isDigit := by
  unfold isNameStart Char.isAlpha Char.isUpper Char.isLower at h
  unfold Char.isDigit
  simp only [Bool.or_eq_true, Bool.and_eq_true, decide_eq_true_eq, UInt32.le_iff_toNat_le,
    ge_iff_le, beq_iff_eq] at h ⊢
  have : 'Z'.val.toNat = 90 := rfl
  have : 'A'.val.toNat = 65 := rfl
  have : 'a'.val.toNat = 97 := rfl
  have : 'z'.val.toNat = 122 := rfl
  have : '9'.val.toNat = 57 := rfl
  have : '0'.val.toNat = 48 := rfl
  rcases h with h | rfl
  · omega
  · decide

theorem not_isColumnLetter_of_isDigit {c : Char} (h : c.isDigit) : ¬ Address.isColumnLetter c :=
  fun hc => not_isDigit_of_isNameStart (isNameStart_of_isColumnLetter hc) h

theorem not_isGap_of_isNameChar {c : Char} (h : isNameChar c) : ¬ isGap c := by
  unfold isGap
  intro hg
  simp only [Bool.or_eq_true, beq_iff_eq] at hg
  rcases hg with (((rfl | rfl) | rfl) | rfl) | rfl <;> exact absurd h (by decide)

/-- What holds of every character of a short text is checked one by one. -/
theorem forall_mem_of_all {p : Char → Prop} [DecidablePred p] {cs : List Char}
    (h : cs.all (fun c => decide (p c)) = true) : ∀ c ∈ cs, p c := by
  intro c hc
  exact of_decide_eq_true (List.all_eq_true.mp h c hc)

/-! ## Runs of characters -/

/-- Nothing, or a character that does not go on with a run. -/
def StopsRun (p : Char → Bool) (cs : List Char) : Prop :=
  ∀ c ∈ cs.head?, ¬ p c

/-- The run of characters at the front of a text, and what is left. -/
theorem exists_run (p : Char → Bool) (cs : List Char) :
    ∃ run rest, cs = run ++ rest ∧ (∀ c ∈ run, p c) ∧ StopsRun p rest := by
  refine ⟨cs.takeWhile p, cs.dropWhile p, List.takeWhile_append_dropWhile.symm, ?_, ?_⟩
  · exact fun _ hc => List.mem_takeWhile_imp hc
  · intro c hc
    have hnot := List.head?_dropWhile_not p cs
    rw [Option.mem_def.mp hc] at hnot
    simpa using hnot

theorem takeWhile_run {p : Char → Bool} {run rest : List Char} (hrun : ∀ c ∈ run, p c)
    (hrest : StopsRun p rest) : (run ++ rest).takeWhile p = run := by
  rw [List.takeWhile_append_of_pos hrun]
  cases rest with
  | nil => simp
  | cons c rest => simp [hrest c rfl]

theorem dropWhile_run {p : Char → Bool} {run rest : List Char} (hrun : ∀ c ∈ run, p c)
    (hrest : StopsRun p rest) : (run ++ rest).dropWhile p = rest := by
  rw [List.dropWhile_append_of_pos hrun]
  cases rest with
  | nil => rfl
  | cons c rest => simp [hrest c rfl]

/-! ## What is found is of its class -/

theorem isOpener_of_lexeme {cs l : List Char} (h : callLexeme? cs = some l) :
    IsOpener l ∧ ∃ rest, cs = l ++ rest := by
  cases cs with
  | nil => cases h
  | cons c cs =>
      unfold callLexeme? at h
      dsimp only at h
      obtain ⟨name, rest, hcs, hname, hstop⟩ := exists_run isNameChar (c :: cs)
      rw [hcs, takeWhile_run hname hstop, dropWhile_run hname hstop] at h
      obtain ⟨gap, rest, rfl, hgap, hstop'⟩ := exists_run (fun c => c == ' ' || c == '\t') rest
      rw [takeWhile_run hgap hstop', dropWhile_run hgap hstop'] at h
      cases rest with
      | nil => cases h
      | cons d rest =>
      by_cases hd : d = '('
      case neg =>
        split at h
        case h_1 heq => exact absurd (List.cons.inj heq).1 hd
        case h_2 => cases h
      subst hd
      by_cases hc : isNameStart c
      case neg =>
        simp only [hc] at h
        cases h
      simp only [hc, if_true] at h
      obtain rfl := Option.some.inj h
      cases name with
      | nil =>
          -- the first character starts a name, so the run is not empty
          have hhead : c ∈ (gap ++ '(' :: rest).head? := by
            rw [← List.nil_append (gap ++ '(' :: rest), ← hcs]
            rfl
          exact absurd (isNameChar_of_isNameStart hc) (hstop c hhead)
      | cons e name =>
          injection hcs with hce hcs
          subst hce
          refine ⟨⟨c, name, gap, by simp, hc, fun d hd => hname d (List.mem_cons_of_mem _ hd), ?_⟩,
            rest, ?_⟩
          · intro d hd
            simpa using hgap d hd
          · rw [hcs]
            simp

theorem isCell_of_lexeme {cs l : List Char} (h : cellLexeme? cs = some l) :
    IsCell l ∧ ∃ rest, cs = l ++ rest := by
  unfold cellLexeme? at h
  obtain ⟨letters, rest, rfl, hletters, hstop⟩ := exists_run Address.isColumnLetter cs
  rw [takeWhile_run hletters hstop, dropWhile_run hletters hstop] at h
  obtain ⟨digits, rest, rfl, hdigits, hstop⟩ := exists_run Char.isDigit rest
  rw [takeWhile_run hdigits hstop] at h
  dsimp only at h
  split at h
  case isTrue => cases h
  case isFalse hne =>
  obtain rfl := Option.some.inj h
  rw [Bool.or_eq_true, not_or, List.isEmpty_iff, List.isEmpty_iff] at hne
  exact ⟨⟨letters, digits, rfl, hne.1, hletters, hne.2, hdigits⟩, rest, by simp⟩

theorem exponentLexeme_of_sign {e : Char} (he : e = 'e' ∨ e = 'E') {sign rest : List Char}
    (hsign : IsSign sign) (hrest : sign = [] → rest.head? ≠ some '+' ∧ rest.head? ≠ some '-') :
    Decimal.exponentLexeme (e :: (sign ++ rest)) =
      if (rest.takeWhile Char.isDigit).isEmpty then []
      else e :: (sign ++ rest.takeWhile Char.isDigit) := by
  have he' : (e == 'e' || e == 'E') = true := by simpa using he
  unfold Decimal.exponentLexeme
  simp only [he', if_true]
  rcases hsign with rfl | rfl | rfl
  · obtain ⟨hplus, hminus⟩ := hrest rfl
    rw [List.nil_append]
    split
    case h_1 => exact absurd List.head?_cons hplus
    case h_2 => exact absurd List.head?_cons hminus
    case h_3 => rfl
  · rfl
  · rfl

theorem isExponent_of_lexeme (cs : List Char) :
    IsExponent (Decimal.exponentLexeme cs) ∧ ∃ rest, cs = Decimal.exponentLexeme cs ++ rest := by
  cases cs with
  | nil => exact ⟨.inl rfl, [], rfl⟩
  | cons e cs =>
      by_cases he : e = 'e' ∨ e = 'E'
      case neg =>
        have he' : (e == 'e' || e == 'E') = false := by simpa using he
        have hnil : Decimal.exponentLexeme (e :: cs) = [] := by
          simp only [Decimal.exponentLexeme, he', Bool.false_eq_true, if_false]
        rw [hnil]
        exact ⟨.inl rfl, _, rfl⟩
      -- a sign is taken if there is one, even if it turns out that no digit follows
      have hsign : ∃ sign rest, cs = sign ++ rest ∧ IsSign sign ∧
          (sign = [] → rest.head? ≠ some '+' ∧ rest.head? ≠ some '-') := by
        by_cases hplus : cs.head? = some '+'
        · obtain ⟨rest, rfl⟩ := List.head?_eq_some_iff.mp hplus
          exact ⟨['+'], rest, rfl, .inr (.inl rfl), by simp⟩
        by_cases hminus : cs.head? = some '-'
        · obtain ⟨rest, rfl⟩ := List.head?_eq_some_iff.mp hminus
          exact ⟨['-'], rest, rfl, .inr (.inr rfl), by simp⟩
        exact ⟨[], cs, rfl, .inl rfl, fun _ => ⟨hplus, hminus⟩⟩
      obtain ⟨sign, rest, rfl, hsign, hrest⟩ := hsign
      rw [exponentLexeme_of_sign he hsign hrest]
      obtain ⟨digits, rest, rfl, hdigits, hstop⟩ := exists_run Char.isDigit rest
      rw [takeWhile_run hdigits hstop]
      cases digits with
      | nil => exact ⟨.inl rfl, _, rfl⟩
      | cons d digits =>
          refine ⟨.inr ⟨e, sign, d :: digits, rfl, he, hsign, by simp, hdigits⟩, rest, ?_⟩
          simp

theorem isNumber_of_lexeme {cs l : List Char} (h : numberLexeme? cs = some l) :
    IsNumber l ∧ ∃ rest, cs = l ++ rest := by
  unfold numberLexeme? at h
  obtain ⟨whole, rest, rfl, hwhole, hstop⟩ := exists_run Char.isDigit cs
  rw [takeWhile_run hwhole hstop, dropWhile_run hwhole hstop] at h
  dsimp only at h
  -- a point goes on with the number even if no digit follows it
  split at h
  case h_1 rest =>
      obtain ⟨fraction, rest, rfl, hfraction, hstop⟩ := exists_run Char.isDigit rest
      rw [takeWhile_run hfraction hstop, dropWhile_run hfraction hstop] at h
      split at h
      case isTrue => cases h
      case isFalse hne =>
      obtain rfl := Option.some.inj h
      rw [Bool.and_eq_true, List.isEmpty_iff, List.isEmpty_iff, not_and_or] at hne
      obtain ⟨hexp, rest', hrest⟩ := isExponent_of_lexeme rest
      refine ⟨⟨whole ++ '.' :: fraction, _, by simp, ?_, hexp⟩, rest', ?_⟩
      · exact .inr ⟨whole, fraction, rfl, hwhole, hfraction, hne⟩
      · simpa using hrest
  case h_2 =>
      split at h
      case isTrue => cases h
      case isFalse hne =>
      obtain rfl := Option.some.inj h
      rw [List.isEmpty_iff] at hne
      obtain ⟨hexp, rest', hrest⟩ := isExponent_of_lexeme rest
      refine ⟨⟨whole, _, rfl, .inl ⟨hne, hwhole⟩, hexp⟩, rest', ?_⟩
      simpa using hrest

theorem isStringTail_of_stringTail {cs l : List Char} (h : stringTail? cs = some l) :
    IsStringTail l ∧ ∃ rest, cs = l ++ rest := by
  fun_induction stringTail? cs generalizing l with
  | case1 => cases h
  | case2 rest =>
      obtain rfl := Option.some.inj h
      exact ⟨.close, rest, rfl⟩
  | case3 => cases h
  | case4 => cases h
  | case5 c cs hc ih =>
      obtain ⟨l, hl, rfl⟩ := Option.map_eq_some_iff.mp h
      obtain ⟨ht, rest, rfl⟩ := ih hl
      exact ⟨.escape hc ht, rest, rfl⟩
  | case6 c cs hquote hline hescape ih =>
      obtain ⟨l, hl, rfl⟩ := Option.map_eq_some_iff.mp h
      have hbackslash : c ≠ '\\' := by
        rintro rfl
        cases cs with
        | nil => cases hl
        | cons d cs => exact hescape d cs rfl rfl
      obtain ⟨ht, rest, rfl⟩ := ih hl
      exact ⟨.char hquote hbackslash hline ht, rest, rfl⟩

theorem isString_of_lexeme {cs l : List Char} (h : textLexeme? cs = some l) :
    IsString l ∧ ∃ rest, cs = l ++ rest := by
  unfold textLexeme? at h
  split at h
  case h_1 cs =>
      obtain ⟨l, hl, rfl⟩ := Option.map_eq_some_iff.mp h
      obtain ⟨ht, rest, rfl⟩ := isStringTail_of_stringTail hl
      exact ⟨⟨l, rfl, ht⟩, rest, rfl⟩
  case h_2 => cases h

theorem eq_of_fixedLexeme {word cs l : List Char} (h : fixedLexeme? word cs = some l) :
    l = word ∧ ∃ rest, cs = l ++ rest := by
  unfold fixedLexeme? at h
  split at h
  case isTrue hp =>
      obtain rfl := Option.some.inj h
      obtain ⟨rest, rfl⟩ := List.isPrefixOf_iff_prefix.mp hp
      exact ⟨rfl, rest, rfl⟩
  case isFalse => cases h

/-- A token that is found at the front of a text is of its class. -/
theorem Terminal.matches_of_lexeme {t : Terminal} {cs l : List Char} (h : t.lexeme? cs = some l) :
    t.Matches l ∧ ∃ rest, cs = l ++ rest := by
  cases t with
  | call => exact isOpener_of_lexeme h
  | cell => exact isCell_of_lexeme h
  | number => exact isNumber_of_lexeme h
  | text => exact isString_of_lexeme h
  | bool =>
      rcases Option.or_eq_some_iff.mp h with h | ⟨_, h⟩
      · exact ⟨.inl (eq_of_fixedLexeme h).1, (eq_of_fixedLexeme h).2⟩
      · exact ⟨.inr (eq_of_fixedLexeme h).1, (eq_of_fixedLexeme h).2⟩
  | _ => exact eq_of_fixedLexeme h

theorem lexeme_of_firstMatch {ts : List Terminal} {cs l : List Char} {t : Terminal}
    (h : firstMatch? ts cs = some (t, l)) : t.lexeme? cs = some l := by
  obtain ⟨u, _, hu⟩ := List.exists_of_findSome?_eq_some h
  obtain ⟨l', hl, he⟩ := Option.map_eq_some_iff.mp hu
  cases he
  exact hl

/-- Whatever can stand at a place, a token that is found there is of its class. -/
theorem matches_of_nextLexeme {expected : Expected} {cs l : List Char} {t : Terminal}
    (h : nextLexeme? expected cs = some (t, l)) : t.Matches l ∧ ∃ rest, cs = l ++ rest := by
  rcases Option.or_eq_some_iff.mp h with h | ⟨_, h⟩
  · exact Terminal.matches_of_lexeme (lexeme_of_firstMatch h)
  · exact Terminal.matches_of_lexeme (lexeme_of_firstMatch h)

theorem IsDigits.head {cs : List Char} (h : IsDigits cs) : ∃ d ds, cs = d :: ds ∧ d.isDigit := by
  obtain ⟨d, ds, rfl⟩ := List.exists_cons_of_ne_nil h.1
  exact ⟨d, ds, rfl, h.2 d List.mem_cons_self⟩

theorem IsCell.head {cs : List Char} (h : IsCell cs) :
    ∃ c ds, cs = c :: ds ∧ Address.isColumnLetter c := by
  obtain ⟨letters, digits, rfl, hne, hall, _⟩ := h
  obtain ⟨c, letters, rfl⟩ := List.exists_cons_of_ne_nil hne
  exact ⟨c, _, rfl, hall c List.mem_cons_self⟩

theorem IsNumber.head {cs : List Char} (h : IsNumber cs) :
    ∃ c ds, cs = c :: ds ∧ (c.isDigit ∨ c = '.') := by
  obtain ⟨mantissa, exponent, rfl, hm | ⟨whole, fraction, rfl, hwhole, _, _⟩, _⟩ := h
  · obtain ⟨d, ds, rfl, hd⟩ := hm.head
    exact ⟨d, _, rfl, .inl hd⟩
  · cases whole with
    | nil => exact ⟨'.', _, rfl, .inr rfl⟩
    | cons d whole => exact ⟨d, _, rfl, .inl (hwhole d List.mem_cons_self)⟩

theorem IsCell.isNameChar {cs : List Char} (h : IsCell cs) : ∀ c ∈ cs, isNameChar c := by
  obtain ⟨letters, digits, rfl, _, hletters, _, hdigits⟩ := h
  intro c hc
  rcases List.mem_append.mp hc with hc | hc
  · exact isNameChar_of_isNameStart (isNameStart_of_isColumnLetter (hletters c hc))
  · exact isNameChar_of_isDigit (hdigits c hc)

/-- Tokens are not empty, and none of them starts with a blank. -/
theorem Terminal.Matches.head {t : Terminal} {l : List Char} (h : t.Matches l) :
    ∃ c cs, l = c :: cs ∧ ¬ isGap c := by
  cases t with
  | call =>
      obtain ⟨c, name, gap, rfl, hc, _⟩ := h
      exact ⟨c, _, rfl, not_isGap_of_isNameChar (isNameChar_of_isNameStart hc)⟩
  | cell =>
      obtain ⟨c, cs, rfl, hc⟩ := IsCell.head h
      have hname := isNameChar_of_isNameStart (isNameStart_of_isColumnLetter hc)
      exact ⟨c, cs, rfl, not_isGap_of_isNameChar hname⟩
  | number =>
      obtain ⟨c, cs, rfl, hc | rfl⟩ := IsNumber.head h
      · exact ⟨c, cs, rfl, not_isGap_of_isNameChar (isNameChar_of_isDigit hc)⟩
      · exact ⟨'.', cs, rfl, by decide⟩
  | text =>
      obtain ⟨tail, rfl, _⟩ := h
      exact ⟨'"', tail, rfl, by decide⟩
  | bool =>
      rcases h with rfl | rfl
      · exact ⟨'T', _, rfl, by decide⟩
      · exact ⟨'F', _, rfl, by decide⟩
  | _ =>
      cases h
      exact ⟨_, _, rfl, by decide⟩

/-! ## What is of a class is found -/

/-- Nothing that goes on with a number, a cell or a truth value, or makes a function's name of
it. -/
structure Delimits (rest : List Char) : Prop where
  stops : StopsRun isNameChar rest
  opens : (rest.dropWhile fun c => c == ' ' || c == '\t').head? ≠ some '('

theorem StopsRun.mono {p q : Char → Bool} {cs : List Char} (h : StopsRun p cs)
    (hpq : ∀ c, q c → p c) : StopsRun q cs :=
  fun c hc hq => h c hc (hpq c hq)

theorem lexeme_of_isOpener {cs : List Char} (h : IsOpener cs) (rest : List Char) :
    callLexeme? (cs ++ rest) = some cs := by
  obtain ⟨first, name, gap, rfl, hfirst, hname, hgap⟩ := h
  have hrun : ∀ c ∈ first :: name, isNameChar c := by
    intro c hc
    rcases List.mem_cons.mp hc with rfl | hc
    · exact isNameChar_of_isNameStart hfirst
    · exact hname c hc
  have hgap' : ∀ c ∈ gap, (fun c => c == ' ' || c == '\t') c := by
    intro c hc
    simpa using hgap c hc
  have hstop : StopsRun isNameChar (gap ++ '(' :: rest) := by
    intro c hc
    cases gap with
    | nil =>
        obtain rfl := Option.some.inj hc
        decide
    | cons d gap =>
        obtain rfl := Option.some.inj hc
        rcases hgap d List.mem_cons_self with rfl | rfl <;> decide
  have hstop' : StopsRun (fun c => c == ' ' || c == '\t') ('(' :: rest) := by
    intro c hc
    obtain rfl := Option.some.inj hc
    decide
  have heq : first :: (name ++ gap ++ ['(']) ++ rest = first :: name ++ (gap ++ '(' :: rest) := by
    simp
  rw [heq]
  have htake := takeWhile_run hrun hstop
  have hdrop := dropWhile_run hrun hstop
  simp only [List.cons_append] at htake hdrop ⊢
  unfold callLexeme?
  simp only [htake, hdrop, takeWhile_run hgap' hstop', dropWhile_run hgap' hstop', hfirst, if_true]
  simp

theorem lexeme_of_isCell {cs rest : List Char} (h : IsCell cs) (hrest : StopsRun isNameChar rest) :
    cellLexeme? (cs ++ rest) = some cs := by
  obtain ⟨letters, digits, rfl, hne, hletters, hne', hdigits⟩ := h
  have hstop : StopsRun Address.isColumnLetter (digits ++ rest) := by
    obtain ⟨d, digits, rfl⟩ := List.exists_cons_of_ne_nil hne'
    intro c hc
    obtain rfl := Option.some.inj hc
    exact not_isColumnLetter_of_isDigit (hdigits d List.mem_cons_self)
  have hstop' : StopsRun Char.isDigit rest := hrest.mono fun _ => isNameChar_of_isDigit
  unfold cellLexeme?
  rw [List.append_assoc, takeWhile_run hletters hstop, dropWhile_run hletters hstop,
    takeWhile_run hdigits hstop']
  simp [hne, hne']

theorem lexeme_of_isExponent {cs rest : List Char} (h : IsExponent cs)
    (hrest : StopsRun isNameChar rest) : Decimal.exponentLexeme (cs ++ rest) = cs := by
  rcases h with rfl | ⟨e, sign, digits, rfl, he, hsign, hne, hdigits⟩
  -- no letter follows, so none starts an exponent
  · cases rest with
    | nil => rfl
    | cons c rest =>
        have hc : (c == 'e' || c == 'E') = false := by
          rw [Bool.or_eq_false_iff, beq_eq_false_iff_ne, beq_eq_false_iff_ne]
          refine ⟨?_, ?_⟩
          · rintro rfl
            exact hrest _ rfl (by decide)
          · rintro rfl
            exact hrest _ rfl (by decide)
        simp [Decimal.exponentLexeme, hc]
  · have hstop : StopsRun Char.isDigit rest := hrest.mono fun _ => isNameChar_of_isDigit
    have heq : e :: (sign ++ digits) ++ rest = e :: (sign ++ (digits ++ rest)) := by simp
    have hhead : sign = [] → (digits ++ rest).head? ≠ some '+' ∧
        (digits ++ rest).head? ≠ some '-' := by
      intro _
      obtain ⟨d, ds, rfl⟩ := List.exists_cons_of_ne_nil hne
      have hd := hdigits d List.mem_cons_self
      refine ⟨?_, ?_⟩
      · intro hc
        obtain rfl := Option.some.inj hc
        exact absurd hd (by decide)
      · intro hc
        obtain rfl := Option.some.inj hc
        exact absurd hd (by decide)
    rw [heq, exponentLexeme_of_sign he hsign hhead, takeWhile_run hdigits hstop]
    simp [hne]

theorem lexeme_of_isNumber {cs rest : List Char} (h : IsNumber cs)
    (hrest : StopsRun isNameChar rest) : numberLexeme? (cs ++ rest) = some cs := by
  obtain ⟨mantissa, exponent, rfl, hm, he⟩ := h
  -- an exponent starts with a letter, so that digits and a point before it end there
  have hafter : ∀ c ∈ (exponent ++ rest).head?, ¬ c.isDigit ∧ c ≠ '.' := by
    intro c hc
    rcases he with rfl | ⟨e, sign, digits, rfl, he, _⟩
    · have hn := hrest c hc
      refine ⟨fun hd => hn (isNameChar_of_isDigit hd), ?_⟩
      rintro rfl
      exact hn (by decide)
    · obtain rfl := Option.some.inj hc
      rcases he with rfl | rfl <;> decide
  have hstop : StopsRun Char.isDigit (exponent ++ rest) := fun c hc => (hafter c hc).1
  unfold numberLexeme?
  -- without a point and with one
  rcases hm with ⟨hne, hdigits⟩ | ⟨whole, fraction, rfl, hwhole, hfraction, hne⟩
  · rw [List.append_assoc, takeWhile_run hdigits hstop, dropWhile_run hdigits hstop]
    dsimp only
    split
    case h_1 heq =>
        rw [heq] at hafter
        exact absurd rfl (hafter '.' rfl).2
    case h_2 =>
        rw [lexeme_of_isExponent he hrest]
        simp [hne]
  · have hdot : StopsRun Char.isDigit ('.' :: (fraction ++ (exponent ++ rest))) := by
      intro c hc
      obtain rfl := Option.some.inj hc
      decide
    have heq : whole ++ '.' :: fraction ++ exponent ++ rest =
        whole ++ '.' :: (fraction ++ (exponent ++ rest)) := by simp
    rw [heq, takeWhile_run hwhole hdot, dropWhile_run hwhole hdot]
    simp only [takeWhile_run hfraction hstop, dropWhile_run hfraction hstop,
      lexeme_of_isExponent he hrest]
    rw [if_neg (by simpa [imp_iff_not_or] using hne)]
    simp

theorem lexeme_of_isStringTail {cs : List Char} (h : IsStringTail cs) (rest : List Char) :
    stringTail? (cs ++ rest) = some cs := by
  induction h with
  | close => rfl
  | @char c cs hquote hbackslash hline _ ih =>
      have heq : stringTail? (c :: (cs ++ rest)) = (stringTail? (cs ++ rest)).map (c :: ·) := by
        rw [stringTail?]
        · exact fun hc => hquote hc
        · exact fun hc => hline hc
        · exact fun _ _ hc => absurd hc hbackslash
      rw [List.cons_append, heq, ih]
      rfl
  | @escape c cs hline _ ih =>
      rw [List.cons_append, List.cons_append, stringTail?, if_neg hline, ih]
      rfl

theorem lexeme_of_isString {cs : List Char} (h : IsString cs) (rest : List Char) :
    textLexeme? (cs ++ rest) = some cs := by
  obtain ⟨tail, rfl, ht⟩ := h
  show (stringTail? (tail ++ rest)).map _ = _
  rw [lexeme_of_isStringTail ht rest]
  rfl

/-! ## What stands at a place -/

theorem callLexeme_of_first {c : Char} (h : ¬ isNameStart c) (cs : List Char) :
    Terminal.call.lexeme? (c :: cs) = none := by
  show callLexeme? (c :: cs) = none
  unfold callLexeme?
  dsimp only
  split
  · exact if_neg h
  · rfl

theorem callLexeme_of_delimits {cs rest : List Char} (hcs : ∀ c ∈ cs, isNameChar c)
    (hrest : Delimits rest) : Terminal.call.lexeme? (cs ++ rest) = none := by
  cases h : cs ++ rest with
  | nil => rfl
  | cons c ds =>
      show callLexeme? (c :: ds) = none
      unfold callLexeme?
      dsimp only
      rw [← h, takeWhile_run hcs hrest.stops, dropWhile_run hcs hrest.stops]
      split
      case h_1 heq =>
          have hopens := hrest.opens
          rw [heq] at hopens
          exact absurd rfl hopens
      case h_2 => rfl

theorem cellLexeme_of_first {c : Char} (h : ¬ Address.isColumnLetter c) (cs : List Char) :
    Terminal.cell.lexeme? (c :: cs) = none := by
  show cellLexeme? _ = none
  unfold cellLexeme?
  rw [List.takeWhile_cons_of_neg h]
  rfl

theorem cellLexeme_of_letters {cs rest : List Char} (hcs : ∀ c ∈ cs, Address.isColumnLetter c)
    (hrest : StopsRun isNameChar rest) : Terminal.cell.lexeme? (cs ++ rest) = none := by
  have hstop : StopsRun Address.isColumnLetter rest :=
    hrest.mono fun _ hc => isNameChar_of_isNameStart (isNameStart_of_isColumnLetter hc)
  have hnone : rest.takeWhile Char.isDigit = [] :=
    @takeWhile_run _ [] rest (fun _ hc => absurd hc List.not_mem_nil)
      (hrest.mono fun _ => isNameChar_of_isDigit)
  show cellLexeme? _ = none
  unfold cellLexeme?
  rw [takeWhile_run hcs hstop, dropWhile_run hcs hstop, hnone]
  simp

theorem numberLexeme_of_first {c : Char} (h : ¬ c.isDigit) (hdot : c ≠ '.') (cs : List Char) :
    Terminal.number.lexeme? (c :: cs) = none := by
  show numberLexeme? _ = none
  unfold numberLexeme?
  rw [List.takeWhile_cons_of_neg h, List.dropWhile_cons_of_neg h]
  dsimp only
  split
  case h_1 heq => exact absurd (List.cons.inj heq).1 hdot
  case h_2 => rfl

theorem boolLexeme_of_first {c : Char} (ht : c ≠ 'T') (hf : c ≠ 'F') (cs : List Char) :
    Terminal.bool.lexeme? (c :: cs) = none := by
  simp [Terminal.lexeme?, fixedLexeme?, List.isPrefixOf, ht.symm, hf.symm]

theorem firstMatch_cons_some {t : Terminal} {ts : List Terminal} {cs l : List Char}
    (h : t.lexeme? cs = some l) : firstMatch? (t :: ts) cs = some (t, l) := by
  simp [firstMatch?, h]

theorem firstMatch_cons_none {t : Terminal} {ts : List Terminal} {cs : List Char}
    (h : t.lexeme? cs = none) : firstMatch? (t :: ts) cs = firstMatch? ts cs := by
  simp [firstMatch?, h]

/-- Whether the token of a class goes on as long as it can, so that it has to be set off from what
follows it. -/
def Terminal.IsOpenEnded (t : Terminal) : Prop :=
  t = .cell ∨ t = .bool ∨ t = .number

/-- A name, a number or an address is not read where a symbol stands. -/
theorem firstMatch_of_symbol {c : Char} (hstart : ¬ isNameStart c) (hdigit : ¬ c.isDigit)
    (hdot : c ≠ '.') (cs : List Char) :
    firstMatch? Expected.operand.terminals (c :: cs) =
      firstMatch? [.text, .opening, .minus, .plus] (c :: cs) := by
  have hletter : ¬ Address.isColumnLetter c := fun h => hstart (isNameStart_of_isColumnLetter h)
  have hT : c ≠ 'T' := by
    rintro rfl
    exact hstart (by decide)
  have hF : c ≠ 'F' := by
    rintro rfl
    exact hstart (by decide)
  unfold Expected.terminals
  rw [firstMatch_cons_none (callLexeme_of_first hstart cs),
    firstMatch_cons_none (cellLexeme_of_first hletter cs),
    firstMatch_cons_none (boolLexeme_of_first hT hF cs),
    firstMatch_cons_none (numberLexeme_of_first hdigit hdot cs)]

/-- Where an expression starts, its first token is found. -/
theorem firstMatch_of_operand {t : Terminal} {cs rest : List Char}
    (ht : t ∈ Expected.operand.terminals) (hm : t.Matches cs)
    (hrest : t.IsOpenEnded → Delimits rest) :
    firstMatch? Expected.operand.terminals (cs ++ rest) = some (t, cs) := by
  cases t with
  | call => exact firstMatch_cons_some (lexeme_of_isOpener hm rest)
  | cell =>
      have hd := hrest (.inl rfl)
      unfold Expected.terminals
      rw [firstMatch_cons_none (callLexeme_of_delimits (IsCell.isNameChar hm) hd)]
      exact firstMatch_cons_some (lexeme_of_isCell hm hd.stops)
  | bool =>
      have hd := hrest (.inr (.inl rfl))
      -- names of functions and addresses are tried first, and letters alone are neither
      have hletters : ∀ c ∈ cs, Address.isColumnLetter c := by
        rcases hm with rfl | rfl <;> exact forall_mem_of_all (by decide)
      have hname : ∀ c ∈ cs, isNameChar c := fun c hc =>
        isNameChar_of_isNameStart (isNameStart_of_isColumnLetter (hletters c hc))
      unfold Expected.terminals
      rw [firstMatch_cons_none (callLexeme_of_delimits hname hd),
        firstMatch_cons_none (cellLexeme_of_letters hletters hd.stops)]
      rcases hm with rfl | rfl
      · exact firstMatch_cons_some rfl
      · exact firstMatch_cons_some rfl
  | number =>
      have hd := hrest (.inr (.inr rfl))
      obtain ⟨c, ds, rfl, hc⟩ := IsNumber.head hm
      -- nothing that is tried before numbers starts with a digit or a point
      have hstart : ¬ isNameStart c := by
        rcases hc with hc | rfl
        · exact fun h => not_isDigit_of_isNameStart h hc
        · decide
      have hT : c ≠ 'T' := by
        rintro rfl
        exact hstart (by decide)
      have hF : c ≠ 'F' := by
        rintro rfl
        exact hstart (by decide)
      unfold Expected.terminals
      rw [List.cons_append, firstMatch_cons_none (callLexeme_of_first hstart _),
        firstMatch_cons_none (cellLexeme_of_first
          (fun h => hstart (isNameStart_of_isColumnLetter h)) _),
        firstMatch_cons_none (boolLexeme_of_first hT hF _)]
      exact firstMatch_cons_some (lexeme_of_isNumber hm hd.stops)
  | text =>
      obtain ⟨tail, rfl, htail⟩ := hm
      rw [List.cons_append, firstMatch_of_symbol (by decide) (by decide) (by decide)]
      exact firstMatch_cons_some (lexeme_of_isString ⟨tail, rfl, htail⟩ rest)
  | opening =>
      cases hm
      exact firstMatch_of_symbol (by decide) (by decide) (by decide) rest
  | minus =>
      cases hm
      exact firstMatch_of_symbol (by decide) (by decide) (by decide) rest
  | plus =>
      cases hm
      exact firstMatch_of_symbol (by decide) (by decide) (by decide) rest
  | _ => exact absurd ht (by decide)

theorem nextLexeme_of_firstMatch {expected : Expected} {cs : List Char}
    {x : Terminal × List Char} (h : firstMatch? expected.terminals cs = some x) :
    nextLexeme? expected cs = some x := by
  unfold nextLexeme?
  rw [h]
  rfl

theorem nextLexeme_of_operand {t : Terminal} {cs rest : List Char}
    (ht : t ∈ Expected.operand.terminals) (hm : t.Matches cs)
    (hrest : t.IsOpenEnded → Delimits rest) :
    nextLexeme? .operand (cs ++ rest) = some (t, cs) ∧
      nextLexeme? .firstArgument (cs ++ rest) = some (t, cs) := by
  have h := firstMatch_of_operand ht hm hrest
  refine ⟨nextLexeme_of_firstMatch h, nextLexeme_of_firstMatch ?_⟩
  unfold firstMatch? at h ⊢
  show (Expected.operand.terminals ++ [Terminal.closing]).findSome? _ = _
  rw [List.findSome?_append, h]
  rfl

/-- After an expression, the token that goes on is found. -/
theorem nextLexeme_of_operator {t : Terminal} {cs rest : List Char}
    (ht : t ∈ Expected.operator.terminals) (hm : t.Matches cs)
    (hrest : t = .less ∨ t = .greater → ∀ c ∈ rest.head?, c ≠ '=' ∧ c ≠ '>') :
    nextLexeme? .operator (cs ++ rest) = some (t, cs) ∧
      nextLexeme? .afterCell (cs ++ rest) = some (t, cs) := by
  cases t with
  -- `<=`, `<>` and `>=` are tried before `<` and `>`
  | less =>
      cases hm
      cases rest with
      | nil => exact ⟨rfl, rfl⟩
      | cons c rest =>
          obtain ⟨heq, hgt⟩ := hrest (.inl rfl) c rfl
          refine ⟨?_, ?_⟩
          · simp [nextLexeme?, firstMatch?, Expected.terminals, Terminal.lexeme?, fixedLexeme?,
              heq.symm, hgt.symm]
          · simp [nextLexeme?, firstMatch?, Expected.terminals, Terminal.lexeme?, fixedLexeme?,
              heq.symm, hgt.symm]
  | greater =>
      cases hm
      cases rest with
      | nil => exact ⟨rfl, rfl⟩
      | cons c rest =>
          obtain ⟨heq, _⟩ := hrest (.inr rfl) c rfl
          refine ⟨?_, ?_⟩
          · simp [nextLexeme?, firstMatch?, Expected.terminals, Terminal.lexeme?, fixedLexeme?,
              heq.symm]
          · simp [nextLexeme?, firstMatch?, Expected.terminals, Terminal.lexeme?, fixedLexeme?,
              heq.symm]
  | call => exact absurd ht (by decide)
  | cell => exact absurd ht (by decide)
  | bool => exact absurd ht (by decide)
  | number => exact absurd ht (by decide)
  | text => exact absurd ht (by decide)
  | colon => exact absurd ht (by decide)
  | opening => exact absurd ht (by decide)
  | _ =>
      cases hm
      exact ⟨rfl, rfl⟩

end Worksheet.Formula
