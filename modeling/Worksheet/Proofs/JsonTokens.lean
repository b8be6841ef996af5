import Worksheet.Json.Token
import Worksheet.Proofs.Integers
import Worksheet.Proofs.JsonStrings

/-!
# Tokens of JSON text

A text is cut into tokens from left to right.  What the first one is depends on the first character,
and a number is cut off where no character goes on with it.
-/

namespace Worksheet.Json

/-! ## Tokens -/

namespace Token

theorem isGap_iff {c : Char} : isGap c ↔ c = ' ' ∨ c = '\t' ∨ c = '\n' ∨ c = '\r' := by
  simp [isGap, or_assoc]

end Token

theorem tokens_gap {c : Char} (hc : Token.isGap c) (cs : List Char) :
    tokens (c :: cs) = tokens cs := by
  rw [tokens, List.dropWhile_cons_of_pos hc]
  conv_rhs => rw [tokens]

theorem tokens_cons {c : Char} {cs : List Char} {t : Token} {more : Nat} (hc : ¬ Token.isGap c)
    (h : Token.first c cs = (t, more)) (ht : t ≠ .malformed) :
    tokens (c :: cs) = t :: tokens (cs.drop more) := by
  rw [tokens, List.dropWhile_cons_of_neg hc]
  dsimp only
  rw [h]
  cases t with
  | malformed => exact absurd rfl ht
  | _ => rfl

/-- How a text is cut into tokens: from one to the next, with gaps before each of them, up to the end
or to a token that is not well-formed. -/
inductive Cuts : List Char → List Token → Prop
  | done {gap : List Char} (hgap : ∀ c ∈ gap, Token.isGap c) : Cuts gap []
  | malformed {gap : List Char} {c : Char} {cs : List Char} {more : Nat}
      (hgap : ∀ c ∈ gap, Token.isGap c) (hc : ¬ Token.isGap c)
      (hfirst : Token.first c cs = (.malformed, more)) : Cuts (gap ++ c :: cs) [.malformed]
  | token {gap : List Char} {c : Char} {cs : List Char} {t : Token} {more : Nat} {ts : List Token}
      (hgap : ∀ c ∈ gap, Token.isGap c) (hc : ¬ Token.isGap c)
      (hfirst : Token.first c cs = (t, more)) (ht : t ≠ .malformed) (hrest : Cuts (cs.drop more) ts) :
      Cuts (gap ++ c :: cs) (t :: ts)

theorem tokens_gaps {gap : List Char} (hgap : ∀ c ∈ gap, Token.isGap c) (cs : List Char) :
    tokens (gap ++ cs) = tokens cs := by
  induction gap with
  | nil => rfl
  | cons c gap ih =>
      rw [List.cons_append, tokens_gap (hgap c List.mem_cons_self),
        ih fun d hd => hgap d (List.mem_cons_of_mem c hd)]

theorem tokens_malformed {c : Char} {cs : List Char} {more : Nat} (hc : ¬ Token.isGap c)
    (h : Token.first c cs = (.malformed, more)) : tokens (c :: cs) = [.malformed] := by
  rw [tokens, List.dropWhile_cons_of_neg hc]
  dsimp only
  rw [h]

/-- Every text is cut into its tokens. -/
theorem cuts_tokens (cs : List Char) : Cuts cs (tokens cs) := by
  induction hn : cs.length using Nat.strong_induction_on generalizing cs with
  | _ n ih =>
      have hsplit := List.takeWhile_append_dropWhile (p := Token.isGap) (l := cs)
      have hgap : ∀ c ∈ cs.takeWhile Token.isGap, Token.isGap c := fun c hc =>
        (List.mem_takeWhile_imp hc)
      generalize cs.takeWhile Token.isGap = gap at hsplit hgap
      rw [← hsplit, tokens_gaps hgap]
      cases hdrop : cs.dropWhile Token.isGap with
      | nil =>
          rw [List.append_nil, tokens, List.dropWhile_nil]
          exact .done hgap
      | cons c rest =>
          have hc : ¬ Token.isGap c := by
            have := List.head?_dropWhile_not Token.isGap cs
            rw [hdrop] at this
            simpa using this
          have hlength : rest.length < n := by
            rw [← hn, ← hsplit, hdrop, List.length_append, List.length_cons]
            omega
          rcases hfirst : Token.first c rest with ⟨t, more⟩
          by_cases ht : t = .malformed
          · rw [tokens_malformed hc (ht ▸ hfirst)]
            exact .malformed hgap hc (ht ▸ hfirst)
          · rw [tokens_cons hc hfirst ht]
            exact .token hgap hc hfirst ht (ih _ (by rw [List.length_drop]; omega) _ rfl)

/-! ## Numbers -/

/-- What follows a number: nothing that goes on with it. -/
def EndsNumber (rest : List Char) : Prop :=
  ∀ c ∈ rest.head?, ¬ c.isDigit ∧ c ∉ ['.', 'e', 'E', '+', '-']

/-- What can follow a value. -/
def EndsValue (rest : List Char) : Prop :=
  ∀ c ∈ rest.head?, c = ',' ∨ c = ']' ∨ c = '\x7d'

theorem EndsValue.endsNumber {rest : List Char} (h : EndsValue rest) : EndsNumber rest := by
  intro c hc
  rcases h c hc with rfl | rfl | rfl <;> decide

/-- The digits before the point.  A zero stands alone. -/
def wholeLexeme (cs : List Char) : List Char :=
  match cs with
  | '0' :: _ => ['0']
  | _ => cs.takeWhile Char.isDigit

/-- A point and the digits after it; empty if there are none. -/
def fractionLexeme : List Char → List Char
  | '.' :: tail =>
    let digits := tail.takeWhile Char.isDigit
    if digits.isEmpty then [] else '.' :: digits
  | _ => []

theorem magnitudeLexeme?_eq (cs : List Char) : Token.magnitudeLexeme? cs =
    let whole := wholeLexeme cs
    let fraction := fractionLexeme (cs.drop whole.length)
    if whole.isEmpty then none
    else some (whole ++ fraction ++
      Decimal.exponentLexeme ((cs.drop whole.length).drop fraction.length)) :=
  rfl

theorem wholeLexeme_cons {c : Char} (hc : c ≠ '0') (cs : List Char) :
    wholeLexeme (c :: cs) = (c :: cs).takeWhile Char.isDigit := by
  unfold wholeLexeme
  split
  · next heq => exact absurd (List.head_eq_of_cons_eq heq) hc
  · rfl

theorem wholeLexeme_isPrefix (cs : List Char) : wholeLexeme cs <+: cs := by
  unfold wholeLexeme
  split
  · exact ⟨_, rfl⟩
  · exact List.takeWhile_prefix _

theorem isDigit_wholeLexeme (cs : List Char) : ∀ c ∈ wholeLexeme cs, c.isDigit := by
  unfold wholeLexeme
  split
  · simp
  · exact fun c hc => List.mem_takeWhile_imp hc

theorem fractionLexeme_of_ne {cs : List Char} (h : ∀ c ∈ cs.head?, c ≠ '.') :
    fractionLexeme cs = [] := by
  unfold fractionLexeme
  split
  · exact absurd rfl (h '.' rfl)
  · rfl

theorem fractionLexeme_isPrefix (cs : List Char) : fractionLexeme cs <+: cs := by
  unfold fractionLexeme
  split
  · dsimp only
    split
    · exact List.nil_prefix
    · exact (List.prefix_cons_inj '.').mpr (List.takeWhile_prefix _)
  · exact List.nil_prefix

theorem head_fractionLexeme (cs : List Char) : ∀ c ∈ (fractionLexeme cs).head?, c = '.' := by
  unfold fractionLexeme
  split
  · dsimp only
    split
    · simp
    · simp
  · simp

/-- A sign in front of the digits of an exponent, if there is one. -/
def signLexeme (cs : List Char) : List Char :=
  match cs with
  | '+' :: _ => ['+']
  | '-' :: _ => ['-']
  | _ => []

theorem exponentLexeme_cons (e : Char) (cs : List Char) : Decimal.exponentLexeme (e :: cs) =
    if e == 'e' || e == 'E' then
      let digits := (cs.drop (signLexeme cs).length).takeWhile Char.isDigit
      if digits.isEmpty then [] else e :: (signLexeme cs ++ digits)
    else [] :=
  rfl

theorem signLexeme_isPrefix (cs : List Char) : signLexeme cs <+: cs := by
  unfold signLexeme
  split
  · exact ⟨_, rfl⟩
  · exact ⟨_, rfl⟩
  · exact List.nil_prefix

theorem head_exponentLexeme (cs : List Char) :
    ∀ c ∈ (Decimal.exponentLexeme cs).head?, c = 'e' ∨ c = 'E' := by
  cases cs with
  | nil => simp [Decimal.exponentLexeme]
  | cons e cs =>
      rw [exponentLexeme_cons]
      dsimp only
      split
      · next he =>
        split
        · simp
        · intro c hc
          obtain rfl : e = c := Option.some.inj hc
          simpa using he
      · simp

/-! ### Where a number ends -/

section

variable {rest : List Char}

theorem takeWhile_isDigit (h : EndsNumber rest) (cs : List Char) :
    (cs ++ rest).takeWhile Char.isDigit = cs.takeWhile Char.isDigit := by
  induction cs with
  | nil =>
      cases rest with
      | nil => rfl
      | cons c rest => exact List.takeWhile_cons_of_neg (h c rfl).1
  | cons c cs ih =>
      rw [List.cons_append, List.takeWhile_cons, List.takeWhile_cons, ih]

theorem wholeLexeme_append (h : EndsNumber rest) (cs : List Char) :
    wholeLexeme (cs ++ rest) = wholeLexeme cs := by
  cases cs with
  | nil => 
      cases rest with
      | nil => rfl
      | cons c rest =>
          have hc := (h c rfl).1
          have hzero : c ≠ '0' := by
            rintro rfl
            exact hc rfl
          show wholeLexeme (c :: rest) = []
          rw [wholeLexeme_cons hzero, List.takeWhile_cons_of_neg hc]
  | cons c cs =>
      by_cases hzero : c = '0'
      · subst hzero
        rfl
      · rw [List.cons_append, wholeLexeme_cons hzero, wholeLexeme_cons hzero, ← List.cons_append,
          takeWhile_isDigit h]

theorem fractionLexeme_append (h : EndsNumber rest) (cs : List Char) :
    fractionLexeme (cs ++ rest) = fractionLexeme cs := by
  cases cs with
  | nil =>
      refine fractionLexeme_of_ne fun c hc hpoint => (h c hc).2 ?_
      simp [hpoint]
  | cons c cs =>
      by_cases hpoint : c = '.'
      · subst hpoint
        show fractionLexeme ('.' :: (cs ++ rest)) = _
        rw [fractionLexeme, takeWhile_isDigit h]
        rfl
      · have hne : ∀ tail, ∀ d ∈ (c :: tail).head?, d ≠ '.' := fun _ d hd =>
          Option.some.inj hd ▸ hpoint
        rw [List.cons_append, fractionLexeme_of_ne (hne _), fractionLexeme_of_ne (hne _)]

theorem signLexeme_append (h : EndsNumber rest) (cs : List Char) :
    signLexeme (cs ++ rest) = signLexeme cs := by
  cases cs with
  | nil =>
      cases rest with
      | nil => rfl
      | cons c rest =>
          have hc := (h c rfl).2
          show signLexeme (c :: rest) = []
          unfold signLexeme
          split
          · next heq => exact absurd (List.head_eq_of_cons_eq heq ▸ hc) (by decide)
          · next heq => exact absurd (List.head_eq_of_cons_eq heq ▸ hc) (by decide)
          · rfl
  | cons c cs =>
      rw [List.cons_append]
      unfold signLexeme
      split <;> split <;> simp_all

theorem exponentLexeme_append (h : EndsNumber rest) (cs : List Char) :
    Decimal.exponentLexeme (cs ++ rest) = Decimal.exponentLexeme cs := by
  cases cs with
  | nil =>
      cases rest with
      | nil => rfl
      | cons c rest =>
          have hc := (h c rfl).2
          have he : ¬ (c == 'e' || c == 'E') := by
            intro he
            rcases (by simpa using he : c = 'e' ∨ c = 'E') with rfl | rfl <;>
              exact absurd hc (by decide)
          show Decimal.exponentLexeme (c :: rest) = []
          rw [exponentLexeme_cons, if_neg he]
  | cons e cs =>
      rw [List.cons_append, exponentLexeme_cons, exponentLexeme_cons, signLexeme_append h,
        List.drop_append_of_le_length (signLexeme_isPrefix cs).length_le, takeWhile_isDigit h]

/-- **A number is cut off where nothing goes on with it.** -/
theorem magnitudeLexeme?_append (h : EndsNumber rest) (cs : List Char) :
    Token.magnitudeLexeme? (cs ++ rest) = Token.magnitudeLexeme? cs := by
  have hwhole := (wholeLexeme_isPrefix cs).length_le
  have hfraction := (fractionLexeme_isPrefix (cs.drop (wholeLexeme cs).length)).length_le
  simp only [magnitudeLexeme?_eq, wholeLexeme_append h, List.drop_append_of_le_length hwhole,
    fractionLexeme_append h, List.drop_append_of_le_length hfraction, exponentLexeme_append h]

theorem numberLexeme?_of_ne {c : Char} (hc : c ≠ '-') (cs : List Char) :
    Token.numberLexeme? (c :: cs) = Token.magnitudeLexeme? (c :: cs) := by
  rw [Token.numberLexeme?]
  exact fun _ h => hc (List.head_eq_of_cons_eq h)

theorem numberLexeme?_append (h : EndsNumber rest) {c : Char} (cs : List Char) :
    Token.numberLexeme? (c :: (cs ++ rest)) = Token.numberLexeme? (c :: cs) := by
  by_cases hc : c = '-'
  · subst hc
    rw [Token.numberLexeme?, Token.numberLexeme?, magnitudeLexeme?_append h]
  · rw [numberLexeme?_of_ne hc, numberLexeme?_of_ne hc, ← List.cons_append,
      magnitudeLexeme?_append h]

end

/-- Digits are taken for a number as a whole, unless a zero in front of them stands alone. -/
theorem magnitudeLexeme?_of_isDigit {d : Char} {digits : List Char} (hd : d ≠ '0')
    (hdigits : ∀ c ∈ d :: digits, c.isDigit) :
    Token.magnitudeLexeme? (d :: digits) = some (d :: digits) := by
  have hwhole : wholeLexeme (d :: digits) = d :: digits := by
    rw [wholeLexeme_cons hd]
    exact List.takeWhile_eq_self_iff.mpr hdigits
  simp [magnitudeLexeme?_eq, hwhole, fractionLexeme, Decimal.exponentLexeme]

theorem magnitudeLexeme?_digitChars (n : Nat) :
    Token.magnitudeLexeme? (Decimal.digitChars n) = some (Decimal.digitChars n) := by
  rcases Nat.eq_zero_or_pos n with rfl | hn
  · rfl
  obtain ⟨d, digits, he, hd, hdigits⟩ := Address.digitChars_of_pos hn
  rw [he]
  exact magnitudeLexeme?_of_isDigit hd hdigits

/-- The names of values, letter by letter. -/
theorem names_eq : Token.names.map (·.1.toList) = [['n', 'u', 'l', 'l'], ['t', 'r', 'u', 'e'],
    ['f', 'a', 'l', 's', 'e'], ['N', 'a', 'N'], ['I', 'n', 'f', 'i', 'n', 'i', 't', 'y'],
    ['-', 'I', 'n', 'f', 'i', 'n', 'i', 't', 'y']] := by
  rfl

/-- No value with a name starts with a digit or with a minus and a digit. -/
theorem find?_names {c : Char} {cs : List Char}
    (h : c.isDigit ∨ c = '-' ∧ ∃ d ∈ cs.head?, d.isDigit) :
    (Token.names.find? fun (name, _) => name.toList.isPrefixOf (c :: cs)) = none := by
  refine List.find?_eq_none.mpr fun e he hfront => ?_
  have hname : e.1.toList ∈ Token.names.map (·.1.toList) := List.mem_map_of_mem he
  replace hfront := List.isPrefixOf_iff_prefix.mp hfront
  rw [names_eq] at hname
  generalize e.1.toList = name at hname hfront
  simp only [List.mem_cons, List.not_mem_nil, or_false] at hname
  rcases hname with rfl | rfl | rfl | rfl | rfl | rfl <;>
    obtain ⟨rfl, htail⟩ := List.cons_prefix_cons.mp hfront <;>
    rcases h with h | ⟨h, d, hd, hdigit⟩
  -- only the name of an infinite number starts with a minus, and a letter follows it
  case inr.inr.inr.inr.inr.inr =>
    obtain ⟨t, rfl⟩ := htail
    obtain rfl : 'I' = d := Option.some.inj hd
    exact absurd hdigit (by decide)
  all_goals exact absurd h (by decide)

/-- The first token of a text that starts with a number. -/
theorem first_number {c : Char} {cs rest : List Char} {n : Decimal.Numeral}
    (h : c.isDigit ∨ c = '-' ∧ ∃ d ∈ cs.head?, d.isDigit) (hrest : EndsNumber rest)
    (hlexeme : Token.numberLexeme? (c :: cs) = some (c :: cs))
    (hread : Decimal.Numeral.read? (c :: cs) = some n) :
    Token.first c (cs ++ rest) = (.number n, cs.length) := by
  have hstarts : c.isDigit ∨ c = '-' ∧ ∃ d ∈ (cs ++ rest).head?, d.isDigit :=
    h.imp_right fun ⟨hc, d, hd, hdigit⟩ => ⟨hc, d, List.mem_head?_append_of_mem_head? hd, hdigit⟩
  have hname := find?_names hstarts
  unfold Token.first
  split
  case h_8 =>
    rw [hname, numberLexeme?_append hrest, hlexeme]
    dsimp only
    rw [hread]
    rfl
  all_goals rcases h with h | ⟨h, _⟩ <;> exact absurd h (by decide)

theorem not_isGap_of_isDigit {c : Char} (h : c.isDigit) : ¬ Token.isGap c := by
  intro hgap
  rcases Token.isGap_iff.mp hgap with rfl | rfl | rfl | rfl <;> exact absurd h (by decide)

theorem isPrintable_of_isDigit {c : Char} (h : c.isDigit) : IsPrintable c := by
  have hrange := Address.isDigit_iff.mp h
  exact ⟨by omega, by omega⟩

theorem exists_digitChars (n : Nat) : ∃ d digits, Decimal.digitChars n = d :: digits ∧
    ∀ c ∈ d :: digits, c.isDigit := by
  obtain ⟨d, digits, he⟩ := List.exists_cons_of_ne_nil (Nat.toDigits_ne_nil (n := n) (b := 10))
  exact ⟨d, digits, he, he ▸ Decimal.isDigit_of_mem_digitChars (n := n)⟩

/-- A number starts with its digits, up to where none follows. -/
theorem magnitudeLexeme?_cases {cs lexeme : List Char}
    (h : Token.magnitudeLexeme? cs = some lexeme) : ∃ whole more, lexeme = whole ++ more ∧
      whole ≠ [] ∧ whole <+: cs ∧ (∀ c ∈ whole, c.isDigit) ∧
        ∀ c ∈ more.head?, Text.digitValue? c = none := by
  rw [magnitudeLexeme?_eq] at h
  dsimp only at h
  split at h
  · cases h
  next hempty =>
    obtain rfl := Option.some.inj h
    refine ⟨_, _, List.append_assoc .., by simpa using hempty, wholeLexeme_isPrefix cs,
      isDigit_wholeLexeme cs, fun c hc => ?_⟩
    have hpoint := head_fractionLexeme (cs.drop (wholeLexeme cs).length)
    cases hfraction : fractionLexeme (cs.drop (wholeLexeme cs).length) with
    | nil =>
        rw [hfraction, List.nil_append] at hc
        rcases head_exponentLexeme _ c hc with rfl | rfl <;> rfl
    | cons d digits =>
        rw [hfraction] at hc hpoint
        obtain rfl := hpoint c hc
        rfl

/-! ## The first token -/

/-- The tokens of a single character. -/
def symbols : List (Char × Token) :=
  [('[', .beginArray), (']', .endArray), ('\x7b', .beginObject), ('\x7d', .endObject), (',', .comma),
    (':', .colon)]

/-- What the first token of a text can be if it is well-formed. -/
inductive Leads (c : Char) (cs : List Char) : Token → Prop
  | symbol {t : Token} (h : (c, t) ∈ symbols) : Leads c cs t
  | text (s : List CodePoint) : Leads c cs (.text s)
  | named (v : Json) : Leads c cs (.named v)
  | number {lexeme : List Char} {n : Decimal.Numeral}
      (hlexeme : Token.numberLexeme? (c :: cs) = some lexeme)
      (hread : Decimal.Numeral.read? lexeme = some n) : Leads c cs (.number n)

theorem leads_getD {c : Char} {cs : List Char} {α : Type} {make : α → Token} {o : Option α}
    (hne : (o.map make).getD .malformed ≠ .malformed) (h : ∀ a, o = some a → Leads c cs (make a)) :
    Leads c cs ((o.map make).getD .malformed) := by
  cases o with
  | none => exact absurd rfl hne
  | some a => exact h a rfl

theorem leads_of_first {c : Char} {cs : List Char} {t : Token} {more : Nat}
    (hfirst : Token.first c cs = (t, more)) (ht : t ≠ .malformed) : Leads c cs t := by
  obtain rfl : (Token.first c cs).1 = t := congrArg Prod.fst hfirst
  clear hfirst
  unfold Token.first at ht ⊢
  split at ht
  case h_7 =>
    split at ht
    · exact leads_getD ht fun s _ => .text s
    · exact absurd rfl ht
  case h_8 =>
    split at ht
    · exact .named _
    · split at ht
      · next hlexeme => exact leads_getD ht fun n hread => .number hlexeme hread
      · exact absurd rfl ht
  all_goals exact .symbol (by simp [symbols])

/-- The whole part of a number that is read is a digit for each of those in the text. -/
theorem Leads.exists_digits {c : Char} {cs : List Char} {n : Decimal.Numeral}
    (h : Leads c cs (.number n)) :
    ∃ digits, digits <:+: c :: cs ∧ digits.length = n.whole.length ∧ ∀ d ∈ digits, d.isDigit := by
  cases h with
  | symbol h => simp [symbols] at h
  | number hlexeme hread =>
      rw [Decimal.whole_of_read? hread]
      unfold Token.numberLexeme? at hlexeme
      split at hlexeme
      · next cs' heq =>
        obtain ⟨magnitude, hmagnitude, rfl⟩ := Option.map_eq_some_iff.mp hlexeme
        obtain ⟨whole, more, rfl, -, hfront, hdigits, hmore⟩ := magnitudeLexeme?_cases hmagnitude
        refine ⟨whole, ?_, ?_, hdigits⟩
        · rw [heq]
          exact (hfront.isInfix).trans (List.suffix_cons '-' cs').isInfix
        · show _ = (Decimal.spanDigits (whole ++ more)).1.length
          rw [Decimal.spanDigits_append hdigits hmore, List.length_map]
      · obtain ⟨whole, more, rfl, hne, hfront, hdigits, hmore⟩ := magnitudeLexeme?_cases hlexeme
        refine ⟨whole, hfront.isInfix, ?_, hdigits⟩
        obtain ⟨d, ds, rfl⟩ := List.exists_cons_of_ne_nil hne
        rw [List.cons_append, Decimal.spanSign_of_isDigit (hdigits d List.mem_cons_self)]
        show _ = (Decimal.spanDigits ((d :: ds) ++ more)).1.length
        rw [Decimal.spanDigits_append hdigits hmore, List.length_map]

end Worksheet.Json
