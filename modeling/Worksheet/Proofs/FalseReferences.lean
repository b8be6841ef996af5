import Worksheet.Proofs.Mentions

/-!
# Words that are taken for cells

The cells that are found in a formula's text are words that look like the address of a cell.  All
cells of the formula are among them, and this module says what else is.  A word can stand in a
string, in the name of a function before a point, or in a number.

Letters come into a number with its exponent alone.  As a rule they are in one word with the digits
before them, and a word that starts with a digit is no address.  But a point ends a word, and it
need not have digits after it, so `1.E5` is one number, and the word `E5` is the end of it.
-/

namespace Worksheet.Formula

/-! ## The cells in a word -/

/-- What is named in a word and after it. -/
theorem cellsIn_word_append {w rest : List Char} (hne : w ≠ []) (hw : ∀ c ∈ w, Text.isWord c)
    (hrest : StopsRun Text.isWord rest) :
    cellsIn (w ++ rest) =
      if isCellWord w && !opensCall (Piece.split rest) then w :: cellsIn rest
      else cellsIn rest := by
  unfold cellsIn
  rw [Piece.split_append hrest, Piece.split_word hne hw]
  rfl

/-- A word that is no address names nothing. -/
theorem cellsIn_word_append_of_not {w rest : List Char} (hw : ∀ c ∈ w, Text.isWord c)
    (hrest : StopsRun Text.isWord rest) (hnot : isCellWord w = false) :
    cellsIn (w ++ rest) = cellsIn rest := by
  by_cases hne : w = []
  · rw [hne, List.nil_append]
  · rw [cellsIn_word_append hne hw hrest, hnot]
    rfl

theorem isCellWord_digit_cons {d : Char} (hd : d.isDigit) (cs : List Char) :
    isCellWord (d :: cs) = false := by
  have hletter : ¬ Address.isColumnLetter d := not_isColumnLetter_of_isDigit hd
  unfold isCellWord
  rw [List.takeWhile_cons_of_neg hletter]
  rfl

theorem stopsRun_nil (p : Char → Bool) : StopsRun p [] := fun _ hc => absurd hc nofun

theorem stopsRun_cons {p : Char → Bool} {c : Char} (hc : ¬ p c) (cs : List Char) :
    StopsRun p (c :: cs) := by
  intro d hd
  obtain rfl := Option.some.inj hd
  exact hc

/-- A text that is one word and no address names nothing. -/
theorem cellsIn_eq_nil_of_not {w : List Char} (hw : ∀ c ∈ w, Text.isWord c)
    (hnot : isCellWord w = false) : cellsIn w = [] := by
  have hnone := cellsIn_word_append_of_not hw (stopsRun_nil _) hnot
  rwa [List.append_nil] at hnone

/-! ## The cells in a number -/

theorem IsSign.not_isWord {sign : List Char} (h : IsSign sign) : ∀ c ∈ sign, ¬ Text.isWord c := by
  rcases h with rfl | rfl | rfl
  · exact fun c hc => absurd hc List.not_mem_nil
  · exact forall_mem_of_all (by decide)
  · exact forall_mem_of_all (by decide)

theorem isWord_exponentLetter {e : Char} (he : e = 'e' ∨ e = 'E') : Text.isWord e := by
  rcases he with rfl | rfl
  · decide
  · decide

theorem IsDigits.isWord {digits : List Char} (h : IsDigits digits) :
    ∀ c ∈ digits, Text.isWord c :=
  fun c hc => isWord_of_isDigit (h.2 c hc)

theorem IsDigits.cellsIn_eq_nil {digits : List Char} (h : IsDigits digits) :
    cellsIn digits = [] := by
  obtain ⟨d, rest, rfl, hd⟩ := h.head
  exact cellsIn_eq_nil_of_not h.isWord (isCellWord_digit_cons hd rest)

/-- What starts with a digit names nothing up to the end of an exponent. -/
theorem cellsIn_digits_exponent {digits exponent : List Char} (hd : IsDigits digits)
    (he : IsExponent exponent) : cellsIn (digits ++ exponent) = [] := by
  rcases he with rfl | ⟨e, sign, ds, rfl, he, hsign, hds⟩
  · rw [List.append_nil]
    exact hd.cellsIn_eq_nil
  obtain ⟨d, rest, rfl, hfirst⟩ := hd.head
  have hfront : ∀ c ∈ d :: rest ++ [e], Text.isWord c := by
    intro c hc
    rcases List.mem_append.mp hc with hc | hc
    · exact hd.isWord c hc
    · rw [List.mem_singleton.mp hc]
      exact isWord_exponentLetter he
  cases sign with
  -- without a sign all of it is one word
  | nil =>
      have hall : ∀ c ∈ d :: rest ++ [e] ++ ds, Text.isWord c := by
        intro c hc
        rcases List.mem_append.mp hc with hc | hc
        · exact hfront c hc
        · exact hds.isWord c hc
      have hnone := cellsIn_eq_nil_of_not hall (isCellWord_digit_cons hfirst _)
      rwa [List.append_assoc] at hnone
  | cons c sign =>
      have hstop : StopsRun Text.isWord (c :: sign ++ ds) :=
        stopsRun_cons (hsign.not_isWord c List.mem_cons_self) _
      have hnone := cellsIn_word_append_of_not hfront hstop (isCellWord_digit_cons hfirst _)
      rw [cellsIn_others hsign.not_isWord, hds.cellsIn_eq_nil, List.append_assoc] at hnone
      exact hnone

/-- The letter of an exponent with a sign is a word of its own, and so are the digits. -/
theorem cellsIn_signedExponent {e c : Char} {sign ds : List Char} (he : e = 'e' ∨ e = 'E')
    (hsign : IsSign (c :: sign)) (hds : IsDigits ds) : cellsIn (e :: (c :: sign ++ ds)) = [] := by
  have hletter : ∀ x ∈ [e], Text.isWord x := by
    intro x hx
    rw [List.mem_singleton.mp hx]
    exact isWord_exponentLetter he
  have hstop : StopsRun Text.isWord (c :: sign ++ ds) :=
    stopsRun_cons (hsign.not_isWord c List.mem_cons_self) _
  have hnot : isCellWord [e] = false := by
    rcases he with rfl | rfl
    · rfl
    · rfl
  have hnone := cellsIn_word_append_of_not hletter hstop hnot
  rwa [cellsIn_others hsign.not_isWord, hds.cellsIn_eq_nil] at hnone

/-- An exponent with a small letter is no address. -/
theorem cellsIn_smallExponent {ds : List Char} (hds : IsDigits ds) : cellsIn ('e' :: ds) = [] := by
  have hall : ∀ c ∈ 'e' :: ds, Text.isWord c := by
    intro c hc
    rcases List.mem_cons.mp hc with rfl | hc
    · decide
    · exact hds.isWord c hc
  exact cellsIn_eq_nil_of_not hall rfl

/-- An exponent on its own is taken for a cell if its letter is a capital and no sign follows. -/
theorem mem_cellsIn_exponent {exponent w : List Char} (he : IsExponent exponent) :
    w ∈ cellsIn exponent ↔ w = exponent ∧ ∃ digits, exponent = 'E' :: digits ∧ IsDigits digits := by
  rcases he with rfl | ⟨e, sign, ds, rfl, he, hsign, hds⟩
  · refine iff_of_false List.not_mem_nil ?_
    rintro ⟨_, digits, hnil, _⟩
    cases hnil
  cases sign with
  | cons c sign =>
      rw [cellsIn_signedExponent he hsign hds]
      refine iff_of_false List.not_mem_nil ?_
      rintro ⟨_, digits, heq, hdigits⟩
      obtain ⟨_, heq⟩ := List.cons.inj heq
      have hdigit : c.isDigit := hdigits.2 c (heq ▸ List.mem_cons_self)
      exact hsign.not_isWord c List.mem_cons_self (isWord_of_isDigit hdigit)
  | nil =>
      rw [List.nil_append]
      by_cases hcapital : e = 'E'
      · subst hcapital
        have hcell : IsCell ('E' :: ds) :=
          ⟨['E'], ds, rfl, List.cons_ne_nil _ _, forall_mem_of_all (by decide), hds⟩
        rw [hcell.cellsIn, List.mem_singleton]
        exact ⟨fun h => ⟨h, ds, rfl, hds⟩, And.left⟩
      · obtain rfl := he.resolve_right hcapital
        rw [cellsIn_smallExponent hds]
        refine iff_of_false List.not_mem_nil ?_
        rintro ⟨_, digits, heq, _⟩
        exact hcapital (List.cons.inj heq).1

/-- What is named before a point and after it. -/
theorem cellsIn_point (front cs : List Char) :
    cellsIn (front ++ '.' :: cs) = cellsIn front ++ cellsIn cs := by
  have hpoint : ¬ Text.isWord '.' := by decide
  unfold cellsIn
  rw [Piece.split_append (stopsRun_cons hpoint cs), Piece.split_cons_other hpoint,
    cellWords_append rfl]
  rfl

/-- What is taken for a cell in a number: its exponent, if it has a capital letter, no sign, and
stands right after the point. -/
theorem IsNumber.mem_cellsIn {cs w : List Char} (h : IsNumber cs) :
    w ∈ cellsIn cs ↔ ∃ whole digits, cs = whole ++ '.' :: w ∧ IsDigits whole ∧ w = 'E' :: digits ∧
      IsDigits digits := by
  constructor
  · obtain ⟨mantissa, exponent, rfl, hm, he⟩ := h
    intro hw
    rcases hm with hm | ⟨whole, fraction, rfl, hdigits, hfraction, hne⟩
    · rw [cellsIn_digits_exponent hm he] at hw
      exact absurd hw List.not_mem_nil
    rw [List.append_assoc, List.cons_append, cellsIn_point] at hw
    rcases List.mem_append.mp hw with hw | hw
    · by_cases hnil : whole = []
      · rw [hnil] at hw
        exact absurd hw List.not_mem_nil
      · rw [IsDigits.cellsIn_eq_nil ⟨hnil, hdigits⟩] at hw
        exact absurd hw List.not_mem_nil
    -- with digits after the point, the exponent is in one word with them
    by_cases hnil : fraction = []
    · subst hnil
      obtain ⟨rfl, digits, rfl, hd⟩ := (mem_cellsIn_exponent he).mp hw
      refine ⟨whole, digits, by simp, ⟨?_, hdigits⟩, rfl, hd⟩
      exact hne.resolve_right fun hne => hne rfl
    · rw [cellsIn_digits_exponent ⟨hnil, hfraction⟩ he] at hw
      exact absurd hw List.not_mem_nil
  · rintro ⟨whole, digits, rfl, hw, rfl, hd⟩
    have hcell : IsCell ('E' :: digits) :=
      ⟨['E'], digits, rfl, List.cons_ne_nil _ _, forall_mem_of_all (by decide), hd⟩
    rw [cellsIn_point, hw.cellsIn_eq_nil, hcell.cellsIn]
    exact List.mem_singleton_self _

/-! ## The cells in the name of a function -/

/-- The name of a function without a point names no cell: it is one word, and a parenthesis follows
it. -/
theorem IsOpener.cellsIn_eq_nil {cs : List Char} (h : IsOpener cs) (hpoint : '.' ∉ cs) :
    cellsIn cs = [] := by
  obtain ⟨first, name, gap, rfl, hfirst, hname, hgap⟩ := h
  have hword : ∀ c ∈ first :: name, Text.isWord c := by
    intro c hc
    have hchar : isNameChar c := by
      rcases List.mem_cons.mp hc with rfl | hc
      · exact isNameChar_of_isNameStart hfirst
      · exact hname c hc
    unfold isNameChar at hchar
    simp only [Bool.or_eq_true, beq_iff_eq] at hchar
    rcases hchar with (hchar | rfl) | rfl
    · exact isWord_of_isAlphanum hchar
    · decide
    · refine absurd ?_ hpoint
      rw [← List.cons_append, ← List.cons_append, List.append_assoc]
      exact List.mem_append_left _ hc
  have hblank : ∀ c ∈ gap, Text.isBlank c := by
    intro c hc
    rcases hgap c hc with rfl | rfl
    · decide
    · decide
  have hother : ∀ c ∈ gap ++ ['('], ¬ Text.isWord c := by
    intro c hc
    rcases List.mem_append.mp hc with hc | hc
    · exact not_isWord_of_isBlank (hblank c hc)
    · rw [List.mem_singleton.mp hc]
      decide
  have hstop : StopsRun Text.isWord (gap ++ ['(']) :=
    fun c hc => hother c (List.mem_of_mem_head? hc)
  have hopens : opensCall (Piece.split (gap ++ ['('])) = true := by
    rw [Piece.split_others fun c hc => not_isWord_of_isBlank (hblank c hc),
      opensCall_others hblank]
    decide
  have hrest : cellsIn (gap ++ ['(']) = [] := by
    have hnone := cellsIn_others hother []
    rwa [List.append_nil] at hnone
  rw [List.append_assoc, ← List.cons_append, cellsIn_word_append (List.cons_ne_nil _ _) hword hstop,
    hopens, hrest, Bool.not_true, Bool.and_false]
  rfl

/-! ## The tokens of a writing -/

/-- The token that an expression has besides the expressions in it, if a word in it can be taken for
a cell, and the class of the token. -/
def Expr.ownToken? : Expr → Option (Terminal × List Char)
  | .number literal => some (.number, literal.toList)
  | .text literal => some (.text, literal.toList)
  | .call opener _ => some (.call, opener.toList)
  | _ => none

variable {style : RangeStyle}

mutual

/-- The tokens of an expression are of their classes, and they stand in its writing. -/
theorem SpellsAs.ownToken : ∀ {n : Nat} {e : Expr} {cs : List Char}, SpellsAs style n e cs →
    ∀ {part : Expr} {t : Terminal} {token : List Char}, part ∈ e.parts →
      part.ownToken? = some (t, token) → t.Matches token ∧ token ⊆ cs
  | _, _, _, .loosen _ h, _, _, _, hm, ht => h.ownToken hm ht
  | _, _, cs, .number h, _, _, _, hm, ht => by
      obtain rfl := List.mem_singleton.mp hm
      obtain ⟨rfl, rfl⟩ := Prod.mk.inj (Option.some.inj ht)
      rw [String.toList_ofList]
      exact ⟨h, List.Subset.refl cs⟩
  | _, _, _, .bool _, _, _, _, hm, ht => by
      obtain rfl := List.mem_singleton.mp hm
      cases ht
  | _, _, cs, .text h, _, _, _, hm, ht => by
      obtain rfl := List.mem_singleton.mp hm
      obtain ⟨rfl, rfl⟩ := Prod.mk.inj (Option.some.inj ht)
      rw [String.toList_ofList]
      exact ⟨h, List.Subset.refl cs⟩
  | _, _, _, .cell _, _, _, _, hm, ht => by
      obtain rfl := List.mem_singleton.mp hm
      cases ht
  | _, _, _, .range _ _ _, _, _, _, hm, ht => by
      obtain rfl := List.mem_singleton.mp hm
      cases ht
  | _, _, _, .group _ h _, _, _, _, hm, ht => by
      obtain ⟨hmatches, hsub⟩ := h.ownToken hm ht
      refine ⟨hmatches, fun c hc => ?_⟩
      simp [hsub hc]
  | _, _, _, .callNone ho _, _, _, _, hm, ht => by
      obtain rfl := List.mem_singleton.mp hm
      obtain ⟨rfl, rfl⟩ := Prod.mk.inj (Option.some.inj ht)
      rw [String.toList_ofList]
      refine ⟨ho, fun c hc => ?_⟩
      simp [hc]
  | _, _, _, .call ho h, _, _, _, hm, ht => by
      rcases List.mem_cons.mp hm with rfl | hm
      · obtain ⟨rfl, rfl⟩ := Prod.mk.inj (Option.some.inj ht)
        rw [String.toList_ofList]
        exact ⟨ho, List.subset_append_left _ _⟩
      · obtain ⟨hmatches, hsub⟩ := h.ownToken hm ht
        exact ⟨hmatches, fun c hc => List.mem_append_right _ (hsub hc)⟩
  | _, _, _, .percent h _, _, _, _, hm, ht => by
      rcases List.mem_cons.mp hm with rfl | hm
      · cases ht
      · obtain ⟨hmatches, hsub⟩ := h.ownToken hm ht
        refine ⟨hmatches, fun c hc => ?_⟩
        simp [hsub hc]
  | _, _, _, .sign _ _ h, _, _, _, hm, ht => by
      rcases List.mem_cons.mp hm with rfl | hm
      · cases ht
      · obtain ⟨hmatches, hsub⟩ := h.ownToken hm ht
        exact ⟨hmatches, fun c hc => List.mem_append_right _ (hsub hc)⟩
  | _, _, _, .binary _ h _ _ h', _, _, _, hm, ht => by
      rcases List.mem_cons.mp hm with rfl | hm
      · cases ht
      rcases List.mem_append.mp hm with hm | hm
      · obtain ⟨hmatches, hsub⟩ := h.ownToken hm ht
        refine ⟨hmatches, fun c hc => ?_⟩
        simp [hsub hc]
      · obtain ⟨hmatches, hsub⟩ := h'.ownToken hm ht
        exact ⟨hmatches, fun c hc => List.mem_append_right _ (hsub hc)⟩

theorem SpellsArgumentsAs.ownToken : ∀ {args : List Expr} {cs : List Char},
    SpellsArgumentsAs style args cs → ∀ {part : Expr} {t : Terminal} {token : List Char},
      part ∈ partsOfAll args → part.ownToken? = some (t, token) → t.Matches token ∧ token ⊆ cs
  | _, _, .single _ h _, _, _, _, hm, ht => by
      rcases List.mem_append.mp hm with hm | hm
      · obtain ⟨hmatches, hsub⟩ := h.ownToken hm ht
        refine ⟨hmatches, fun c hc => ?_⟩
        simp [hsub hc]
      · exact absurd hm List.not_mem_nil
  | _, _, .more _ h _ h', _, _, _, hm, ht => by
      rcases List.mem_append.mp hm with hm | hm
      · obtain ⟨hmatches, hsub⟩ := h.ownToken hm ht
        refine ⟨hmatches, fun c hc => ?_⟩
        simp [hsub hc]
      · obtain ⟨hmatches, hsub⟩ := h'.ownToken hm ht
        exact ⟨hmatches, fun c hc => List.mem_append_right _ (hsub hc)⟩

end

variable {e : Expr} {text : String}

/-- The tokens of the expression of a formula stand in its text. -/
theorem ownToken_of_parse (hp : parse text = .ok e) {part : Expr} {t : Terminal}
    {token : List Char} (hm : part ∈ e.parts) (ht : part.ownToken? = some (t, token)) :
    t.Matches token ∧ token ⊆ text.toList := by
  obtain ⟨gap, body, _, hbody, heq⟩ := written_of_parse hp
  obtain ⟨hmatches, hsub⟩ := hbody.ownToken hm ht
  refine ⟨hmatches, fun c hc => ?_⟩
  have hmem : c ∈ Text.trimBlanks text.toList := heq ▸ List.mem_append_right _ (hsub hc)
  have hfront : c ∈ text.toList.dropWhile Text.isBlank := by
    simpa using (List.dropWhile_sublist _).subset (List.mem_reverse.mp hmem)
  exact (List.dropWhile_sublist _).subset hfront

/-! ## What is found besides cells -/

/-- A number with its exponent right after the point, which is written with a capital letter and
without a sign, and that exponent. -/
def BareExponent (literal exponent : String) : Prop :=
  ∃ whole digits, literal.toList = whole ++ '.' :: exponent.toList ∧ IsDigits whole ∧
    exponent.toList = 'E' :: digits ∧ IsDigits digits

theorem mem_cellTextsIn {cs : List Char} {a : String} :
    a ∈ cellTextsIn cs ↔ a.toList ∈ cellsIn cs := by
  constructor
  · intro h
    obtain ⟨w, hw, rfl⟩ := List.mem_map.mp h
    rwa [String.toList_ofList]
  · intro h
    exact List.mem_map.mpr ⟨_, h, String.ofList_toList⟩

/-- What is found in a formula: its cells, the exponents of numbers such as `1.E5`, and what is
found in its strings and in names of functions with a point. -/
theorem mem_referencedCells_iff (hp : parse text = .ok e) {a : String} :
    a ∈ referencedCells text ↔ a ∈ e.cells ∨
      (∃ literal, .number literal ∈ e.parts ∧ BareExponent literal a) ∨
      (∃ literal, .text literal ∈ e.parts ∧ a ∈ referencedCells literal) ∨
      ∃ opener args, .call opener args ∈ e.parts ∧ '.' ∈ opener.toList ∧
        a ∈ referencedCells opener := by
  have hfound : ∀ t : String, a ∈ referencedCells t ↔ a ∈ cellTextsIn t.toList :=
    fun t => List.mem_eraseDups
  rw [mem_referencedCells (written_of_parse hp)]
  constructor
  · intro ha
    obtain ⟨part, hm, ha⟩ := List.mem_flatMap.mp ha
    cases part with
    | cell address => exact .inl (List.mem_flatMap.mpr ⟨_, hm, ha⟩)
    | range first last => exact .inl (List.mem_flatMap.mpr ⟨_, hm, ha⟩)
    | number literal =>
        obtain ⟨hnumber, _⟩ := ownToken_of_parse hp hm rfl
        obtain ⟨whole, digits, h⟩ := (IsNumber.mem_cellsIn hnumber).mp (mem_cellTextsIn.mp ha)
        exact .inr (.inl ⟨literal, hm, whole, digits, h⟩)
    | text literal => exact .inr (.inr (.inl ⟨literal, hm, (hfound literal).mpr ha⟩))
    | call opener args =>
        refine .inr (.inr (.inr ⟨opener, args, hm, ?_, (hfound opener).mpr ha⟩))
        -- without a point there would be nothing to be found
        by_contra hpoint
        obtain ⟨hopener, _⟩ := ownToken_of_parse hp hm rfl
        have hmem := mem_cellTextsIn.mp ha
        rw [IsOpener.cellsIn_eq_nil hopener hpoint] at hmem
        exact List.not_mem_nil hmem
    | bool b => exact absurd ha List.not_mem_nil
    | sign op e => exact absurd ha List.not_mem_nil
    | percent e => exact absurd ha List.not_mem_nil
    | binary op left right => exact absurd ha List.not_mem_nil
  · rintro (ha | ⟨literal, hm, whole, digits, h⟩ | ⟨literal, hm, ha⟩ | ⟨opener, args, hm, _, ha⟩)
    · exact e.cells_subset_names ha
    · obtain ⟨hnumber, _⟩ := ownToken_of_parse hp hm rfl
      have hw := (IsNumber.mem_cellsIn hnumber).mpr ⟨whole, digits, h⟩
      exact List.mem_flatMap.mpr ⟨_, hm, mem_cellTextsIn.mpr hw⟩
    · exact List.mem_flatMap.mpr ⟨_, hm, (hfound literal).mp ha⟩
    · exact List.mem_flatMap.mpr ⟨_, hm, (hfound opener).mp ha⟩

/-- **What is found in a formula without strings and without points in its names of functions: its
cells, and the exponents of numbers such as `1.E5`.**  So nothing else than cells is found exactly
if each such exponent happens to be a cell of the formula as well. -/
theorem referencedCells_sound_iff (hp : parse text = .ok e) (hquotes : '"' ∉ text.toList)
    (hpoints : ∀ opener args, .call opener args ∈ e.parts → '.' ∉ opener.toList) :
    (∀ a, a ∈ referencedCells text ↔
      a ∈ e.cells ∨ ∃ literal, .number literal ∈ e.parts ∧ BareExponent literal a) ∧
    ((∀ a ∈ referencedCells text, a ∈ e.cells) ↔
      ∀ literal, .number literal ∈ e.parts → ∀ a, BareExponent literal a → a ∈ e.cells) := by
  have hfound : ∀ a, a ∈ referencedCells text ↔
      a ∈ e.cells ∨ ∃ literal, .number literal ∈ e.parts ∧ BareExponent literal a := by
    intro a
    rw [mem_referencedCells_iff hp]
    constructor
    · rintro (ha | ha | ⟨literal, hm, _⟩ | ⟨opener, args, hm, hpoint, _⟩)
      · exact .inl ha
      · exact .inr ha
      · -- a string has quotes
        obtain ⟨⟨tail, htail, _⟩, hsub⟩ := ownToken_of_parse hp hm rfl
        refine absurd (hsub ?_) hquotes
        rw [htail]
        exact List.mem_cons_self
      · exact absurd hpoint (hpoints opener args hm)
    · rintro (ha | ha)
      · exact .inl ha
      · exact .inr (.inl ha)
  refine ⟨hfound, ?_, ?_⟩
  · intro hsound literal hm a ha
    exact hsound a ((hfound a).mpr (.inr ⟨literal, hm, ha⟩))
  · intro hexponents a ha
    rcases (hfound a).mp ha with ha | ⟨literal, hm, ha⟩
    · exact ha
    · exact hexponents literal hm a ha

/-- In a formula without cells the end of a number is found. -/
theorem referencedCells_bareExponent :
    parse "=1.E5" = .ok (.number "1.E5") ∧ '"' ∉ "=1.E5".toList ∧
      referencedCells "=1.E5" = ["E5"] ∧ (Expr.number "1.E5").cells = [] :=
  ⟨by cbv, by decide, by cbv, rfl⟩

/-- The name of a function is not found, and the end of a number is. -/
theorem referencedCells_logarithmTimesHundred :
    let e := Expr.binary .mul (.call "LOG10(" [.cell "B7"]) (.number "1.E2")
    parse "=LOG10(B7)*1.E2" = .ok e ∧ '"' ∉ "=LOG10(B7)*1.E2".toList ∧
      (∀ opener args, .call opener args ∈ e.parts → '.' ∉ opener.toList) ∧
      referencedCells "=LOG10(B7)*1.E2" = ["B7", "E2"] ∧
      ¬ ∀ a ∈ referencedCells "=LOG10(B7)*1.E2", a ∈ e.cells := by
  intro e
  have hparse : parse "=LOG10(B7)*1.E2" = .ok e := by cbv
  have hquotes : '"' ∉ "=LOG10(B7)*1.E2".toList := by decide
  have hpoints : ∀ opener args, .call opener args ∈ e.parts → '.' ∉ opener.toList := by
    intro opener args hm
    simp only [e, Expr.parts, partsOfAll, List.mem_append, List.mem_cons, List.not_mem_nil,
      or_false, reduceCtorEq, false_or, Expr.call.injEq] at hm
    rw [hm.1]
    decide
  have hexponent : BareExponent "1.E2" "E2" :=
    ⟨['1'], ['2'], rfl, ⟨by decide, forall_mem_of_all rfl⟩, rfl, by decide,
      forall_mem_of_all rfl⟩
  refine ⟨hparse, hquotes, hpoints, by cbv, fun hsound => ?_⟩
  have hcell := (referencedCells_sound_iff hparse hquotes hpoints).2.mp hsound "1.E2"
    (by simp [e, Expr.parts, partsOfAll]) "E2" hexponent
  exact absurd hcell (by decide)

end Worksheet.Formula
