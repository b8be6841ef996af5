import Worksheet.Formula.References
import Worksheet.Proofs.Grammar

/-!
# The words of a writing

The cells and ranges that a text names are looked for among its words.  In a writing of an
expression no word goes over the end of a token, so what is found there is found in the tokens one
by one.  A range is found if its colon stands right between its cells.
-/

namespace Worksheet.Formula

/-! ## Characters that are in no word -/

theorem isWord_of_isAlphanum {c : Char} (h : c.isAlphanum) : Text.isWord c := by
  have hlt : c.toNat < 128 := by
    have hn : c.toNat = c.val.toNat := rfl
    have h9 : '9'.val.toNat = 57 := rfl
    have hZ : 'Z'.val.toNat = 90 := rfl
    have hz : 'z'.val.toNat = 122 := rfl
    unfold Char.isAlphanum Char.isAlpha Char.isUpper Char.isLower Char.isDigit at h
    simp only [Bool.or_eq_true, Bool.and_eq_true, decide_eq_true_eq, UInt32.le_iff_toNat_le,
      ge_iff_le] at h
    omega
  unfold Text.isWord
  rw [if_pos hlt, h, Bool.true_or]

theorem isWord_of_isDigit {c : Char} (h : c.isDigit) : Text.isWord c := by
  refine isWord_of_isAlphanum ?_
  unfold Char.isAlphanum
  rw [h, Bool.or_true]

theorem isWord_of_isColumnLetter {c : Char} (h : Address.isColumnLetter c) : Text.isWord c := by
  have hstart := isNameStart_of_isColumnLetter h
  unfold isNameStart at hstart
  rcases Bool.or_eq_true_iff.mp hstart with ha | hu
  · refine isWord_of_isAlphanum ?_
    unfold Char.isAlphanum
    rw [ha, Bool.true_or]
  · obtain rfl := eq_of_beq hu
    decide

theorem not_mem_wordRanges : ∀ n ∈ [0x85, 0xa0, 0x1680, 0x2028, 0x2029, 0x202f, 0x205f, 0x3000] ++
    List.range' 0x2000 11, ¬ Text.wordRanges.contains n := by
  decide +kernel

theorem not_isWord_of_isBlank {c : Char} (h : Text.isBlank c) : ¬ Text.isWord c := by
  intro hw
  unfold Text.isWord at hw
  by_cases hlt : c.toNat < 128
  · rw [if_pos hlt] at hw
    have hname : isNameChar c := by
      unfold isNameChar
      rw [hw, Bool.true_or]
    exact not_isBlank_of_isNameChar hname h
  · rw [if_neg hlt] at hw
    refine not_mem_wordRanges c.toNat ?_ hw
    unfold Text.isBlank at h
    simp only [Bool.or_eq_true, Bool.and_eq_true, decide_eq_true_eq, beq_iff_eq] at h
    simp only [List.mem_append, List.mem_cons, List.mem_range', List.not_mem_nil, or_false]
    by_cases hspaces : 0x2000 ≤ c.toNat ∧ c.toNat ≤ 0x200a
    · exact .inr ⟨c.toNat - 0x2000, by omega, by omega⟩
    · left
      omega

theorem Gap.not_isWord {gap : List Char} (hg : Gap gap) : ∀ c ∈ gap, ¬ Text.isWord c :=
  fun c hc => not_isWord_of_isBlank (isBlank_of_isGap (hg c hc))

theorem BinaryOp.not_isWord_symbol (op : BinaryOp) : ∀ c ∈ op.symbol, ¬ Text.isWord c := by
  rcases op with c | _ | _ | _ | _ | _ | _
  · cases c <;> exact forall_mem_of_all (by decide)
  all_goals exact forall_mem_of_all (by decide)

/-! ## Cutting a text into pieces -/

namespace Piece

theorem push_other {c : Char} (h : ¬ Text.isWord c) (ps : List Piece) :
    push c ps = other c :: ps := by
  unfold push
  split
  · exact if_neg h
  · exact if_neg h

theorem split_cons_other {c : Char} (h : ¬ Text.isWord c) (cs : List Char) :
    split (c :: cs) = other c :: split cs := by
  rw [split, push_other h]

theorem split_others {l : List Char} (h : ∀ c ∈ l, ¬ Text.isWord c) (cs : List Char) :
    split (l ++ cs) = l.map other ++ split cs := by
  induction l with
  | nil => rfl
  | cons c l ih =>
      rw [List.cons_append, split_cons_other (h c List.mem_cons_self),
        ih fun d hd => h d (List.mem_cons_of_mem _ hd)]
      rfl

/-- The pieces of a text that does not start within a word. -/
theorem head_split {cs : List Char} (h : StopsRun Text.isWord cs) :
    ∀ p ∈ (split cs).head?, ∃ c ∈ cs.head?, p = other c := by
  cases cs with
  | nil =>
      intro p hp
      cases hp
  | cons c cs =>
      rw [split_cons_other (h c rfl)]
      intro p hp
      exact ⟨c, rfl, (Option.some.inj hp).symm⟩

theorem push_append {c : Char} (ps : List Piece) {qs : List Piece}
    (hqs : ∀ q ∈ qs.head?, ∃ d, q = other d) : push c (ps ++ qs) = push c ps ++ qs := by
  have hother : ∀ {d ps}, push c (other d :: ps) = push c [] ++ other d :: ps := by
    intro d ps
    show (if _ then _ else _) = (if _ then _ else _) ++ _
    split <;> rfl
  cases ps with
  | nil =>
      cases qs with
      | nil => rw [List.append_nil, List.append_nil]
      | cons q qs =>
          obtain ⟨d, rfl⟩ := hqs q rfl
          exact hother
  | cons p ps =>
      cases p with
      | word w =>
          show (if _ then _ else _) = (if _ then _ else _) ++ qs
          split <;> rfl
      | other d =>
          rw [List.cons_append, hother, hother, List.append_assoc]
          rfl

/-- No word goes over a place after which none goes on. -/
theorem split_append {cs : List Char} (hcs : StopsRun Text.isWord cs) (front : List Char) :
    split (front ++ cs) = split front ++ split cs := by
  induction front with
  | nil => rfl
  | cons c front ih =>
      rw [List.cons_append, split, ih]
      refine push_append _ fun q hq => ?_
      obtain ⟨d, _, hd⟩ := head_split hcs q hq
      exact ⟨d, hd⟩

theorem split_append_blanks (cs : List Char) {l : List Char} (hl : ∀ c ∈ l, Text.isBlank c) :
    split (cs ++ l) = split cs ++ l.map other := by
  have hword : ∀ c ∈ l, ¬ Text.isWord c := fun c hc => not_isWord_of_isBlank (hl c hc)
  have hsplit := split_others hword []
  rw [List.append_nil] at hsplit
  rw [split_append fun c hc => hword c (List.mem_of_mem_head? hc), hsplit]
  exact congrArg _ (List.append_nil _)

theorem split_word {w : List Char} (hne : w ≠ []) (hw : ∀ c ∈ w, Text.isWord c) :
    split w = [word w] := by
  induction w with
  | nil => exact absurd rfl hne
  | cons c w ih =>
      have hc : Text.isWord c := hw c List.mem_cons_self
      rw [split]
      cases w with
      | nil => exact if_pos hc
      | cons d w =>
          rw [ih (List.cons_ne_nil d w) fun b hb => hw b (List.mem_cons_of_mem _ hb)]
          exact if_pos hc

theorem eq_or_mem_of_mem_push {c d : Char} {ps : List Piece} (h : other c ∈ push d ps) :
    c = d ∨ other c ∈ ps := by
  unfold push at h
  split at h
  · split at h
    · rcases List.mem_cons.mp h with h | h
      · cases h
      · exact .inr (List.mem_cons_of_mem _ h)
    · rcases List.mem_cons.mp h with h | h
      · exact .inl (Piece.other.inj h)
      · exact .inr h
  · split at h
    · rcases List.mem_cons.mp h with h | h
      · cases h
      · exact .inr h
    · rcases List.mem_cons.mp h with h | h
      · exact .inl (Piece.other.inj h)
      · exact .inr h

theorem mem_of_mem_split {c : Char} {cs : List Char} (h : other c ∈ split cs) : c ∈ cs := by
  induction cs with
  | nil => cases h
  | cons d cs ih =>
      rcases eq_or_mem_of_mem_push h with rfl | h
      · exact List.mem_cons_self
      · exact List.mem_cons_of_mem _ (ih h)

end Piece

/-! ## Cells and ranges among the pieces -/

theorem opensCall_others {l : List Char} (h : ∀ c ∈ l, Text.isBlank c) (ps : List Piece) :
    opensCall (l.map .other ++ ps) = opensCall ps := by
  induction l with
  | nil => rfl
  | cons c l ih =>
      rw [List.map_cons, List.cons_append, opensCall, if_pos (h c List.mem_cons_self)]
      exact ih fun d hd => h d (List.mem_cons_of_mem _ hd)

theorem opensCall_append {ps qs : List Piece} (h : opensCall qs = false) :
    opensCall (ps ++ qs) = opensCall ps := by
  induction ps with
  | nil => exact h
  | cons p ps ih =>
      cases p with
      | word w => rfl
      | other c =>
          rw [List.cons_append, opensCall, opensCall, ih]

theorem cellWords_append {ps qs : List Piece} (h : opensCall qs = false) :
    cellWords (ps ++ qs) = cellWords ps ++ cellWords qs := by
  induction ps with
  | nil => rfl
  | cons p ps ih =>
      cases p with
      | word w =>
          rw [List.cons_append, cellWords, cellWords, opensCall_append h, ih]
          split <;> rfl
      | other c =>
          rw [List.cons_append, cellWords, cellWords, ih]

/-- After a character that is not blank, calls are opened no more. -/
theorem cellWords_append_other {c : Char} (hc : ¬ Text.isBlank c) (ps qs : List Piece) :
    cellWords (ps ++ .other c :: qs) = cellWords (ps ++ [.other c]) ++ cellWords qs := by
  have hopens : ∀ ps : List Piece,
      opensCall (ps ++ .other c :: qs) = opensCall (ps ++ [.other c]) := by
    intro ps
    induction ps with
    | nil => rw [List.nil_append, List.nil_append, opensCall, opensCall, if_neg hc, if_neg hc]
    | cons p ps ih =>
        cases p with
        | word w => rfl
        | other d => rw [List.cons_append, List.cons_append, opensCall, opensCall, ih]
  induction ps with
  | nil => rfl
  | cons p ps ih =>
      cases p with
      | word w =>
          rw [List.cons_append, List.cons_append, cellWords, cellWords, hopens, ih]
          split <;> rfl
      | other d =>
          rw [List.cons_append, List.cons_append, cellWords, cellWords, ih]

theorem rangeWords_cons_other (c : Char) (ps : List Piece) :
    rangeWords (.other c :: ps) = rangeWords ps := by
  rw [rangeWords]
  intro a d b rest h
  cases h

/-- A word is the first cell of a range only before a colon and another word. -/
theorem rangeWords_cons_word {ps : List Piece}
    (h : ∀ c b rest, ps = .other c :: .word b :: rest → c ≠ ':') (a : List Char) :
    rangeWords (.word a :: ps) = rangeWords ps := by
  by_cases hform : ∃ c b rest, ps = .other c :: .word b :: rest
  · obtain ⟨c, b, rest, rfl⟩ := hform
    have hc : c ≠ ':' := h c b rest rfl
    rw [rangeWords]
    simp [hc]
  · rw [rangeWords]
    exact fun _ c b rest _ heq => hform ⟨c, b, rest, heq⟩

theorem rangeWords_append {ps qs : List Piece}
    (h : ∀ q ∈ qs.head?, ∃ c, q = .other c ∧ c ≠ ':') :
    rangeWords (ps ++ qs) = rangeWords ps ++ rangeWords qs := by
  fun_induction rangeWords ps with
  | case1 a c b rest hc ih =>
      rw [List.cons_append, List.cons_append, List.cons_append, rangeWords, if_pos hc, ih]
      rfl
  | case2 a c b rest hc ih =>
      rw [List.cons_append, List.cons_append, List.cons_append, rangeWords, if_neg hc]
      exact ih
  | case3 p rest hform ih =>
      rw [List.cons_append, ← ih]
      cases p with
      | other c => exact rangeWords_cons_other c _
      | word a =>
          -- a range at the seam would need a colon or a word at the front of `qs`
          refine rangeWords_cons_word (fun c b rest' heq => ?_) a
          cases rest with
          | nil =>
              rw [List.nil_append] at heq
              obtain ⟨d, hd, hne⟩ := h (.other c) (by rw [heq]; rfl)
              exact Piece.other.inj hd ▸ hne
          | cons q rest =>
              injection heq with hq heq
              subst hq
              cases rest with
              | nil =>
                  have hqs : qs = .word b :: rest' := heq
                  obtain ⟨d, hd, _⟩ := h (.word b) (by rw [hqs]; rfl)
                  cases hd
              | cons q rest =>
                  injection heq with hq _
                  subst hq
                  exact (hform a c b rest rfl rfl).elim
  | case4 => rfl

theorem rangeWords_eq_nil {ps : List Piece} (h : .other ':' ∉ ps) : rangeWords ps = [] := by
  fun_induction rangeWords ps with
  | case1 a c b rest hc ih =>
      simp only [Bool.and_eq_true, decide_eq_true_eq] at hc
      obtain ⟨⟨rfl, _⟩, _⟩ := hc
      exact absurd (by simp) h
  | case2 a c b rest hc ih => exact ih fun hm => h (List.mem_cons_of_mem _ hm)
  | case3 p rest _ ih => exact ih fun hm => h (List.mem_cons_of_mem _ hm)
  | case4 => rfl

/-! ## Cells and ranges in a text -/

/-- The cells that a text names, in order. -/
def cellsIn (cs : List Char) : List (List Char) :=
  cellWords (Piece.split cs)

/-- The ranges that a text names, in order. -/
def rangesIn (cs : List Char) : List (List Char × List Char) :=
  rangeWords (Piece.split cs)

theorem cellsIn_others {l : List Char} (h : ∀ c ∈ l, ¬ Text.isWord c) (cs : List Char) :
    cellsIn (l ++ cs) = cellsIn cs := by
  unfold cellsIn
  rw [Piece.split_others h]
  generalize Piece.split cs = ps
  clear h
  induction l with
  | nil => rfl
  | cons c l ih => exact ih

theorem rangesIn_others {l : List Char} (h : ∀ c ∈ l, ¬ Text.isWord c) (cs : List Char) :
    rangesIn (l ++ cs) = rangesIn cs := by
  unfold rangesIn
  rw [Piece.split_others h]
  generalize Piece.split cs = ps
  clear h
  induction l with
  | nil => rfl
  | cons c l ih =>
      rw [List.map_cons, List.cons_append, rangeWords_cons_other]
      exact ih

theorem Gap.stopsRun {gap : List Char} (hg : Gap gap) {c : Char} (hc : ¬ Text.isWord c)
    (cs : List Char) : StopsRun Text.isWord (gap ++ c :: cs) := by
  intro d hd
  cases gap with
  | nil =>
      obtain rfl := Option.some.inj hd
      exact hc
  | cons b gap =>
      obtain rfl := Option.some.inj hd
      exact hg.not_isWord _ List.mem_cons_self

theorem Gap.not_isWord_append {gap : List Char} (hg : Gap gap) {c : Char} (hc : ¬ Text.isWord c) :
    ∀ d ∈ gap ++ [c], ¬ Text.isWord d := by
  intro d hd
  rcases List.mem_append.mp hd with hd | hd
  · exact hg.not_isWord d hd
  · obtain rfl := List.mem_singleton.mp hd
    exact hc

/-- What is named before a symbol and after it, if the symbol opens no call. -/
theorem cellsIn_before (front : List Char) {gap : List Char} (hg : Gap gap) {c : Char}
    (hc : IsSymbol c) (cs : List Char) :
    cellsIn (front ++ (gap ++ c :: cs)) = cellsIn front ++ cellsIn cs := by
  obtain ⟨_, hc, hblank, hopen⟩ := hc
  have hopens : opensCall (Piece.split (gap ++ c :: cs)) = false := by
    rw [Piece.split_others hg.not_isWord, opensCall_others fun d hd => isBlank_of_isGap (hg d hd),
      Piece.split_cons_other hc, opensCall, if_neg hblank]
    exact beq_false_of_ne hopen
  -- blanks and the symbol belong to no word
  have hrest : cellsIn (gap ++ c :: cs) = cellsIn cs := by
    rw [← List.singleton_append, ← List.append_assoc]
    exact cellsIn_others (hg.not_isWord_append hc) cs
  rw [← hrest]
  unfold cellsIn
  rw [Piece.split_append (hg.stopsRun hc cs), cellWords_append hopens]

/-- What is named before a symbol and after it, if the symbol is no colon. -/
theorem rangesIn_before (front : List Char) {gap : List Char} (hg : Gap gap) {c : Char}
    (hc : ¬ Text.isWord c) (hcolon : gap = [] → c ≠ ':') (cs : List Char) :
    rangesIn (front ++ (gap ++ c :: cs)) = rangesIn front ++ rangesIn cs := by
  have hstop := hg.stopsRun hc cs
  have hhead : ∀ q ∈ (Piece.split (gap ++ c :: cs)).head?, ∃ d, q = .other d ∧ d ≠ ':' := by
    intro q hq
    obtain ⟨d, hd, rfl⟩ := Piece.head_split hstop q hq
    refine ⟨d, rfl, ?_⟩
    cases gap with
    | nil =>
        obtain rfl := Option.some.inj hd
        exact hcolon rfl
    | cons b gap =>
        obtain rfl := Option.some.inj hd
        rintro rfl
        exact absurd (hg _ List.mem_cons_self) (by decide)
  have hrest : rangesIn (gap ++ c :: cs) = rangesIn cs := by
    rw [← List.singleton_append, ← List.append_assoc]
    exact rangesIn_others (hg.not_isWord_append hc) cs
  rw [← hrest]
  unfold rangesIn
  rw [Piece.split_append hstop, rangeWords_append hhead]

theorem rangesIn_eq_nil {cs : List Char} (h : ':' ∉ cs) : rangesIn cs = [] :=
  rangeWords_eq_nil fun hm => h (Piece.mem_of_mem_split hm)

/-! ## Tokens -/

theorem IsNumber.not_mem_colon {cs : List Char} (h : IsNumber cs) : ':' ∉ cs := by
  have hdigits : ∀ {l : List Char}, (∀ c ∈ l, c.isDigit) → ':' ∉ l :=
    fun hl hm => absurd (hl _ hm) (by decide)
  obtain ⟨mantissa, exponent, rfl, hm, he⟩ := h
  intro hc
  rcases List.mem_append.mp hc with hc | hc
  · rcases hm with hm | ⟨whole, fraction, rfl, hwhole, hfraction, _⟩
    · exact hdigits hm.2 hc
    · rcases List.mem_append.mp hc with hc | hc
      · exact hdigits hwhole hc
      · rcases List.mem_cons.mp hc with hc | hc
        · exact absurd hc (by decide)
        · exact hdigits hfraction hc
  · rcases he with rfl | ⟨e, sign, digits, rfl, he, hsign, hd⟩
    · cases hc
    · rcases List.mem_cons.mp hc with rfl | hc
      · rcases he with he | he <;> exact absurd he (by decide)
      rcases List.mem_append.mp hc with hc | hc
      · rcases hsign with rfl | rfl | rfl <;> exact absurd hc (by decide)
      · exact hdigits hd.2 hc

theorem IsCell.isCellWord {cs : List Char} (h : IsCell cs) : isCellWord cs := by
  obtain ⟨letters, digits, rfl, hne, hletters, hne', hdigits⟩ := h
  have hstop : StopsRun Address.isColumnLetter digits := by
    intro c hc
    obtain ⟨d, ds, rfl⟩ := List.exists_cons_of_ne_nil hne'
    obtain rfl := Option.some.inj hc
    exact not_isColumnLetter_of_isDigit (hdigits _ List.mem_cons_self)
  unfold Formula.isCellWord
  rw [takeWhile_run hletters hstop, dropWhile_run hletters hstop]
  simp only [Bool.and_eq_true, Bool.not_eq_true', List.isEmpty_eq_false_iff]
  exact ⟨⟨hne, hne'⟩, List.all_eq_true.mpr hdigits⟩

theorem IsCell.split {cs : List Char} (h : IsCell cs) : Piece.split cs = [.word cs] := by
  obtain ⟨letters, digits, rfl, hne, hletters, _, hdigits⟩ := h
  refine Piece.split_word (by simp [hne]) fun c hc => ?_
  rcases List.mem_append.mp hc with hc | hc
  · exact isWord_of_isColumnLetter (hletters c hc)
  · exact isWord_of_isDigit (hdigits c hc)

theorem IsCell.cellsIn {cs : List Char} (h : IsCell cs) : cellsIn cs = [cs] := by
  unfold Formula.cellsIn
  rw [h.split, cellWords, h.isCellWord]
  rfl

theorem IsCell.rangesIn {cs : List Char} (h : IsCell cs) : rangesIn cs = [] := by
  unfold Formula.rangesIn
  rw [h.split, rangeWords_cons_word (by simp)]
  rfl

theorem cellsIn_range {first last gap gap' : List Char} (hfirst : IsCell first) (hg : Gap gap)
    (hg' : Gap gap') (hlast : IsCell last) :
    cellsIn (first ++ gap ++ [':'] ++ gap' ++ last) = [first, last] := by
  simp only [List.append_assoc, List.cons_append, List.nil_append]
  rw [cellsIn_before first hg (by decide), hfirst.cellsIn,
    cellsIn_others hg'.not_isWord, hlast.cellsIn]
  rfl

/-- A range is found if there are no blanks around its colon. -/
theorem rangesIn_range {first last gap gap' : List Char} (hfirst : IsCell first) (hg : Gap gap)
    (hg' : Gap gap') (hlast : IsCell last) :
    rangesIn (first ++ gap ++ [':'] ++ gap' ++ last) =
      if gap = [] ∧ gap' = [] then [(first, last)] else [] := by
  simp only [List.append_assoc, List.cons_append, List.nil_append]
  by_cases hgap : gap = []
  -- with blanks before the colon, the first cell is followed by a blank
  case neg =>
    rw [if_neg fun h => hgap h.1, rangesIn_before first hg (by decide) fun h => absurd h hgap,
      hfirst.rangesIn, rangesIn_others hg'.not_isWord, hlast.rangesIn]
    rfl
  subst hgap
  have hsplit : Piece.split (first ++ ':' :: (gap' ++ last)) =
      .word first :: .other ':' :: Piece.split (gap' ++ last) := by
    rw [Piece.split_append (by rintro c ⟨⟩; decide), hfirst.split,
      Piece.split_cons_other (by decide)]
    rfl
  rw [List.nil_append]
  unfold rangesIn
  rw [hsplit]
  cases gap' with
  | nil =>
      rw [List.nil_append, hlast.split, rangeWords, hfirst.isCellWord, hlast.isCellWord]
      rfl
  -- with blanks after the colon, no word follows it
  | cons c gap' =>
      have hc : ¬ Text.isWord c := hg'.not_isWord c List.mem_cons_self
      have hnone : rangesIn (c :: gap' ++ last) = [] :=
        (rangesIn_others hg'.not_isWord last).trans hlast.rangesIn
      rw [if_neg fun h => List.cons_ne_nil _ _ h.2, rangeWords_cons_word, rangeWords_cons_other]
      · exact hnone
      · intro d b rest heq
        rw [List.cons_append, Piece.split_cons_other hc] at heq
        cases heq

/-! ## What is found token by token -/

/-- A search in texts that finds in a writing what it finds in the tokens. -/
structure SearchesTokens {α : Type} (search : List Char → List α) : Prop where
  nil : search [] = []
  others : ∀ {l : List Char}, (∀ c ∈ l, ¬ Text.isWord c) → ∀ cs, search (l ++ cs) = search cs
  before : ∀ (front : List Char) {gap : List Char}, Gap gap → ∀ {c : Char}, IsSymbol c → c ≠ ':' →
    ∀ cs, search (front ++ (gap ++ c :: cs)) = search front ++ search cs
  opener : ∀ {opener : List Char}, IsOpener opener → ∀ cs,
    search (opener ++ cs) = search opener ++ search cs
  blanks : ∀ (cs : List Char) {l : List Char}, (∀ c ∈ l, Text.isBlank c) →
    search (cs ++ l) = search cs

theorem IsOpener.front {opener : List Char} (h : IsOpener opener) :
    ∃ front, opener = front ++ ['('] ∧ ':' ∉ front := by
  obtain ⟨first, name, gap, rfl, hfirst, hname, hgap⟩ := h
  refine ⟨first :: (name ++ gap), by simp, fun hm => ?_⟩
  rcases List.mem_cons.mp hm with rfl | hm
  · exact absurd hfirst (by decide)
  rcases List.mem_append.mp hm with hm | hm
  · exact absurd (hname _ hm) (by decide)
  · rcases hgap _ hm with h | h <;> exact absurd h (by decide)

theorem searchesTokens_cellsIn : SearchesTokens cellsIn where
  nil := rfl
  others := cellsIn_others
  before front _ hg _ hc _ cs := cellsIn_before front hg hc cs
  opener := by
    intro opener ho cs
    obtain ⟨front, rfl, _⟩ := ho.front
    have hsplit : ∀ cs, Piece.split (front ++ '(' :: cs) =
        Piece.split front ++ .other '(' :: Piece.split cs := by
      intro cs
      rw [Piece.split_append (by rintro c ⟨⟩; decide), Piece.split_cons_other (by decide)]
    unfold cellsIn
    rw [List.append_assoc, List.singleton_append, hsplit, hsplit]
    exact cellWords_append_other (by decide) _ _
  blanks cs l hl := by
    have hnone : cellWords (l.map .other) = [] := by
      clear hl
      induction l with
      | nil => rfl
      | cons c l ih => exact ih
    have hopens := opensCall_others hl []
    rw [List.append_nil] at hopens
    unfold cellsIn
    rw [Piece.split_append_blanks cs hl, cellWords_append hopens, hnone, List.append_nil]

theorem searchesTokens_rangesIn : SearchesTokens rangesIn where
  nil := rfl
  others := rangesIn_others
  before front _ hg _ hc hcolon cs := rangesIn_before front hg hc.2.1 (fun _ => hcolon) cs
  opener := by
    intro opener ho cs
    obtain ⟨front, rfl, _⟩ := ho.front
    have hnone : Gap [] := fun _ hc => absurd hc List.not_mem_nil
    have hopening : ∀ cs, rangesIn (front ++ '(' :: cs) = rangesIn front ++ rangesIn cs :=
      rangesIn_before front hnone (by decide) (by decide)
    rw [List.append_assoc, List.singleton_append, hopening, hopening]
    show _ = _ ++ [] ++ _
    rw [List.append_nil]
  blanks cs l hl := by
    have hnone : rangeWords (l.map .other) = [] := by
      clear hl
      induction l with
      | nil => rfl
      | cons c l ih =>
          rw [List.map_cons, rangeWords_cons_other]
          exact ih
    have hhead : ∀ q ∈ (l.map Piece.other).head?, ∃ c, q = .other c ∧ c ≠ ':' := by
      intro q hq
      cases l with
      | nil => cases hq
      | cons c l =>
          refine ⟨c, (Option.some.inj hq).symm, ?_⟩
          rintro rfl
          exact absurd (hl _ List.mem_cons_self) (by decide)
    unfold rangesIn
    rw [Piece.split_append_blanks cs hl, rangeWords_append hhead, hnone, List.append_nil]

namespace SearchesTokens

variable {α β : Type} {search : List Char → List α} {cs cs' gap gap' : List Char}

theorem map (h : SearchesTokens search) (f : α → β) :
    SearchesTokens fun cs => (search cs).map f where
  nil := by rw [h.nil, List.map_nil]
  others hl cs := by rw [h.others hl]
  before front _ hg _ hc hcolon cs := by
    rw [h.before front hg hc hcolon, List.map_append]
  opener ho cs := by rw [h.opener ho, List.map_append]
  blanks cs _ hl := by rw [h.blanks cs hl]

theorem gap_append (h : SearchesTokens search) (hg : Gap gap) (cs : List Char) :
    search (gap ++ cs) = search cs :=
  h.others hg.not_isWord cs

/-- A symbol that ends a writing, and blanks before it. -/
theorem closing (h : SearchesTokens search) (front : List Char) (hg : Gap gap) {c : Char}
    (hc : IsSymbol c) (hcolon : c ≠ ':') : search (front ++ gap ++ [c]) = search front := by
  rw [List.append_assoc, h.before front hg hc hcolon, h.nil, List.append_nil]

theorem group (h : SearchesTokens search) (hg : Gap gap) (hg' : Gap gap') :
    search (['('] ++ gap ++ cs ++ gap' ++ [')']) = search cs := by
  rw [h.closing _ hg' (by decide) (by decide), List.append_assoc,
    h.others (forall_mem_of_all (by decide)), h.gap_append hg]

theorem sign (h : SearchesTokens search) (op : SignOp) (hg : Gap gap) :
    search ([op.symbol] ++ gap ++ cs) = search cs := by
  have hop : ∀ c ∈ [op.symbol], ¬ Text.isWord c := by
    cases op <;> exact forall_mem_of_all (by decide)
  rw [List.append_assoc, h.others hop, h.gap_append hg]

theorem binary (h : SearchesTokens search) (op : BinaryOp) (hg : Gap gap) (hg' : Gap gap') :
    search (cs ++ gap ++ op.symbol ++ gap' ++ cs') = search cs ++ search cs' := by
  obtain ⟨c, symbol, hop, hc, hcolon⟩ := op.head_symbol
  have hwords := op.not_isWord_symbol
  rw [hop] at hwords ⊢
  have hsymbol : ∀ d ∈ symbol, ¬ Text.isWord d := fun d hd => hwords d (List.mem_cons_of_mem _ hd)
  simp only [List.append_assoc, List.cons_append]
  rw [h.before cs hg hc hcolon, h.others hsymbol, h.gap_append hg']

theorem more (h : SearchesTokens search) (hg : Gap gap) (hg' : Gap gap') :
    search (gap ++ cs ++ gap' ++ [','] ++ cs') = search cs ++ search cs' := by
  simp only [List.append_assoc, List.cons_append, List.nil_append]
  rw [h.gap_append hg, h.before cs hg' (by decide) (by decide)]

/-- Blanks around a text make no difference. -/
theorem trimBlanks (h : SearchesTokens search) (cs : List Char) :
    search (Text.trimBlanks cs) = search cs := by
  obtain ⟨before, rest, rfl, hbefore, hstop⟩ := exists_run Text.isBlank cs
  obtain ⟨after, body, hrest, hafter, hstop'⟩ := exists_run Text.isBlank rest.reverse
  have hrest' : rest = body.reverse ++ after.reverse := by
    rw [← List.reverse_append, ← hrest, List.reverse_reverse]
  unfold Text.trimBlanks Text.trimRight
  rw [dropWhile_run hbefore hstop, hrest, dropWhile_run hafter hstop', hrest',
    h.others fun c hc => not_isWord_of_isBlank (hbefore c hc),
    h.blanks _ fun c hc => hafter c (List.mem_reverse.mp hc)]

end SearchesTokens

end Worksheet.Formula
