import Worksheet.Proofs.Evaluation
import Worksheet.Proofs.Words

/-!
# What a writing names

The cells that the text of a formula names are a function of its expression: the cells in it, the
ends of its ranges, and what its numbers, strings and names of functions name themselves.  The
ranges that it names are those that have no blanks around their colon, and what stands in strings.
-/

namespace Worksheet.Formula

/-- The texts of the two ends of a range. -/
def endTexts (ends : List Char × List Char) : String × String :=
  (String.ofList ends.1, String.ofList ends.2)

/-- The cells that a text names, in order. -/
def cellTextsIn (cs : List Char) : List String :=
  (cellsIn cs).map String.ofList

/-- The ranges that a text names, in order. -/
def rangeTextsIn (cs : List Char) : List (String × String) :=
  (rangesIn cs).map endTexts

/-- The cells that the text of an expression names outside the expressions within it. -/
def Expr.ownNames : Expr → List String
  | .number literal => cellTextsIn literal.toList
  | .text literal => cellTextsIn literal.toList
  | .call opener _ => cellTextsIn opener.toList
  | .cell address => [address]
  | .range first last => [first, last]
  | _ => []

/-- The cells that the text of an expression names. -/
def Expr.names (e : Expr) : List String :=
  e.parts.flatMap Expr.ownNames

/-- The ranges that the text of a string names. -/
def Expr.ownQuotedRanges : Expr → List (String × String)
  | .text literal => rangeTextsIn literal.toList
  | _ => []

/-- The ranges that the strings in an expression name. -/
def Expr.quotedRanges (e : Expr) : List (String × String) :=
  e.parts.flatMap Expr.ownQuotedRanges

theorem searchesTokens_cellTextsIn : SearchesTokens cellTextsIn :=
  searchesTokens_cellsIn.map String.ofList

theorem searchesTokens_rangeTextsIn : SearchesTokens rangeTextsIn :=
  searchesTokens_rangesIn.map endTexts

/-! ## Cells -/

mutual

/-- The cells that a writing names are those that the expression names. -/
theorem SpellsAs.names : ∀ {n : Nat} {e : Expr} {cs : List Char}, Spells n e cs →
    cellTextsIn cs = e.names
  | _, _, _, .loosen _ h => h.names
  | _, _, cs, .number _ => by
      show _ = cellTextsIn (String.ofList cs).toList ++ []
      rw [String.toList_ofList, List.append_nil]
  | _, _, cs, .text _ => by
      show _ = cellTextsIn (String.ofList cs).toList ++ []
      rw [String.toList_ofList, List.append_nil]
  | _, _, _, .bool b => by cases b <;> rfl
  | _, _, _, .cell h => by
      unfold cellTextsIn
      rw [h.cellsIn]
      rfl
  | _, _, _, .range hfirst hg hlast => by
      unfold cellTextsIn
      rw [cellsIn_range hfirst hg.1 hg.2 hlast]
      rfl
  | _, _, _, .group hg h hg' => by
      rw [searchesTokens_cellTextsIn.group hg hg', h.names]
  | _, _, _, @SpellsAs.callNone _ opener _ ho hg => by
      rw [searchesTokens_cellTextsIn.closing _ hg (by decide) (by decide)]
      show _ = cellTextsIn (String.ofList opener).toList ++ []
      rw [String.toList_ofList, List.append_nil]
  | _, _, _, @SpellsAs.call _ opener _ _ ho h => by
      rw [searchesTokens_cellTextsIn.opener ho, h.names]
      show _ = cellTextsIn (String.ofList opener).toList ++ _
      rw [String.toList_ofList]
      rfl
  | _, _, _, .percent h hg => by
      rw [searchesTokens_cellTextsIn.closing _ hg (by decide) (by decide),
        h.names]
      rfl
  | _, _, _, .sign op hg h => by
      rw [searchesTokens_cellTextsIn.sign op hg, h.names]
      rfl
  | _, _, _, .binary op h hg hg' h' => by
      rw [searchesTokens_cellTextsIn.binary op hg hg', h.names, h'.names]
      exact List.flatMap_append.symm

theorem SpellsArgumentsAs.names : ∀ {args : List Expr} {cs : List Char},
    SpellsArguments args cs → cellTextsIn cs = (partsOfAll args).flatMap Expr.ownNames
  | _, _, .single hg h hg' => by
      rw [searchesTokens_cellTextsIn.closing _ hg' (by decide) (by decide),
        searchesTokens_cellTextsIn.gap_append hg, h.names]
      show _ = List.flatMap _ (_ ++ [])
      rw [List.append_nil]
      rfl
  | _, _, .more hg h hg' h' => by
      rw [searchesTokens_cellTextsIn.more hg hg', h.names, h'.names]
      exact List.flatMap_append.symm

end

/-! ## Ranges -/

/-- A style in which blanks around the colon are left out only if the range is as said. -/
def RangeStyle.tight (style : RangeStyle) (p : String × String → Prop) : RangeStyle :=
  fun first last gap gap' =>
    style first last gap gap' ∧ (gap = [] → gap' = [] → p (endTexts (first, last)))

/-- A style with nothing but blanks around the colon. -/
def RangeStyle.Blank (style : RangeStyle) : Prop :=
  ∀ {first last gap gap'}, style first last gap gap' → Gap gap ∧ Gap gap'

theorem rangeTextsIn_number {cs : List Char} (h : IsNumber cs) : rangeTextsIn cs = [] := by
  unfold rangeTextsIn
  rw [rangesIn_eq_nil h.not_mem_colon]
  rfl

theorem rangeTextsIn_opener {cs : List Char} (h : IsOpener cs) : rangeTextsIn cs = [] := by
  obtain ⟨front, rfl, hcolon⟩ := h.front
  unfold rangeTextsIn
  rw [rangesIn_eq_nil (by simpa using hcolon)]
  rfl

theorem rangeTextsIn_range {first last gap gap' : List Char} (hfirst : IsCell first) (hg : Gap gap)
    (hg' : Gap gap') (hlast : IsCell last) (p : String × String → Prop) :
    (∀ r ∈ rangeTextsIn (first ++ gap ++ [':'] ++ gap' ++ last), p r) ↔
      (gap = [] → gap' = [] → p (endTexts (first, last))) := by
  unfold rangeTextsIn
  rw [rangesIn_range hfirst hg hg' hlast]
  by_cases h : gap = [] ∧ gap' = []
  · rw [if_pos h]
    simp [h.1, h.2]
  · rw [if_neg h]
    constructor
    · exact fun _ h₁ h₂ => absurd ⟨h₁, h₂⟩ h
    · intro _ r hr
      cases hr

variable {style : RangeStyle} {p : String × String → Prop}

mutual

/-- A range of a writing that has no blanks around its colon is named. -/
theorem SpellsAs.tight (hs : style.Blank) : ∀ {n : Nat} {e : Expr} {cs : List Char},
    SpellsAs style n e cs → (∀ r ∈ rangeTextsIn cs, p r) →
    (∀ r ∈ e.quotedRanges, p r) ∧ SpellsAs (style.tight p) n e cs
  | _, _, _, .loosen hmn h, hp => ⟨(h.tight hs hp).1, .loosen hmn (h.tight hs hp).2⟩
  | _, _, _, .number h, _ => ⟨fun _ hr => (List.not_mem_nil hr).elim, .number h⟩
  | _, _, cs, .text h, hp => by
      refine ⟨?_, .text h⟩
      show ∀ r ∈ rangeTextsIn (String.ofList cs).toList ++ [], p r
      rw [String.toList_ofList, List.append_nil]
      exact hp
  | _, _, _, .bool b, _ => ⟨fun _ hr => (List.not_mem_nil hr).elim, .bool b⟩
  | _, _, _, .cell h, _ => ⟨fun _ hr => (List.not_mem_nil hr).elim, .cell h⟩
  | _, _, _, .range hfirst hg hlast, hp => by
      refine ⟨fun _ hr => (List.not_mem_nil hr).elim, .range hfirst ⟨hg, ?_⟩ hlast⟩
      exact (rangeTextsIn_range hfirst (hs hg).1 (hs hg).2 hlast p).mp hp
  | _, _, _, .group hg h hg', hp => by
      rw [searchesTokens_rangeTextsIn.group hg hg'] at hp
      exact ⟨(h.tight hs hp).1, .group hg (h.tight hs hp).2 hg'⟩
  | _, _, _, .callNone ho hg, _ => ⟨fun _ hr => (List.not_mem_nil hr).elim, .callNone ho hg⟩
  | _, _, _, .call ho h, hp => by
      rw [searchesTokens_rangeTextsIn.opener ho, List.forall_mem_append] at hp
      exact ⟨(h.tight hs hp.2).1, .call ho (h.tight hs hp.2).2⟩
  | _, _, _, .percent h hg, hp => by
      rw [searchesTokens_rangeTextsIn.closing _ hg (by decide) (by decide)] at hp
      exact ⟨(h.tight hs hp).1, .percent (h.tight hs hp).2 hg⟩
  | _, _, _, .sign op hg h, hp => by
      rw [searchesTokens_rangeTextsIn.sign op hg] at hp
      exact ⟨(h.tight hs hp).1, .sign op hg (h.tight hs hp).2⟩
  | _, _, _, @SpellsAs.binary _ op left right _ _ _ _ h hg hg' h', hp => by
      rw [searchesTokens_rangeTextsIn.binary op hg hg', List.forall_mem_append] at hp
      refine ⟨?_, .binary op (h.tight hs hp.1).2 hg hg' (h'.tight hs hp.2).2⟩
      show ∀ r ∈ (left.parts ++ right.parts).flatMap _, p r
      rw [List.flatMap_append, List.forall_mem_append]
      exact ⟨(h.tight hs hp.1).1, (h'.tight hs hp.2).1⟩

theorem SpellsArgumentsAs.tight (hs : style.Blank) : ∀ {args : List Expr} {cs : List Char},
    SpellsArgumentsAs style args cs →
    (∀ r ∈ rangeTextsIn cs, p r) →
    (∀ r ∈ (partsOfAll args).flatMap Expr.ownQuotedRanges, p r) ∧
      SpellsArgumentsAs (style.tight p) args cs
  | _, _, @SpellsArgumentsAs.single _ e _ _ _ hg h hg', hp => by
      rw [searchesTokens_rangeTextsIn.closing _ hg' (by decide) (by decide),
        searchesTokens_rangeTextsIn.gap_append hg] at hp
      refine ⟨?_, .single hg (h.tight hs hp).2 hg'⟩
      show ∀ r ∈ (e.parts ++ []).flatMap Expr.ownQuotedRanges, p r
      rw [List.append_nil]
      exact (h.tight hs hp).1
  | _, _, @SpellsArgumentsAs.more _ e es _ _ _ _ hg h hg' h', hp => by
      rw [searchesTokens_rangeTextsIn.more hg hg', List.forall_mem_append] at hp
      refine ⟨?_, .more hg (h.tight hs hp.1).2 hg' (h'.tight hs hp.2).2⟩
      show ∀ r ∈ (e.parts ++ partsOfAll es).flatMap _, p r
      rw [List.flatMap_append, List.forall_mem_append]
      exact ⟨(h.tight hs hp.1).1, (h'.tight hs hp.2).1⟩

end

mutual

/-- No other ranges are named in a writing than those without blanks around their colon, and those
in strings. -/
theorem SpellsAs.of_tight (hs : style.Blank) : ∀ {n : Nat} {e : Expr} {cs : List Char},
    SpellsAs (style.tight p) n e cs → (∀ r ∈ e.quotedRanges, p r) → ∀ r ∈ rangeTextsIn cs, p r
  | _, _, _, .loosen _ h, hp => h.of_tight hs hp
  | _, _, _, .number h, _ => by
      rw [rangeTextsIn_number h]
      exact fun _ hr => (List.not_mem_nil hr).elim
  | _, _, cs, .text _, hp => by
      have hp' : ∀ r ∈ rangeTextsIn (String.ofList cs).toList ++ [], p r := hp
      rw [String.toList_ofList, List.append_nil] at hp'
      exact hp'
  | _, _, _, .bool b, _ => by
      have hnone : rangeTextsIn (boolText b) = [] := by cases b <;> rfl
      rw [hnone]
      exact fun _ hr => (List.not_mem_nil hr).elim
  | _, _, _, .cell h, _ => by
      have hnone : rangeTextsIn _ = [] := congrArg (List.map endTexts) h.rangesIn
      rw [hnone]
      exact fun _ hr => (List.not_mem_nil hr).elim
  | _, _, _, .range hfirst hg hlast, _ =>
      (rangeTextsIn_range hfirst (hs hg.1).1 (hs hg.1).2 hlast p).mpr hg.2
  | _, _, _, .group hg h hg', hp => by
      rw [searchesTokens_rangeTextsIn.group hg hg']
      exact h.of_tight hs hp
  | _, _, _, .callNone ho hg, _ => by
      rw [searchesTokens_rangeTextsIn.closing _ hg (by decide) (by decide),
        rangeTextsIn_opener ho]
      exact fun _ hr => (List.not_mem_nil hr).elim
  | _, _, _, .call ho h, hp => by
      rw [searchesTokens_rangeTextsIn.opener ho, rangeTextsIn_opener ho]
      exact h.of_tight hs hp
  | _, _, _, .percent h hg, hp => by
      rw [searchesTokens_rangeTextsIn.closing _ hg (by decide) (by decide)]
      exact h.of_tight hs hp
  | _, _, _, .sign op hg h, hp => by
      rw [searchesTokens_rangeTextsIn.sign op hg]
      exact h.of_tight hs hp
  | _, _, _, @SpellsAs.binary _ op left right _ _ _ _ h hg hg' h', hp => by
      have hp' : ∀ r ∈ (left.parts ++ right.parts).flatMap Expr.ownQuotedRanges, p r := hp
      rw [List.flatMap_append, List.forall_mem_append] at hp'
      rw [searchesTokens_rangeTextsIn.binary op hg hg', List.forall_mem_append]
      exact ⟨h.of_tight hs hp'.1, h'.of_tight hs hp'.2⟩

theorem SpellsArgumentsAs.of_tight (hs : style.Blank) : ∀ {args : List Expr} {cs : List Char},
    SpellsArgumentsAs (style.tight p) args cs →
    (∀ r ∈ (partsOfAll args).flatMap Expr.ownQuotedRanges, p r) → ∀ r ∈ rangeTextsIn cs, p r
  | _, _, @SpellsArgumentsAs.single _ e _ _ _ hg h hg', hp => by
      have hp' : ∀ r ∈ (e.parts ++ []).flatMap Expr.ownQuotedRanges, p r := hp
      rw [List.append_nil] at hp'
      rw [searchesTokens_rangeTextsIn.closing _ hg' (by decide) (by decide),
        searchesTokens_rangeTextsIn.gap_append hg]
      exact h.of_tight hs hp'
  | _, _, @SpellsArgumentsAs.more _ e es _ _ _ _ hg h hg' h', hp => by
      have hp' : ∀ r ∈ (e.parts ++ partsOfAll es).flatMap Expr.ownQuotedRanges, p r := hp
      rw [List.flatMap_append, List.forall_mem_append] at hp'
      rw [searchesTokens_rangeTextsIn.more hg hg', List.forall_mem_append]
      exact ⟨h.of_tight hs hp'.1, h'.of_tight hs hp'.2⟩

end

mutual

/-- A writing is in a style that its ranges are in.  What holds of all its characters can be used
for the blanks around their colons. -/
theorem SpellsAs.restyle {style' : RangeStyle} {q : Char → Prop} :
    ∀ {n : Nat} {e : Expr} {cs : List Char}, SpellsAs style n e cs → (∀ c ∈ cs, q c) →
    (∀ first last gap gap', .range (String.ofList first) (String.ofList last) ∈ e.parts →
      (∀ c ∈ gap, q c) → (∀ c ∈ gap', q c) → style first last gap gap' →
      style' first last gap gap') → SpellsAs style' n e cs
  | _, _, _, .loosen hmn h, hq, hs => .loosen hmn (h.restyle hq hs)
  | _, _, _, .number h, _, _ => .number h
  | _, _, _, .bool b, _, _ => .bool b
  | _, _, _, .text h, _, _ => .text h
  | _, _, _, .cell h, _, _ => .cell h
  | _, _, _, .range hfirst hg hlast, hq, hs => by
      simp only [List.forall_mem_append] at hq
      exact .range hfirst (hs _ _ _ _ (List.mem_singleton_self _) hq.1.1.1.2 hq.1.2 hg) hlast
  | _, _, _, .group hg h hg', hq, hs => by
      simp only [List.forall_mem_append] at hq
      exact .group hg (h.restyle hq.1.1.2 hs) hg'
  | _, _, _, .callNone ho hg, _, _ => .callNone ho hg
  | _, _, _, .call ho h, hq, hs => by
      simp only [List.forall_mem_append] at hq
      refine .call ho (h.restyle hq.2 fun first last gap gap' hm => ?_)
      exact hs first last gap gap' (List.mem_cons_of_mem _ hm)
  | _, _, _, .percent h hg, hq, hs => by
      simp only [List.forall_mem_append] at hq
      refine .percent (h.restyle hq.1.1 fun first last gap gap' hm => ?_) hg
      exact hs first last gap gap' (List.mem_cons_of_mem _ hm)
  | _, _, _, .sign op hg h, hq, hs => by
      simp only [List.forall_mem_append] at hq
      refine .sign op hg (h.restyle hq.2 fun first last gap gap' hm => ?_)
      exact hs first last gap gap' (List.mem_cons_of_mem _ hm)
  | _, _, _, .binary op h hg hg' h', hq, hs => by
      simp only [List.forall_mem_append] at hq
      refine .binary op (h.restyle hq.1.1.1.1 fun first last gap gap' hm => ?_) hg hg'
        (h'.restyle hq.2 fun first last gap gap' hm => ?_)
      · exact hs first last gap gap' (List.mem_cons_of_mem _ (List.mem_append_left _ hm))
      · exact hs first last gap gap' (List.mem_cons_of_mem _ (List.mem_append_right _ hm))

theorem SpellsArgumentsAs.restyle {style' : RangeStyle} {q : Char → Prop} :
    ∀ {args : List Expr} {cs : List Char}, SpellsArgumentsAs style args cs → (∀ c ∈ cs, q c) →
    (∀ first last gap gap', .range (String.ofList first) (String.ofList last) ∈ partsOfAll args →
      (∀ c ∈ gap, q c) → (∀ c ∈ gap', q c) → style first last gap gap' →
      style' first last gap gap') → SpellsArgumentsAs style' args cs
  | _, _, .single hg h hg', hq, hs => by
      simp only [List.forall_mem_append] at hq
      refine .single hg (h.restyle hq.1.1.2 fun first last gap gap' hm => ?_) hg'
      exact hs first last gap gap' (List.mem_append_left _ hm)
  | _, _, .more hg h hg' h', hq, hs => by
      simp only [List.forall_mem_append] at hq
      refine .more hg (h.restyle hq.1.1.1.2 fun first last gap gap' hm => ?_) hg'
        (h'.restyle hq.2 fun first last gap gap' hm => ?_)
      · exact hs first last gap gap' (List.mem_append_left _ hm)
      · exact hs first last gap gap' (List.mem_append_right _ hm)

end

mutual

/-- Every range of an expression stands in its writing. -/
theorem SpellsAs.range_mem : ∀ {n : Nat} {e : Expr} {cs : List Char}, SpellsAs style n e cs →
    ∀ {first last : String}, .range first last ∈ e.parts → ∃ ends gap gap',
      endTexts ends = (first, last) ∧ style ends.1 ends.2 gap gap'
  | _, _, _, .loosen _ h, _, _, hm => h.range_mem hm
  | _, _, _, .number _, _, _, hm => by cases List.mem_singleton.mp hm
  | _, _, _, .bool _, _, _, hm => by cases List.mem_singleton.mp hm
  | _, _, _, .text _, _, _, hm => by cases List.mem_singleton.mp hm
  | _, _, _, .cell _, _, _, hm => by cases List.mem_singleton.mp hm
  | _, _, _, @SpellsAs.range _ first last gap gap' _ hg _, _, _, hm => by
      cases List.mem_singleton.mp hm
      exact ⟨(first, last), gap, gap', rfl, hg⟩
  | _, _, _, .group _ h _, _, _, hm => h.range_mem hm
  | _, _, _, .callNone _ _, _, _, hm => by cases List.mem_singleton.mp hm
  | _, _, _, .call _ h, _, _, hm => by
      rcases List.mem_cons.mp hm with hm | hm
      · cases hm
      · exact h.range_mem hm
  | _, _, _, .percent h _, _, _, hm => by
      rcases List.mem_cons.mp hm with hm | hm
      · cases hm
      · exact h.range_mem hm
  | _, _, _, .sign _ _ h, _, _, hm => by
      rcases List.mem_cons.mp hm with hm | hm
      · cases hm
      · exact h.range_mem hm
  | _, _, _, .binary _ h _ _ h', _, _, hm => by
      rcases List.mem_cons.mp hm with hm | hm
      · cases hm
      rcases List.mem_append.mp hm with hm | hm
      · exact h.range_mem hm
      · exact h'.range_mem hm

theorem SpellsArgumentsAs.range_mem : ∀ {args : List Expr} {cs : List Char},
    SpellsArgumentsAs style args cs → ∀ {first last : String},
    .range first last ∈ partsOfAll args → ∃ ends gap gap',
      endTexts ends = (first, last) ∧ style ends.1 ends.2 gap gap'
  | _, _, .single _ h _, _, _, hm => by
      rcases List.mem_append.mp hm with hm | hm
      · exact h.range_mem hm
      · cases hm
  | _, _, .more _ h _ h', _, _, hm => by
      rcases List.mem_append.mp hm with hm | hm
      · exact h.range_mem hm
      · exact h'.range_mem hm

end

/-! ## Whole formulas -/

theorem SearchesTokens.written {α : Type} {search : List Char → List α} (h : SearchesTokens search)
    {gap body : List Char} (hg : Gap gap) : search (['='] ++ gap ++ body) = search body := by
  rw [List.append_assoc, h.others (forall_mem_of_all (by decide)), h.gap_append hg]

variable {e : Expr} {text : String}

theorem mem_referencedCells (h : Written e (Text.trimBlanks text.toList)) {a : String} :
    a ∈ referencedCells text ↔ a ∈ e.names := by
  obtain ⟨gap, body, hg, hbody, heq⟩ := h
  have hcells : cellTextsIn text.toList = e.names := by
    rw [← searchesTokens_cellTextsIn.trimBlanks, heq, searchesTokens_cellTextsIn.written hg,
      hbody.names]
  rw [← hcells]
  exact List.mem_eraseDups

theorem rangeTextsIn_written {gap body : List Char} (hg : Gap gap)
    (heq : Text.trimBlanks text.toList = ['='] ++ gap ++ body) {r : String × String} :
    r ∈ referencedRanges text ↔ r ∈ rangeTextsIn body := by
  have hranges : rangeTextsIn text.toList = rangeTextsIn body := by
    rw [← searchesTokens_rangeTextsIn.trimBlanks, heq, searchesTokens_rangeTextsIn.written hg]
  rw [← hranges]
  exact List.mem_eraseDups

/-- The ranges that a formula names are those without blanks around their colon, and those in
strings. -/
theorem forall_referencedRanges_iff (h : Written e (Text.trimBlanks text.toList))
    (p : String × String → Prop) :
    (∀ r ∈ referencedRanges text, p r) ↔
      (∀ r ∈ e.quotedRanges, p r) ∧
        WrittenAs (RangeStyle.any.tight p) e (Text.trimBlanks text.toList) := by
  constructor
  · intro hp
    obtain ⟨gap, body, hg, hbody, heq⟩ := h
    have hp' : ∀ r ∈ rangeTextsIn body, p r :=
      fun r hr => hp r ((rangeTextsIn_written hg heq).mpr hr)
    have hbody' := hbody.tight (fun hs => hs) hp'
    exact ⟨hbody'.1, gap, body, hg, hbody'.2, heq⟩
  · rintro ⟨hquoted, gap, body, hg, hbody, heq⟩ r hr
    exact hbody.of_tight (fun hs => hs) hquoted r ((rangeTextsIn_written hg heq).mp hr)

/-- No other ranges are named in a formula than those of its expression and those in its strings. -/
theorem forall_referencedRanges (h : Written e (Text.trimBlanks text.toList))
    {p : String × String → Prop} (hquoted : ∀ r ∈ e.quotedRanges, p r)
    (hparts : ∀ first last, .range first last ∈ e.parts → p (first, last)) :
    ∀ r ∈ referencedRanges text, p r := by
  refine (forall_referencedRanges_iff h p).mpr ⟨hquoted, ?_⟩
  obtain ⟨gap, body, hg, hbody, heq⟩ := h
  refine ⟨gap, body, hg, ?_, heq⟩
  exact hbody.restyle (q := fun _ => True) (fun _ _ => trivial)
    fun first last _ _ hm _ _ hstyle => ⟨hstyle, fun _ _ => hparts _ _ hm⟩

/-- No blanks around the colon. -/
def RangeStyle.compact : RangeStyle :=
  fun _ _ gap gap' => gap = [] ∧ gap' = []

/-- A formula without any blanks has none around a colon. -/
theorem writtenAs_compact (h : Written e (Text.trimBlanks text.toList))
    (hnone : ∀ c ∈ text.toList, ¬ isGap c) :
    WrittenAs .compact e (Text.trimBlanks text.toList) := by
  obtain ⟨gap, body, hg, hbody, heq⟩ := h
  have hbody' : ∀ c ∈ body, ¬ isGap c := fun c hc => by
    have hmem : c ∈ Text.trimBlanks text.toList := heq ▸ List.mem_append_right _ hc
    have hsub : c ∈ text.toList.dropWhile Text.isBlank := by
      simpa using (List.dropWhile_sublist _).subset (List.mem_reverse.mp hmem)
    exact hnone c ((List.dropWhile_sublist _).subset hsub)
  have hempty : ∀ {gap : List Char}, (∀ c ∈ gap, ¬ isGap c) → Gap gap → gap = [] :=
    fun hnot hgap => List.eq_nil_iff_forall_not_mem.mpr fun c hc => hnot c hc (hgap c hc)
  exact ⟨gap, body, hg, hbody.restyle hbody' fun _ _ _ _ _ hnot hnot' hstyle =>
    ⟨hempty hnot hstyle.1, hempty hnot' hstyle.2⟩, heq⟩

/-- All ranges of a formula are named if none is written with blanks around its colon. -/
theorem referencedRanges_of_compact (h : WrittenAs .compact e (Text.trimBlanks text.toList))
    {first last : String} (hr : .range first last ∈ e.parts) :
    (first, last) ∈ referencedRanges text := by
  obtain ⟨gap, body, hg, hbody, heq⟩ := h
  have hblank : RangeStyle.compact.Blank := by
    rintro _ _ _ _ ⟨rfl, rfl⟩
    exact ⟨fun _ hc => absurd hc List.not_mem_nil, fun _ hc => absurd hc List.not_mem_nil⟩
  -- of the ranges that are named it holds that they are named
  have hbody' := (hbody.tight (p := (· ∈ rangeTextsIn body)) hblank fun r hr => hr).2
  obtain ⟨ends, gap₁, gap₂, hends, ⟨h₁, h₂⟩, hnamed⟩ := hbody'.range_mem hr
  rw [hends] at hnamed
  exact (rangeTextsIn_written hg heq).mpr (hnamed h₁ h₂)

end Worksheet.Formula
