import Worksheet.Proofs.Naming
import Worksheet.Proofs.Parsing

/-!
# Where a text names cells

A text names a cell at an offset if the cell's address stands there as a whole word that is not the
name of a function.  The cells that are found in a text are those that it names, each once, in the
order in which they are named first.  All cells of a formula are among them, the ends of its ranges
included.

The search goes through the pieces of the text, so what stands at an offset is first said of the
pieces: a word is a piece of its own because no word character comes right before or after it.
-/

namespace Worksheet.Formula

/-! ## Words in pieces and in texts -/

/-- What pieces a text is cut into: no word is empty or goes on in the piece after it. -/
def Cut : List Piece → Prop
  | [] => True
  | .word w :: ps =>
    w ≠ [] ∧ (∀ c ∈ w, Text.isWord c) ∧ (∀ p ∈ ps.head?, ∃ c, p = .other c) ∧ Cut ps
  | .other c :: ps => ¬ Text.isWord c ∧ Cut ps

namespace Piece

/-- The characters of a piece. -/
def chars : Piece → List Char
  | word cs => cs
  | other c => [c]

theorem flatMap_chars_push (c : Char) (ps : List Piece) :
    (push c ps).flatMap chars = c :: ps.flatMap chars := by
  unfold push
  split
  · split <;> rfl
  · split <;> rfl

/-- Nothing is lost when a text is cut. -/
theorem flatMap_chars_split (cs : List Char) : (split cs).flatMap chars = cs := by
  induction cs with
  | nil => rfl
  | cons c cs ih => rw [split, flatMap_chars_push, ih]

theorem cut_push {c : Char} {ps : List Piece} (h : Cut ps) : Cut (push c ps) := by
  by_cases hc : Text.isWord c
  · cases ps with
    | nil =>
        rw [push, if_pos hc]
        · exact ⟨List.cons_ne_nil _ _, by simpa using hc, nofun, trivial⟩
        · exact nofun
    | cons p ps =>
        cases p with
        | word w =>
            obtain ⟨_, hw, hnext, hps⟩ := h
            rw [push, if_pos hc]
            exact ⟨List.cons_ne_nil _ _, List.forall_mem_cons.mpr ⟨hc, hw⟩, hnext, hps⟩
        | other d =>
            rw [push, if_pos hc]
            · exact ⟨List.cons_ne_nil _ _, by simpa using hc, by simp, h⟩
            · exact nofun
  · rw [push_other hc]
    exact ⟨hc, h⟩

theorem cut_split (cs : List Char) : Cut (split cs) := by
  induction cs with
  | nil => trivial
  | cons c cs ih => exact cut_push ih

/-- A text is cut after a character that belongs to no word. -/
theorem split_append_of_last {front : List Char} (h : ∀ c ∈ front.getLast?, ¬ Text.isWord c)
    (cs : List Char) : split (front ++ cs) = split front ++ split cs := by
  rcases List.eq_nil_or_concat' front with rfl | ⟨front, c, rfl⟩
  · rfl
  · have hc : ¬ Text.isWord c := h c (by simp)
    have hstop (cs : List Char) : StopsRun Text.isWord ([c] ++ cs) := fun d hd =>
      Option.some.inj hd ▸ hc
    have hlast : split (front ++ [c]) = split front ++ split [c] := split_append (hstop []) front
    rw [List.append_assoc, split_append (hstop cs), hlast, List.append_assoc, List.singleton_append,
      split_cons_other hc, split_cons_other hc]
    rfl

end Piece

open Piece

theorem opensCall_iff {ps : List Piece} (h : Cut ps) :
    opensCall ps ↔ ((ps.flatMap chars).dropWhile Text.isBlank).head? = some '(' := by
  induction ps with
  | nil => exact iff_of_false Bool.false_ne_true nofun
  | cons p ps ih =>
      cases p with
      | word w =>
          obtain ⟨hne, hw, _⟩ := h
          obtain ⟨c, w, rfl⟩ := List.exists_cons_of_ne_nil hne
          have hc : Text.isWord c := hw c List.mem_cons_self
          refine iff_of_false Bool.false_ne_true fun heq => ?_
          -- a word starts with neither a blank nor a parenthesis
          rw [List.flatMap_cons, chars, List.cons_append,
            List.dropWhile_cons_of_neg fun hb => not_isWord_of_isBlank hb hc] at heq
          obtain rfl := Option.some.inj heq
          exact absurd hc (by decide)
      | other c =>
          rw [opensCall, List.flatMap_cons, chars, List.singleton_append]
          by_cases hb : Text.isBlank c
          · rw [if_pos hb, List.dropWhile_cons_of_pos hb]
            exact ih h.2
          · rw [if_neg hb, List.dropWhile_cons_of_neg hb, beq_iff_eq]
            exact Option.some_inj.symm

theorem cut_of_append {front back : List Piece} (h : Cut (front ++ back)) : Cut back := by
  induction front with
  | nil => exact h
  | cons p front ih =>
      cases p with
      | word w => exact ih h.2.2.2
      | other c => exact ih h.2

/-- No word character comes right before or after a word. -/
theorem sides_of_cut {front back : List Piece} {w : List Char}
    (h : Cut (front ++ .word w :: back)) :
    (∀ c ∈ (front.flatMap chars).getLast?, ¬ Text.isWord c) ∧ Cut back ∧
      ∀ c ∈ (back.flatMap chars).head?, ¬ Text.isWord c := by
  obtain ⟨_, _, hnext, hback⟩ := cut_of_append h
  refine ⟨?_, hback, ?_⟩
  · rcases List.eq_nil_or_concat' front with rfl | ⟨front, p, rfl⟩
    · exact nofun
    rw [List.append_assoc] at h
    cases p with
    | word v =>
        obtain ⟨_, _, hword, _⟩ := cut_of_append h
        obtain ⟨_, heq⟩ := hword _ rfl
        cases heq
    | other c =>
        have hc : ¬ Text.isWord c := (cut_of_append h).1
        simpa [chars] using hc
  · cases back with
    | nil => exact nofun
    | cons p back =>
        obtain ⟨c, rfl⟩ := hnext p rfl
        intro d hd
        obtain rfl := Option.some.inj hd
        exact hback.1

theorem isCell_of_isCellWord {w : List Char} (h : isCellWord w) : IsCell w := by
  unfold isCellWord at h
  simp only [Bool.and_eq_true, Bool.not_eq_true', List.isEmpty_eq_false_iff] at h
  obtain ⟨⟨hletters, hdigits⟩, hall⟩ := h
  exact ⟨_, _, List.takeWhile_append_dropWhile.symm, hletters,
    fun c hc => List.mem_takeWhile_imp hc, hdigits, List.all_eq_true.mp hall⟩

/-! ## The cells that are named at an offset -/

/-- The address of a cell stands at an offset of a text as a whole word that no parenthesis follows,
blanks aside. -/
def CellWordAt (cs : List Char) (offset : Nat) (w : List Char) : Prop :=
  ∃ front back, cs = front ++ (w ++ back) ∧ front.length = offset ∧ IsCell w ∧
    (∀ c ∈ front.getLast?, ¬ Text.isWord c) ∧ (∀ c ∈ back.head?, ¬ Text.isWord c) ∧
    (back.dropWhile Text.isBlank).head? ≠ some '('

/-- The cell words of some pieces that name no function, with the offsets at which they stand when
the first piece stands at a given one. -/
def cellWordsFrom (offset : Nat) : List Piece → List (Nat × List Char)
  | [] => []
  | .word w :: rest =>
    if isCellWord w && !opensCall rest then (offset, w) :: cellWordsFrom (offset + w.length) rest
    else cellWordsFrom (offset + w.length) rest
  | .other _ :: rest => cellWordsFrom (offset + 1) rest

theorem map_cellWordsFrom (ps : List Piece) :
    ∀ offset, (cellWordsFrom offset ps).map (·.2) = cellWords ps := by
  induction ps with
  | nil => exact fun _ => rfl
  | cons p ps ih =>
      intro offset
      cases p with
      | word w =>
          rw [cellWordsFrom, cellWords]
          split
          · rw [List.map_cons, ih]
          · exact ih _
      | other c => exact ih _

theorem mem_cellWordsFrom {n : Nat} {w : List Char} {ps : List Piece} :
    ∀ {offset}, (n, w) ∈ cellWordsFrom offset ps ↔
      ∃ front back, ps = front ++ .word w :: back ∧
        n = offset + (front.flatMap chars).length ∧ isCellWord w ∧ opensCall back = false := by
  induction ps with
  | nil => simp [cellWordsFrom]
  | cons p ps ih =>
      intro offset
      -- a word stands at the front, or at a place of the rest
      have hrest : (n, w) ∈ cellWordsFrom (offset + p.chars.length) ps ↔
          ∃ front back, ps = front ++ .word w :: back ∧
            n = offset + ((p :: front).flatMap chars).length ∧ isCellWord w ∧
              opensCall back = false := by
        rw [ih]
        simp only [List.flatMap_cons, List.length_append, Nat.add_assoc]
      have hsplit : (∃ front back, p :: ps = front ++ .word w :: back ∧
          n = offset + (front.flatMap chars).length ∧ isCellWord w ∧ opensCall back = false) ↔
          (p = .word w ∧ n = offset ∧ isCellWord w ∧ opensCall ps = false) ∨
            (n, w) ∈ cellWordsFrom (offset + p.chars.length) ps := by
        rw [hrest]
        constructor
        · rintro ⟨front, back, heq, hn, hw, hopens⟩
          rcases List.cons_eq_append_iff.mp heq with ⟨rfl, heq⟩ | ⟨front, rfl, rfl⟩
          · obtain ⟨rfl, rfl⟩ := List.cons.inj heq
            exact .inl ⟨rfl, hn, hw, hopens⟩
          · exact .inr ⟨front, back, rfl, hn, hw, hopens⟩
        · rintro (⟨rfl, rfl, hw, hopens⟩ | ⟨front, back, rfl, hn, hw, hopens⟩)
          · exact ⟨[], ps, rfl, rfl, hw, hopens⟩
          · exact ⟨p :: front, back, rfl, hn, hw, hopens⟩
      rw [hsplit]
      cases p with
      | other c => simp [cellWordsFrom, chars]
      | word v =>
          rw [cellWordsFrom]
          by_cases hv : isCellWord v && !opensCall ps
          · rw [if_pos hv, List.mem_cons, Prod.mk.injEq]
            refine or_congr_left ⟨?_, ?_⟩
            · rintro ⟨rfl, rfl⟩
              simpa using hv
            · rintro ⟨hp, rfl, _⟩
              exact ⟨rfl, (Piece.word.inj hp).symm⟩
          · rw [if_neg hv]
            refine ⟨.inr, fun h => h.resolve_left ?_⟩
            rintro ⟨hp, _, hw, hopens⟩
            obtain rfl := Piece.word.inj hp
            exact hv (by rw [hw, hopens]; rfl)

theorem pairwise_cellWordsFrom (ps : List Piece) (offset : Nat) :
    (cellWordsFrom offset ps).Pairwise fun x y => x.1 < y.1 := by
  induction ps generalizing offset with
  | nil => exact .nil
  | cons p ps ih =>
      cases p with
      | other c => exact ih _
      | word w =>
          rw [cellWordsFrom]
          split
          · next h =>
              have hw : isCellWord w := (Bool.and_eq_true_iff.mp h).1
              obtain ⟨c, rest, rfl, _⟩ := (isCell_of_isCellWord hw).head
              refine List.pairwise_cons.mpr ⟨fun ⟨n, v⟩ hm => ?_, ih _⟩
              obtain ⟨_, _, _, hn, _⟩ := mem_cellWordsFrom.mp hm
              show offset < n
              rw [hn, List.length_cons]
              omega
          · exact ih _

/-- The words that are found are those at which a cell is named. -/
theorem mem_cellWordsFrom_split {cs w : List Char} {n : Nat} :
    (n, w) ∈ cellWordsFrom 0 (split cs) ↔ CellWordAt cs n w := by
  rw [mem_cellWordsFrom]
  constructor
  · rintro ⟨front, back, hsplit, hn, hw, hopens⟩
    have hcut : Cut (front ++ .word w :: back) := hsplit ▸ cut_split cs
    have htext := flatMap_chars_split cs
    rw [hsplit, List.flatMap_append, List.flatMap_cons] at htext
    obtain ⟨hfront, hback, hnext⟩ := sides_of_cut hcut
    refine ⟨_, _, htext.symm, by rw [hn, Nat.zero_add], isCell_of_isCellWord hw, hfront, hnext, ?_⟩
    rw [Ne, ← opensCall_iff hback, hopens]
    exact Bool.false_ne_true
  · rintro ⟨front, back, rfl, hn, hw, hfront, hnext, hopens⟩
    have hback : StopsRun Text.isWord back := hnext
    refine ⟨split front, split back, ?_, ?_, hw.isCellWord, ?_⟩
    · rw [split_append_of_last hfront, split_append hback, hw.split]
      rfl
    · rw [flatMap_chars_split, hn, Nat.zero_add]
    · refine Bool.eq_false_iff.mpr fun hcall => hopens ?_
      rw [← flatMap_chars_split back]
      exact (opensCall_iff (cut_split back)).mp hcall

/-! ## The cells of a text -/

/-- The values of a list without repetition come in the order in which they come first. -/
theorem pairwise_eraseDups {α : Type} [BEq α] [LawfulBEq α] {l : List (Nat × α)}
    (h : l.Pairwise fun x y => x.1 < y.1) :
    ((l.map (·.2)).eraseDups).Pairwise fun a b =>
      ∃ i, (i, a) ∈ l ∧ ∀ j, (j, b) ∈ l → i < j := by
  induction l using List.reverseRecOn with
  | nil => exact .nil
  | append_singleton l last ih =>
      obtain ⟨n, b⟩ := last
      obtain ⟨hl, _, hlast⟩ := List.pairwise_append.mp h
      have hbelow : ∀ i a, (i, a) ∈ l → i < n := fun i a hm => hlast _ hm _ List.mem_cons_self
      -- what comes last is after everything else
      have hold : ((l.map (·.2)).eraseDups).Pairwise fun a c =>
          ∃ i, (i, a) ∈ l ++ [(n, b)] ∧ ∀ j, (j, c) ∈ l ++ [(n, b)] → i < j := by
        refine (ih hl).imp ?_
        rintro a c ⟨i, hi, hbefore⟩
        refine ⟨i, List.mem_append_left _ hi, fun j hj => ?_⟩
        rcases List.mem_append.mp hj with hj | hj
        · exact hbefore j hj
        · obtain ⟨rfl, rfl⟩ := Prod.mk.inj (List.mem_singleton.mp hj)
          exact hbelow i a hi
      rw [List.map_append, List.map_singleton, List.eraseDups_append]
      by_cases hb : b ∈ l.map (·.2)
      · have hnone : [b].removeAll (l.map (·.2)) = [] := by simpa [List.removeAll] using hb
        rw [hnone, List.eraseDups_nil, List.append_nil]
        exact hold
      · have hnew : [b].removeAll (l.map (·.2)) = [b] := by simpa [List.removeAll] using hb
        rw [hnew]
        refine List.pairwise_append.mpr ⟨hold, List.pairwise_singleton _ _, fun a ha c hc => ?_⟩
        obtain rfl : c = b := by simpa using hc
        obtain ⟨⟨i, _⟩, hi, rfl⟩ := List.mem_map.mp (List.mem_eraseDups.mp ha)
        refine ⟨i, List.mem_append_left _ hi, fun j hj => ?_⟩
        rcases List.mem_append.mp hj with hj | hj
        · exact absurd (List.mem_map_of_mem hj) hb
        · obtain ⟨rfl, _⟩ := Prod.mk.inj (List.mem_singleton.mp hj)
          exact hbelow i _ hi

/-- A text names a cell at an offset. -/
def NamesAt (text a : String) (offset : Nat) : Prop :=
  CellWordAt text.toList offset a.toList

/-- The cells in an expression, the ends of its ranges included, apart from those in the expressions
within it. -/
def Expr.ownCells : Expr → List String
  | .cell address => [address]
  | .range first last => [first, last]
  | _ => []

/-- The cells in an expression, the ends of its ranges included, in the order in which they are
written. -/
def Expr.cells (e : Expr) : List String :=
  e.parts.flatMap Expr.ownCells

theorem Expr.cells_subset_names (e : Expr) : e.cells ⊆ e.names := by
  intro a ha
  obtain ⟨part, hpart, ha⟩ := List.mem_flatMap.mp ha
  refine List.mem_flatMap.mpr ⟨part, hpart, ?_⟩
  cases part with
  | cell address => exact ha
  | range first last => exact ha
  | _ => exact absurd ha List.not_mem_nil

/-- The cells that a text names, with the offsets at which it does. -/
def namedCells (text : String) : List (Nat × String) :=
  (cellWordsFrom 0 (split text.toList)).map fun (n, w) => (n, String.ofList w)

theorem mem_namedCells {text a : String} {n : Nat} :
    (n, a) ∈ namedCells text ↔ NamesAt text a n := by
  rw [namedCells, NamesAt, ← mem_cellWordsFrom_split]
  constructor
  · intro h
    obtain ⟨⟨_, w⟩, hm, heq⟩ := List.mem_map.mp h
    obtain ⟨rfl, rfl⟩ := Prod.mk.inj heq
    rwa [String.toList_ofList]
  · intro h
    exact List.mem_map.mpr ⟨_, h, congrArg (n, ·) String.ofList_toList⟩

theorem referencedCells_eq (text : String) :
    referencedCells text = ((namedCells text).map (·.2)).eraseDups := by
  rw [referencedCells, namedCells, ← map_cellWordsFrom _ 0, List.map_map, List.map_map]
  rfl

theorem pairwise_namedCells (text : String) : (namedCells text).Pairwise fun x y => x.1 < y.1 :=
  List.pairwise_map.mpr (pairwise_cellWordsFrom _ 0)

/-- **The cells that are found in a text are those that it names, each once, in the order in which it
names them first.**  If the text is a formula, all of its cells are among them. -/
theorem referencedCells_complete (text : String) :
    (referencedCells text).Nodup ∧
      (∀ e, parse text = .ok e → ∀ a ∈ e.cells, a ∈ referencedCells text) ∧
      (∀ a, a ∈ referencedCells text ↔ ∃ offset, NamesAt text a offset) ∧
      (referencedCells text).Pairwise fun a b =>
        ∃ i, NamesAt text a i ∧ ∀ j, NamesAt text b j → i < j := by
  have horder : (referencedCells text).Pairwise fun a b =>
      ∃ i, NamesAt text a i ∧ ∀ j, NamesAt text b j → i < j := by
    have hpairs := pairwise_eraseDups (pairwise_namedCells text)
    simp only [mem_namedCells] at hpairs
    rwa [referencedCells_eq]
  refine ⟨horder.imp ?_, fun e he a ha => ?_, fun a => ?_, horder⟩
  · rintro a _ ⟨i, hi, hbefore⟩ rfl
    exact absurd (hbefore i hi) (Nat.lt_irrefl i)
  · exact (mem_referencedCells (written_of_parse he)).mpr (e.cells_subset_names ha)
  · rw [referencedCells_eq, List.mem_eraseDups]
    simp [mem_namedCells]

/-- The name of a function that looks like a cell, and a cell that is named three times. -/
theorem referencedCells_logarithm :
    parse "=LOG10(B2)+SUM( A1 :B2)*B2" = .ok (.binary .add (.call "LOG10(" [.cell "B2"])
      (.binary .mul (.call "SUM(" [.range "A1" "B2"]) (.cell "B2"))) ∧
    referencedCells "=LOG10(B2)+SUM( A1 :B2)*B2" = ["B2", "A1"] ∧
    "A1" ∈ referencedCells "=LOG10(B2)+SUM( A1 :B2)*B2" := by
  have hparse : parse "=LOG10(B2)+SUM( A1 :B2)*B2" = .ok (.binary .add (.call "LOG10(" [.cell "B2"])
      (.binary .mul (.call "SUM(" [.range "A1" "B2"]) (.cell "B2"))) := by cbv
  exact ⟨hparse, by cbv, (referencedCells_complete _).2.1 _ hparse "A1" (by decide)⟩

end Worksheet.Formula
