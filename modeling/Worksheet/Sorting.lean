/-!
# Stable sorting

Sorting by insertion.  Elements that the order does not tell apart stay in the order in which they
stand.
-/

namespace Worksheet

/-- Puts an element in front of the first one that it may precede. -/
def insertSorted (le : α → α → Bool) (a : α) : List α → List α
  | [] => [a]
  | b :: bs => if le a b then a :: b :: bs else b :: insertSorted le a bs

/-- The elements in order. -/
def sortedBy (le : α → α → Bool) (l : List α) : List α :=
  l.foldr (insertSorted le) []

theorem insertSorted_perm (le : α → α → Bool) (a : α) (l : List α) :
    (insertSorted le a l).Perm (a :: l) := by
  induction l with
  | nil => exact List.Perm.refl _
  | cons b bs ih =>
      unfold insertSorted
      split
      · exact List.Perm.refl _
      · exact (ih.cons b).trans (List.Perm.swap a b bs)

theorem sortedBy_perm (le : α → α → Bool) (l : List α) : (sortedBy le l).Perm l := by
  induction l with
  | nil => exact List.Perm.refl _
  | cons a l ih => exact (insertSorted_perm le a _).trans (ih.cons a)

theorem insertSorted_pairwise {le : α → α → Bool} (trans : ∀ a b c, le a b → le b c → le a c)
    (total : ∀ a b, le a b || le b a) (a : α) {l : List α}
    (h : l.Pairwise fun b c => le b c) : (insertSorted le a l).Pairwise fun b c => le b c := by
  induction l with
  | nil => exact List.pairwise_singleton _ _
  | cons b bs ih =>
      obtain ⟨hb, hbs⟩ := List.pairwise_cons.mp h
      unfold insertSorted
      split
      · rename_i hab
        refine List.pairwise_cons.mpr ⟨fun c hc => ?_, h⟩
        rcases List.mem_cons.mp hc with rfl | hc
        · exact hab
        · exact trans a b c hab (hb c hc)
      · rename_i hab
        have hba : le b a := by simpa [hab] using total a b
        refine List.pairwise_cons.mpr ⟨fun c hc => ?_, ih hbs⟩
        rcases List.mem_cons.mp ((insertSorted_perm le a bs).mem_iff.mp hc) with rfl | hc
        · exact hba
        · exact hb c hc

theorem sortedBy_pairwise {le : α → α → Bool} (trans : ∀ a b c, le a b → le b c → le a c)
    (total : ∀ a b, le a b || le b a) (l : List α) :
    (sortedBy le l).Pairwise fun a b => le a b := by
  induction l with
  | nil => exact List.Pairwise.nil
  | cons a l ih => exact insertSorted_pairwise trans total a ih

end Worksheet
