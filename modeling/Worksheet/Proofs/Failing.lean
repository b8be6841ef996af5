import Mathlib

/-!
# Computations that can fail

A computation gives a value or a failure, and a failure in a part of it is a failure of the whole.
So a whole that has given a value can be taken apart, and a whole gives a value if each of its parts
does.
-/

namespace Worksheet

variable {ε α β : Type}

theorem exists_of_bind {x : Except ε α} {f : α → Except ε β} {b : β}
    (h : (x >>= f) = .ok b) : ∃ a, x = .ok a ∧ f a = .ok b := by
  cases x with
  | error failure => cases h
  | ok a => exact ⟨a, rfl, h⟩

theorem ok_bind {x : Except ε α} {f : α → Except ε β} (hx : ∃ a, x = .ok a)
    (hf : ∀ a, x = .ok a → ∃ b, f a = .ok b) : ∃ b, (x >>= f) = .ok b := by
  obtain ⟨a, rfl⟩ := hx
  exact hf a rfl

theorem bind_of_ok {x : Except ε α} {a : α} (hx : x = .ok a) (f : α → Except ε β) :
    (x >>= f) = f a := by
  rw [hx]
  rfl

/-! ## Lists -/

theorem mapM_ok {f : α → Except ε β} {l : List α} (h : ∀ a ∈ l, ∃ b, f a = .ok b) :
    ∃ bs, l.mapM f = .ok bs := by
  induction l with
  | nil => exact ⟨[], rfl⟩
  | cons a l ih =>
      rw [List.mapM_cons]
      refine ok_bind (h a List.mem_cons_self) fun b _ => ok_bind ?_ fun bs _ => ⟨b :: bs, rfl⟩
      exact ih fun c hc => h c (List.mem_cons_of_mem _ hc)

theorem mem_mapM {f : α → Except ε β} {l : List α} {bs : List β} (h : l.mapM f = .ok bs) (b : β) :
    b ∈ bs ↔ ∃ a ∈ l, f a = .ok b := by
  induction l generalizing bs with
  | nil =>
      obtain rfl := Except.ok.inj h
      simp
  | cons a l ih =>
      rw [List.mapM_cons] at h
      obtain ⟨c, hc, h⟩ := exists_of_bind h
      obtain ⟨cs, hcs, h⟩ := exists_of_bind h
      obtain rfl := Except.ok.inj h
      rw [List.mem_cons, ih hcs, List.exists_mem_cons_iff, hc, Except.ok.injEq, eq_comm]

theorem mapM_congr {f g : α → Except ε β} {l : List α} (h : ∀ a ∈ l, f a = g a) :
    l.mapM f = l.mapM g := by
  induction l with
  | nil => rfl
  | cons a l ih =>
      rw [List.mapM_cons, List.mapM_cons, h a List.mem_cons_self]
      exact congrArg _ (funext fun b => by rw [ih fun c hc => h c (List.mem_cons_of_mem a hc)])

theorem foldlM_ok {f : β → α → Except ε β} {l : List α}
    (h : ∀ a ∈ l, ∀ b, ∃ b', f b a = .ok b') : ∀ b, ∃ b', l.foldlM f b = .ok b' := by
  induction l with
  | nil => exact fun b => ⟨b, rfl⟩
  | cons a l ih =>
      intro b
      rw [List.foldlM_cons]
      refine ok_bind (h a List.mem_cons_self b) fun b' _ => ?_
      exact ih (fun c hc => h c (List.mem_cons_of_mem _ hc)) b'

/-- A list to which each step of a fold adds what it is said to. -/
theorem mem_foldlM {f : List β → α → Except ε (List β)} {P : α → β → Prop} {l : List α}
    (hstep : ∀ a ∈ l, ∀ bs bs', f bs a = .ok bs' → ∀ b, b ∈ bs' ↔ b ∈ bs ∨ P a b) :
    ∀ {bs bs'}, l.foldlM f bs = .ok bs' → ∀ b, b ∈ bs' ↔ b ∈ bs ∨ ∃ a ∈ l, P a b := by
  induction l with
  | nil =>
      intro bs bs' h b
      rw [← Except.ok.inj h]
      simp
  | cons a l ih =>
      intro bs bs' h b
      rw [List.foldlM_cons] at h
      obtain ⟨cs, hcs, h⟩ := exists_of_bind h
      rw [ih (fun x hx => hstep x (List.mem_cons_of_mem a hx)) h b,
        hstep a List.mem_cons_self bs cs hcs b, List.exists_mem_cons_iff, or_assoc]

/-- A fold none of whose steps changes anything. -/
theorem foldlM_eq_self {f : β → α → Except ε β} {l : List α} {b : β}
    (h : ∀ a ∈ l, f b a = .ok b) : l.foldlM f b = .ok b := by
  induction l with
  | nil => rfl
  | cons a l ih =>
      rw [List.foldlM_cons, h a List.mem_cons_self]
      exact ih fun x hx => h x (List.mem_cons_of_mem a hx)

theorem foldlM_congr {f g : β → α → Except ε β} {l : List α}
    (h : ∀ a ∈ l, ∀ b, f b a = g b a) : ∀ b, l.foldlM f b = l.foldlM g b := by
  induction l with
  | nil => exact fun b => rfl
  | cons a l ih =>
      intro b
      rw [List.foldlM_cons, List.foldlM_cons, h a List.mem_cons_self]
      exact congrArg _ (funext (ih fun x hx => h x (List.mem_cons_of_mem a hx)))

/-- A step that changes nothing can be left out of a fold. -/
theorem foldlM_filter_ne [DecidableEq α] {f : β → α → Except ε β} {a : α}
    (ha : ∀ b, f b a = .ok b) (l : List α) :
    ∀ b, l.foldlM f b = (l.filter (· ≠ a)).foldlM f b := by
  induction l with
  | nil => exact fun b => rfl
  | cons c l ih =>
      intro b
      by_cases hc : c = a
      · rw [List.filter_cons_of_neg (by simpa using hc), List.foldlM_cons, hc, ha]
        exact ih b
      · rw [List.filter_cons_of_pos (by simpa using hc), List.foldlM_cons, List.foldlM_cons]
        exact congrArg _ (funext ih)

/-! ## Lists of which some elements come to nothing -/

section

variable {f : α → Except ε (Option β)}

theorem filterMap_mapM_cons (a : α) (l : List α) :
    List.filterMap id <$> (a :: l).mapM f =
      f a >>= fun b => (b.toList ++ ·) <$> (List.filterMap id <$> l.mapM f) := by
  rw [List.mapM_cons]
  cases f a with
  | error cause => rfl
  | ok b =>
      cases l.mapM f with
      | error cause => rfl
      | ok bs => cases b <;> rfl

/-- What comes to nothing can be left out. -/
theorem filterMap_mapM_filter {p : α → Bool} {l : List α}
    (h : ∀ a ∈ l, p a = false → f a = .ok none) :
    List.filterMap id <$> (l.filter p).mapM f = List.filterMap id <$> l.mapM f := by
  induction l with
  | nil => rfl
  | cons a l ih =>
      have hrest := ih fun b hb => h b (List.mem_cons_of_mem a hb)
      rw [filterMap_mapM_cons, ← hrest]
      cases hp : p a with
      | true => rw [List.filter_cons_of_pos hp, filterMap_mapM_cons]
      | false =>
          rw [List.filter_cons_of_neg (by simp [hp]), h a List.mem_cons_self hp]
          exact (id_map _).symm

theorem filterMap_mapM_ok {g : α → Option β} (l : List α) :
    (List.filterMap id <$> l.mapM fun a => (.ok (g a) : Except ε (Option β))) =
      .ok (l.filterMap g) := by
  induction l with
  | nil => rfl
  | cons a l ih =>
      rw [filterMap_mapM_cons, ih, List.filterMap_cons]
      cases g a <;> rfl

end

/-! ## Lists that are tested one by one -/

theorem mem_filterAuxM {p : α → Except ε Bool} {l front found : List α}
    (h : l.filterAuxM p front = .ok found) (a : α) :
    a ∈ found ↔ a ∈ front ∨ a ∈ l ∧ p a = .ok true := by
  induction l generalizing front with
  | nil =>
      obtain rfl := Except.ok.inj h
      simp
  | cons b l ih =>
      rw [List.filterAuxM] at h
      obtain ⟨holds, hb, h⟩ := exists_of_bind h
      rw [ih h]
      cases holds with
      | true =>
          rw [cond_true, List.mem_cons, List.mem_cons]
          constructor
          · rintro ((rfl | hf) | ⟨hl, ha⟩)
            · exact .inr ⟨.inl rfl, hb⟩
            · exact .inl hf
            · exact .inr ⟨.inr hl, ha⟩
          · rintro (hf | ⟨rfl | hl, ha⟩)
            · exact .inl (.inr hf)
            · exact .inl (.inl rfl)
            · exact .inr ⟨hl, ha⟩
      | false =>
          rw [cond_false, List.mem_cons]
          constructor
          · rintro (hf | ⟨hl, ha⟩)
            · exact .inl hf
            · exact .inr ⟨.inr hl, ha⟩
          · rintro (hf | ⟨rfl | hl, ha⟩)
            · exact .inl hf
            · rw [hb] at ha
              cases ha
            · exact .inr ⟨hl, ha⟩

theorem mem_filterM {p : α → Except ε Bool} {l found : List α} (h : l.filterM p = .ok found)
    (a : α) : a ∈ found ↔ a ∈ l ∧ p a = .ok true := by
  unfold List.filterM at h
  obtain ⟨reversed, hr, h⟩ := exists_of_bind h
  obtain rfl := Except.ok.inj h
  rw [List.mem_reverse, mem_filterAuxM hr]
  simp

theorem sublist_of_filterAuxM {p : α → Except ε Bool} {l front found : List α}
    (h : l.filterAuxM p front = .ok found) : (found.reverse).Sublist (front.reverse ++ l) := by
  induction l generalizing front with
  | nil =>
      obtain rfl := Except.ok.inj h
      exact List.append_nil _ ▸ .refl _
  | cons b l ih =>
      rw [List.filterAuxM] at h
      obtain ⟨holds, _, h⟩ := exists_of_bind h
      refine (ih h).trans ?_
      cases holds with
      | true => simp
      | false => exact (List.sublist_cons_self b l).append_left _

theorem sublist_of_filterM {p : α → Except ε Bool} {l found : List α}
    (h : l.filterM p = .ok found) : found.Sublist l := by
  unfold List.filterM at h
  obtain ⟨reversed, hr, h⟩ := exists_of_bind h
  obtain rfl := Except.ok.inj h
  exact sublist_of_filterAuxM hr

theorem ok_of_filterAuxM {p : α → Except ε Bool} {l front found : List α}
    (h : l.filterAuxM p front = .ok found) : ∀ a ∈ l, ∃ b, p a = .ok b := by
  induction l generalizing front with
  | nil => exact fun _ ha => absurd ha List.not_mem_nil
  | cons b l ih =>
      rw [List.filterAuxM] at h
      obtain ⟨holds, hb, h⟩ := exists_of_bind h
      intro a ha
      rcases List.mem_cons.mp ha with rfl | ha
      · exact ⟨holds, hb⟩
      · exact ih h a ha

theorem filterM_ok {p : α → Except ε Bool} {l : List α} (h : ∀ a ∈ l, ∃ b, p a = .ok b) :
    ∃ found, l.filterM p = .ok found := by
  have haux : ∀ front, ∃ found, l.filterAuxM p front = .ok found := by
    induction l with
    | nil => exact fun front => ⟨front, rfl⟩
    | cons a l ih =>
        intro front
        rw [List.filterAuxM]
        refine ok_bind (h a List.mem_cons_self) fun b _ => ?_
        exact ih (fun c hc => h c (List.mem_cons_of_mem _ hc)) _
  unfold List.filterM
  exact ok_bind (haux []) fun found _ => ⟨found.reverse, rfl⟩

end Worksheet
