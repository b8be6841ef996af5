import Worksheet.Proofs.Addresses
import Worksheet.Rectangle

/-!
# What a rectangle covers

The populated cells of a rectangle are found in one of two ways, depending on how many cells the
sheet has.  Walking the rectangle also finds addresses that hold nothing.  But for those, both ways
find the same addresses, the ones that the rectangle covers, in the same order.
-/

namespace Worksheet

/-- Whether two texts are the corners of a rectangle that contains the cell at an address. -/
def Covers (corners : String × String) (address : String) : Prop :=
  ∃ r position, Rectangle.ofTexts corners.1 corners.2 = .ok r ∧
    Address.decode address = .ok (some position) ∧ r.contains position

namespace Address

/-- Whether a position comes before another, rows first. -/
def Precedes (a b : Address) : Prop :=
  a.row < b.row ∨ a.row = b.row ∧ a.col < b.col

/-- Whether two texts are addresses, and the position of the first comes before that of the
second. -/
def TextPrecedes (s t : String) : Prop :=
  ∃ a b, decode s = .ok (some a) ∧ decode t = .ok (some b) ∧ a.Precedes b

theorem TextPrecedes.asymm {s t : String} (h : TextPrecedes s t) : ¬ TextPrecedes t s := by
  rintro ⟨b, a, ht, hs, hba⟩
  obtain ⟨a', b', hs', ht', hab⟩ := h
  rw [hs] at hs'
  rw [ht] at ht'
  obtain rfl := Option.some.inj (Except.ok.inj hs')
  obtain rfl := Option.some.inj (Except.ok.inj ht')
  unfold Precedes at hab hba
  omega

theorem nodup_of_pairwise_textPrecedes {l : List String} (h : l.Pairwise TextPrecedes) : l.Nodup :=
  h.imp fun hst he => (he ▸ hst).asymm (he ▸ hst)

/-- A list in row-major order is known by what is in it. -/
theorem eq_of_pairwise_textPrecedes {l l' : List String} (h : l.Pairwise TextPrecedes)
    (h' : l'.Pairwise TextPrecedes) (hmem : ∀ s, s ∈ l ↔ s ∈ l') : l = l' :=
  List.Perm.eq_of_pairwise (fun _ _ _ _ hst hts => absurd hts hst.asymm) h h'
    ((List.perm_ext_iff_of_nodup (nodup_of_pairwise_textPrecedes h)
      (nodup_of_pairwise_textPrecedes h')).mpr hmem)

/-- Addresses that are sorted without repetition are sorted strictly. -/
theorem pairwise_textPrecedes_of_sortRowMajor {l sorted : List String}
    (h : sortRowMajor l = .ok sorted) (hd : l.Nodup)
    (hl : ∀ s ∈ l, WellFormed s) : sorted.Pairwise TextPrecedes := by
  have hperm := perm_of_sortRowMajor h
  refine ((pairwise_sortRowMajor h).and (hperm.nodup_iff.mpr hd)).imp_of_mem ?_
  rintro s t hs ht ⟨⟨a', b', ha', hb', hle⟩, hne⟩
  obtain ⟨a, ha⟩ := hl s (hperm.mem_iff.mp hs)
  obtain ⟨b, hb⟩ := hl t (hperm.mem_iff.mp ht)
  obtain rfl := Except.ok.inj (ha.symm.trans ha')
  obtain rfl := Except.ok.inj (hb.symm.trans hb')
  refine ⟨a, b, ha, hb, ?_⟩
  by_contra hnot
  refine hne (decode_injective ha ?_)
  rw [hb, eq_of_rowMajorLE hle (rowMajorLE_some.mpr ?_)]
  rw [rowMajorLE_some] at hle
  unfold Precedes at hnot
  omega

end Address

namespace Rectangle

open Address

variable {r : Rectangle} {first last : String} {keys found : List String}

/-! ## Corners -/

theorem contains_iff {a : Address} : r.contains a ↔
    r.top ≤ a.row ∧ a.row ≤ r.bottom ∧ r.left ≤ a.col ∧ a.col ≤ r.right := by
  simp only [contains, Bool.and_eq_true, decide_eq_true_eq, and_assoc]

theorem exists_of_ofTexts (h : ofTexts first last = .ok r) :
    ∃ a b, decode first = .ok (some a) ∧ decode last = .ok (some b) ∧ r = ofCorners a b := by
  obtain ⟨a, ha, h⟩ := exists_of_bind h
  obtain ⟨b, hb, h⟩ := exists_of_bind h
  cases a with
  | none => cases h
  | some a =>
      cases b with
      | none => cases h
      | some b => exact ⟨a, b, ha, hb, (Except.ok.inj h).symm⟩

theorem ofTexts_iff : ofTexts? first last = .ok (some r) ↔ ofTexts first last = .ok r := by
  unfold ofTexts? ofTexts
  cases decode first with
  | error failure => exact ⟨nofun, nofun⟩
  | ok a =>
      cases decode last with
      | error failure => exact ⟨nofun, nofun⟩
      | ok b =>
          cases a with
          | none => exact ⟨nofun, nofun⟩
          | some a =>
              cases b with
              | none => exact ⟨nofun, nofun⟩
              | some b =>
                  constructor
                  · intro h
                    exact congrArg Except.ok (Option.some.inj (Except.ok.inj h))
                  · intro h
                    exact congrArg (fun r => Except.ok (some r)) (Except.ok.inj h)

theorem covers_of_contains {a : Address} {s : String} (hr : ofTexts first last = .ok r)
    (hs : decode s = .ok (some a)) (hin : r.contains a) : Covers (first, last) s :=
  ⟨r, a, hr, hs, hin⟩

theorem contains_of_covers {s : String} (hr : ofTexts first last = .ok r)
    (h : Covers (first, last) s) : ∃ a, decode s = .ok (some a) ∧ r.contains a := by
  obtain ⟨r', a, hr', hs, hin⟩ := h
  obtain rfl := Except.ok.inj (hr.symm.trans hr')
  exact ⟨a, hs, hin⟩

/-- A range of one cell covers that cell. -/
theorem covers_self {s : String} (hr : ofTexts s s = .ok r) : Covers (s, s) s := by
  obtain ⟨a, b, ha, hb, he⟩ := exists_of_ofTexts hr
  obtain rfl := Option.some.inj (Except.ok.inj (ha.symm.trans hb))
  refine covers_of_contains hr ha ?_
  rw [he, contains_iff]
  simp only [ofCorners, Nat.min_self, Nat.max_self]
  omega

/-- A range of one cell covers no other one. -/
theorem eq_of_covers_self {s t : String} (h : Covers (s, s) t) : t = s := by
  obtain ⟨r, b, hr, ht, hin⟩ := h
  obtain ⟨a, a', hs, hs', rfl⟩ := exists_of_ofTexts hr
  obtain rfl := Option.some.inj (Except.ok.inj (hs.symm.trans hs'))
  rw [contains_iff] at hin
  simp only [ofCorners, Nat.min_self, Nat.max_self] at hin
  have hb : b = a := eq_of_rowMajorLE (rowMajorLE_some.mpr (by omega))
    (rowMajorLE_some.mpr (by omega))
  exact decode_injective (hb ▸ ht) hs

/-! ## Walking the rectangle -/

theorem mem_positions {a : Address} : a ∈ r.positions ↔ r.contains a := by
  have htop := r.top_le_bottom
  have hleft := r.left_le_right
  rw [contains_iff]
  unfold positions
  simp only [List.mem_flatMap, List.mem_map, List.mem_range'_1]
  constructor
  · rintro ⟨row, hrow, col, hcol, rfl⟩
    dsimp only
    omega
  · intro h
    exact ⟨a.row, by omega, a.col, by omega, rfl⟩

theorem pairwise_positions : r.positions.Pairwise Precedes := by
  unfold positions
  rw [List.pairwise_flatMap]
  constructor
  · intro row _
    rw [List.pairwise_map]
    exact (List.pairwise_lt_range' 1).imp fun hcol => .inr ⟨rfl, hcol⟩
  · refine (List.pairwise_lt_range' 1).imp fun hrow a ha b hb => ?_
    obtain ⟨_, _, rfl⟩ := List.mem_map.mp ha
    obtain ⟨_, _, rfl⟩ := List.mem_map.mp hb
    exact .inl hrow

/-- The addresses in a rectangle between two texts can be read, since its corners have been. -/
theorem decode_text_of_contains (hr : ofTexts first last = .ok r) {a : Address}
    (hin : r.contains a) : decode a.text = .ok (some a) := by
  obtain ⟨corner, corner', hfirst, hlast, rfl⟩ := exists_of_ofTexts hr
  rw [contains_iff] at hin
  refine decode_text ?_
  rcases Nat.le_total corner.row corner'.row with hle | hle
  · refine Nat.le_trans (length_digitChars_mono ?_) (length_digitChars_of_decode hlast)
    simp only [ofCorners] at hin
    omega
  · refine Nat.le_trans (length_digitChars_mono ?_) (length_digitChars_of_decode hfirst)
    simp only [ofCorners] at hin
    omega

theorem pairwise_addresses (hr : ofTexts first last = .ok r) :
    r.addresses.Pairwise TextPrecedes := by
  unfold addresses
  rw [List.pairwise_map]
  refine pairwise_positions.imp_of_mem fun {a b} ha hb hab => ?_
  exact ⟨a, b, decode_text_of_contains hr (mem_positions.mp ha),
    decode_text_of_contains hr (mem_positions.mp hb), hab⟩

/-! ## Going through the keys -/

theorem mem_hits (hf : r.hits keys = .ok found) {s : String} :
    s ∈ found ↔ s ∈ keys ∧ ∃ a, decode s = .ok (some a) ∧ r.contains a := by
  unfold hits at hf
  obtain ⟨unsorted, hu, hf⟩ := exists_of_bind hf
  rw [(perm_of_sortRowMajor hf).mem_iff, mem_filterM hu]
  refine and_congr_right fun _ => ⟨fun h => ?_, ?_⟩
  · obtain ⟨a, ha, h⟩ := exists_of_bind h
    cases a with
    | none => cases h
    | some a => exact ⟨a, ha, Except.ok.inj h⟩
  · rintro ⟨a, ha, hin⟩
    unfold containsText
    rw [ha]
    exact congrArg Except.ok hin

theorem pairwise_hits (hd : keys.Nodup) (hf : r.hits keys = .ok found) :
    found.Pairwise TextPrecedes := by
  have hmem := fun s => mem_hits hf (s := s)
  unfold hits at hf
  obtain ⟨unsorted, hu, hf⟩ := exists_of_bind hf
  refine pairwise_textPrecedes_of_sortRowMajor hf ((sublist_of_filterM hu).nodup hd) fun s hs => ?_
  obtain ⟨_, a, ha, _⟩ := (hmem s).mp ((perm_of_sortRowMajor hf).mem_iff.mpr hs)
  exact ⟨a, ha⟩

/-! ## The populated cells -/

theorem populated_ok (h : ∀ k ∈ keys, RowReadable k) : ∃ found, r.populated keys = .ok found := by
  unfold populated
  split
  · exact ⟨_, rfl⟩
  · refine ok_bind (filterM_ok fun k hk => ?_) fun found hf => sortRowMajor_ok fun k hk => ?_
    · exact ok_bind (decode_ok (h k hk)) fun a _ => by cases a <;> exact ⟨_, rfl⟩
    · exact h k ((mem_filterM hf k).mp hk).1

/-- What is found is covered. -/
theorem covers_of_mem_populated (hr : ofTexts first last = .ok r)
    (hf : r.populated keys = .ok found) {s : String} (hs : s ∈ found) : Covers (first, last) s := by
  unfold populated at hf
  split at hf
  · obtain rfl := Except.ok.inj hf
    obtain ⟨a, ha, rfl⟩ := List.mem_map.mp hs
    have hin := mem_positions.mp ha
    exact covers_of_contains hr (decode_text_of_contains hr hin) hin
  · obtain ⟨_, a, ha, hin⟩ := (mem_hits hf).mp hs
    exact covers_of_contains hr ha hin

/-- What is covered is found, if it is populated. -/
theorem mem_populated_of_covers (hr : ofTexts first last = .ok r)
    (hf : r.populated keys = .ok found) {s : String} (hs : Covers (first, last) s)
    (hk : s ∈ keys) : s ∈ found := by
  obtain ⟨a, ha, hin⟩ := contains_of_covers hr hs
  unfold populated at hf
  split at hf
  · obtain rfl := Except.ok.inj hf
    exact List.mem_map.mpr ⟨a, mem_positions.mpr hin, text_of_decode ha⟩
  · exact (mem_hits hf).mpr ⟨hk, a, ha, hin⟩

theorem pairwise_populated (hr : ofTexts first last = .ok r) (hd : keys.Nodup)
    (hf : r.populated keys = .ok found) : found.Pairwise TextPrecedes := by
  unfold populated at hf
  split at hf
  · obtain rfl := Except.ok.inj hf
    exact pairwise_addresses hr
  · exact pairwise_hits hd hf

/-- Of the cells of a rectangle, those are found that are among the keys. -/
theorem filter_populated_eq {p : String → Bool} (hr : ofTexts first last = .ok r)
    (hd : keys.Nodup) (hf : r.populated keys = .ok found)
    (hp : ∀ s, Covers (first, last) s → p s → s ∈ keys) :
    found.filter p = r.addresses.filter p := by
  refine eq_of_pairwise_textPrecedes ((pairwise_populated hr hd hf).filter _)
    ((pairwise_addresses hr).filter _) fun s => ?_
  simp only [List.mem_filter]
  refine and_congr_left fun hs => ⟨fun hfound => ?_, fun hin => ?_⟩
  · obtain ⟨a, ha, hin⟩ := contains_of_covers hr (covers_of_mem_populated hr hf hfound)
    exact List.mem_map.mpr ⟨a, mem_positions.mpr hin, text_of_decode ha⟩
  · obtain ⟨a, ha, rfl⟩ := List.mem_map.mp hin
    have hin := mem_positions.mp ha
    have hcovers := covers_of_contains hr (decode_text_of_contains hr hin) hin
    exact mem_populated_of_covers hr hf hcovers (hp _ hcovers hs)

/-- **Which way the cells are found makes no difference to the populated ones**, and no more do keys
that are not covered. -/
theorem filter_populated {keys' found' : List String} (hr : ofTexts first last = .ok r)
    (hd : keys.Nodup) (hd' : keys'.Nodup) (hf : r.populated keys = .ok found)
    (hf' : r.populated keys' = .ok found')
    (hkeys : ∀ s, Covers (first, last) s → (s ∈ keys ↔ s ∈ keys')) :
    found.filter (· ∈ keys) = found'.filter (· ∈ keys) := by
  rw [filter_populated_eq hr hd hf fun s _ hs => of_decide_eq_true hs,
    filter_populated_eq hr hd' hf' fun s hc hs => (hkeys s hc).mp (of_decide_eq_true hs)]

end Rectangle

end Worksheet
