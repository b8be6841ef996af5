import Worksheet.Log.Event
import Worksheet.Proofs.FiniteNumbers
import Worksheet.Proofs.Integers
import Worksheet.Proofs.JsonStrings

/-!
# JSON values that are written and read

A value is read back as it was written but for surrogates: two of them that are a pair become one
character, and two keys that come to the same by this leave one entry.  A clean value has no lone
surrogates and no key twice, so it is read back as itself.  Putting the keys of its objects in order
gives a clean value that is the same up to this order, and nests no deeper.  In a value of standard
JSON all numbers are finite and can be written, and in a plain value they are integers.
-/

namespace Worksheet

namespace Json

/-- What holds of a value if it holds of its items or of the values of its entries holds of all. -/
@[elab_as_elim]
theorem induct {motive : Json → Prop} (null : motive .null) (bool : ∀ b, motive (.bool b))
    (number : ∀ n, motive (.number n)) (text : ∀ s, motive (.text s))
    (array : ∀ items, (∀ v ∈ items, motive v) → motive (.array items))
    (object : ∀ entries, (∀ e ∈ entries, motive e.2) → motive (.object entries)) :
    ∀ v, motive v
  | .null => null
  | .bool b => bool b
  | .number n => number n
  | .text s => text s
  | .array items => array items fun v _ => induct null bool number text array object v
  | .object entries => object entries fun (_, v) _ => induct null bool number text array object v
termination_by v => sizeOf v
decreasing_by
  · decreasing_tactic
  · next h =>
    have hlt := List.sizeOf_lt_of_mem h
    simp only [Prod.mk.sizeOf_spec, Json.object.sizeOf_spec] at hlt ⊢
    omega

/-! ## Entries with distinct keys -/

theorem value_unique {entries : List (List CodePoint × Json)}
    (hdistinct : (entries.map (·.1)).Nodup) {k : List CodePoint} {v w : Json}
    (hv : (k, v) ∈ entries) (hw : (k, w) ∈ entries) : v = w :=
  congrArg Prod.snd (List.inj_on_of_nodup_map hdistinct hv hw rfl)

theorem lookup_of_mem {entries : List (List CodePoint × Json)}
    (hdistinct : (entries.map (·.1)).Nodup) {k : List CodePoint} {v : Json}
    (h : (k, v) ∈ entries) : entries.lookup k = some v := by
  induction entries with
  | nil => cases h
  | cons e entries ih =>
      obtain ⟨k', w⟩ := e
      obtain ⟨hnew, hrest⟩ := List.nodup_cons.mp hdistinct
      rcases List.mem_cons.mp h with he | he
      · obtain ⟨rfl, rfl⟩ := Prod.mk.inj he
        exact List.lookup_cons_self
      · have hne : (k == k') = false :=
          beq_eq_false_iff_ne.mpr fun hk => hnew (List.mem_map.mpr ⟨_, he, hk⟩)
        rw [List.lookup_cons, hne]
        exact ih hrest he

/-! ## Height -/

theorem heightItems_le_iff {items : List Json} {n : Nat} :
    heightItems items ≤ n ↔ ∀ v ∈ items, v.height ≤ n := by
  induction items with
  | nil => simp [heightItems]
  | cons v items ih => simp [heightItems, ih]

theorem heightEntries_le_iff {entries : List (List CodePoint × Json)} {n : Nat} :
    heightEntries entries ≤ n ↔ ∀ e ∈ entries, e.2.height ≤ n := by
  induction entries with
  | nil => simp [heightEntries]
  | cons e entries ih => simp [heightEntries, ih]

theorem heightItems_map {f : Json → Json} {items : List Json}
    (h : ∀ v ∈ items, (f v).height = v.height) : heightItems (items.map f) = heightItems items := by
  induction items with
  | nil => rfl
  | cons v items ih =>
      rw [List.map_cons, heightItems, heightItems, h v List.mem_cons_self,
        ih fun w hw => h w (List.mem_cons_of_mem v hw)]

theorem heightEntries_map {f : Json → Json} {entries : List (List CodePoint × Json)}
    (h : ∀ e ∈ entries, (f e.2).height = e.2.height) :
    heightEntries (entries.map fun e => (e.1, f e.2)) = heightEntries entries := by
  induction entries with
  | nil => rfl
  | cons e entries ih =>
      rw [List.map_cons, heightEntries, heightEntries, h e List.mem_cons_self,
        ih fun w hw => h w (List.mem_cons_of_mem e hw)]

/-! ## Keys in order -/

theorem sortedItems_eq_map (items : List Json) : sortedItems items = items.map sorted := by
  induction items with
  | nil => rfl
  | cons v items ih => rw [sortedItems, ih, List.map_cons]

theorem sortedEntries_eq_map (entries : List (List CodePoint × Json)) :
    sortedEntries entries = entries.map fun e => (e.1, e.2.sorted) := by
  induction entries with
  | nil => rfl
  | cons e entries ih => rw [sortedEntries, ih, List.map_cons]

/-- The entries of an object with its keys in order. -/
def sortedObject (entries : List (List CodePoint × Json)) : List (List CodePoint × Json) :=
  sortedBy (fun a b => CodePoint.textLE a.1 b.1) (sortedEntries entries)

theorem sorted_object (entries : List (List CodePoint × Json)) :
    (object entries).sorted = object (sortedObject entries) := by
  rw [sorted]
  rfl

theorem sortedObject_perm (entries : List (List CodePoint × Json)) :
    (sortedObject entries).Perm (entries.map fun e => (e.1, e.2.sorted)) :=
  sortedEntries_eq_map entries ▸ sortedBy_perm _ _

theorem mem_sortedObject {entries : List (List CodePoint × Json)} {e : List CodePoint × Json} :
    e ∈ sortedObject entries ↔ ∃ e' ∈ entries, (e'.1, e'.2.sorted) = e := by
  rw [(sortedObject_perm entries).mem_iff, List.mem_map]

theorem keys_sortedObject (entries : List (List CodePoint × Json)) :
    ((sortedObject entries).map (·.1)).Perm (entries.map (·.1)) := by
  have h := (sortedObject_perm entries).map (·.1)
  rwa [List.map_map] at h

theorem height_sorted_le (v : Json) : v.sorted.height ≤ v.height := by
  induction v using induct with
  | array items ih =>
      rw [sorted, height, height, Nat.add_le_add_iff_left, sortedItems_eq_map, heightItems_le_iff]
      intro w hw
      obtain ⟨v, hv, rfl⟩ := List.mem_map.mp hw
      exact Nat.le_trans (ih v hv) (heightItems_le_iff.mp (Nat.le_refl _) v hv)
  | object entries ih =>
      rw [sorted_object, height, height, Nat.add_le_add_iff_left, heightEntries_le_iff]
      intro w hw
      obtain ⟨e, he, rfl⟩ := mem_sortedObject.mp hw
      exact Nat.le_trans (ih e he) (heightEntries_le_iff.mp (Nat.le_refl _) e he)
  | null => exact Nat.le_refl _
  | bool b => exact Nat.le_refl _
  | number n => exact Nat.le_refl _
  | text s => exact Nat.le_refl _

/-! ## Values that are read back -/

/-- Puts entries into an object one after the other. -/
def putAll (acc entries : List (List CodePoint × Json)) : List (List CodePoint × Json) :=
  entries.foldl (fun acc e => put e.1 e.2 acc) acc

theorem put_of_not_mem {k : List CodePoint} {v : Json} {entries : List (List CodePoint × Json)}
    (h : k ∉ entries.map (·.1)) : put k v entries = entries ++ [(k, v)] := by
  induction entries with
  | nil => rfl
  | cons e entries ih =>
      obtain ⟨k', w⟩ := e
      rw [List.map_cons, List.mem_cons, not_or] at h
      rw [put, if_neg (Ne.symm h.1), ih h.2, List.cons_append]

/-- Entries with keys of their own are added at the end. -/
theorem putAll_of_distinct {acc entries : List (List CodePoint × Json)}
    (h : ((acc ++ entries).map (·.1)).Nodup) : putAll acc entries = acc ++ entries := by
  induction entries generalizing acc with
  | nil => exact (List.append_nil acc).symm
  | cons e entries ih =>
      have hnew : e.1 ∉ acc.map (·.1) := fun hmem => by
        rw [List.map_append, List.map_cons] at h
        exact List.disjoint_of_nodup_append h hmem List.mem_cons_self
      have happend : acc ++ e :: entries = acc ++ [e] ++ entries := by simp
      rw [happend] at h ⊢
      rw [← ih h, ← put_of_not_mem hnew]
      rfl

mutual

/-- A value as it is read back from its text: two surrogates that are a pair have become one
character, and of entries that come to the same key by this the last value counts. -/
def revived : Json → Json
  | text s => text (joined s)
  | array items => array (revivedItems items)
  | object entries => object (putAll [] (revivedEntries entries))
  | v => v

/-- The items of an array as they are read back. -/
def revivedItems : List Json → List Json
  | [] => []
  | v :: vs => revived v :: revivedItems vs

/-- The entries of an object as they are read one by one. -/
def revivedEntries : List (List CodePoint × Json) → List (List CodePoint × Json)
  | [] => []
  | (k, v) :: rest => (joined k, revived v) :: revivedEntries rest

end

theorem revivedItems_eq_map (items : List Json) : revivedItems items = items.map revived := by
  induction items with
  | nil => rfl
  | cons v items ih => rw [revivedItems, ih, List.map_cons]

theorem revivedEntries_eq_map (entries : List (List CodePoint × Json)) :
    revivedEntries entries = entries.map fun e => (joined e.1, e.2.revived) := by
  induction entries with
  | nil => rfl
  | cons e entries ih => rw [revivedEntries, ih, List.map_cons]

/-- A value all numbers of which belong to the format. -/
inductive IsProper : Json → Prop
  | null : IsProper .null
  | bool (b : Bool) : IsProper (.bool b)
  | number {n : Number} (h : n.Representable) : IsProper (.number n)
  | text (s : List CodePoint) : IsProper (.text s)
  | array {items : List Json} (h : ∀ v ∈ items, IsProper v) : IsProper (.array items)
  | object {entries : List (List CodePoint × Json)} (h : ∀ e ∈ entries, IsProper e.2) :
      IsProper (.object entries)

theorem IsProper.sorted {v : Json} (h : v.IsProper) : v.sorted.IsProper := by
  induction h with
  | array _ ih =>
      rw [Json.sorted, sortedItems_eq_map]
      refine .array fun w hw => ?_
      obtain ⟨v, hv, rfl⟩ := List.mem_map.mp hw
      exact ih v hv
  | object _ ih =>
      rw [sorted_object]
      refine .object fun w hw => ?_
      obtain ⟨e, he, rfl⟩ := mem_sortedObject.mp hw
      exact ih e he
  | null => exact .null
  | bool b => exact .bool b
  | number h => exact .number h
  | text s => exact .text s

theorem withoutNonFiniteItems_eq_map (items : List Json) :
    Log.withoutNonFiniteItems items = items.map Log.withoutNonFinite := by
  induction items with
  | nil => rfl
  | cons v items ih => rw [Log.withoutNonFiniteItems, ih, List.map_cons]

theorem withoutNonFiniteEntries_eq_map (entries : Log.Context) :
    Log.withoutNonFiniteEntries entries = entries.map fun e => (e.1, Log.withoutNonFinite e.2) := by
  induction entries with
  | nil => rfl
  | cons e entries ih => rw [Log.withoutNonFiniteEntries, ih, List.map_cons]

theorem IsProper.withoutNonFinite {v : Json} (h : v.IsProper) :
    (Log.withoutNonFinite v).IsProper := by
  induction h with
  | array _ ih =>
      rw [Log.withoutNonFinite, withoutNonFiniteItems_eq_map]
      refine .array fun w hw => ?_
      obtain ⟨v, hv, rfl⟩ := List.mem_map.mp hw
      exact ih v hv
  | object _ ih =>
      rw [Log.withoutNonFinite, withoutNonFiniteEntries_eq_map]
      refine .object fun w hw => ?_
      obtain ⟨e, he, rfl⟩ := List.mem_map.mp hw
      exact ih e he
  | @number n h =>
      rw [Log.withoutNonFinite]
      split
      · exact .number h
      · exact .null
  | null => exact .null
  | bool b => exact .bool b
  | text s => exact .text s

theorem height_withoutNonFinite (v : Json) : (Log.withoutNonFinite v).height = v.height := by
  induction v using induct with
  | array items ih =>
      rw [Log.withoutNonFinite, height, height, withoutNonFiniteItems_eq_map, heightItems_map ih]
  | object entries ih =>
      rw [Log.withoutNonFinite, height, height, withoutNonFiniteEntries_eq_map, heightEntries_map ih]
  | number n =>
      rw [Log.withoutNonFinite]
      split <;> rfl
  | null => rfl
  | bool b => rfl
  | text s => rfl

/-! ## Values without surrogates -/

/-- A value in which no text holds a lone surrogate, each key of an object comes once, and all
numbers are of a kind. -/
inductive IsClean (kind : Number → Prop) : Json → Prop
  | null : IsClean kind .null
  | bool (b : Bool) : IsClean kind (.bool b)
  | number {n : Number} (h : kind n) : IsClean kind (.number n)
  | text {s : List CodePoint} (h : CodePoint.IsText s) : IsClean kind (.text s)
  | array {items : List Json} (h : ∀ v ∈ items, IsClean kind v) : IsClean kind (.array items)
  | object {entries : List (List CodePoint × Json)} (hdistinct : (entries.map (·.1)).Nodup)
      (hkeys : ∀ e ∈ entries, CodePoint.IsText e.1) (h : ∀ e ∈ entries, IsClean kind e.2) :
      IsClean kind (.object entries)

/-- Two values are the same up to the order of the entries of objects. -/
inductive Same : Json → Json → Prop
  | null : Same .null .null
  | bool (b : Bool) : Same (.bool b) (.bool b)
  | number (n : Number) : Same (.number n) (.number n)
  | text (s : List CodePoint) : Same (.text s) (.text s)
  | array {items items' : List Json} (hlength : items.length = items'.length)
      (h : ∀ (i : Nat) (v v' : Json), items[i]? = some v → items'[i]? = some v' → Same v v') :
      Same (.array items) (.array items')
  | object {entries entries' : List (List CodePoint × Json)}
      (hkeys : (entries.map (·.1)).Perm (entries'.map (·.1)))
      (h : ∀ (k : List CodePoint) (v v' : Json), (k, v) ∈ entries → (k, v') ∈ entries' →
        Same v v') : Same (.object entries) (.object entries')

section

variable {kind : Number → Prop} {v : Json}

theorem IsClean.ofString (s : String) : IsClean kind (Json.ofString s) :=
  .text (CodePoint.isText_ofString s)

theorem IsClean.sorted (h : IsClean kind v) : IsClean kind v.sorted := by
  induction h with
  | array _ ih =>
      rw [Json.sorted, sortedItems_eq_map]
      refine .array fun w hw => ?_
      obtain ⟨v, hv, rfl⟩ := List.mem_map.mp hw
      exact ih v hv
  | object hdistinct hkeys _ ih =>
      rw [sorted_object]
      refine .object ((keys_sortedObject _).nodup_iff.mpr hdistinct) (fun w hw => ?_)
        fun w hw => ?_
      · obtain ⟨e, he, rfl⟩ := mem_sortedObject.mp hw
        exact hkeys e he
      · obtain ⟨e, he, rfl⟩ := mem_sortedObject.mp hw
        exact ih e he
  | null => exact .null
  | bool b => exact .bool b
  | number h => exact .number h
  | text h => exact .text h

/-- Putting keys in order changes nothing else. -/
theorem IsClean.same_sorted (h : IsClean kind v) : Same v v.sorted := by
  induction h with
  | array _ ih =>
      rw [Json.sorted, sortedItems_eq_map]
      refine .array (List.length_map Json.sorted).symm fun i v v' hv hv' => ?_
      rw [List.getElem?_map, hv, Option.map_some] at hv'
      exact Option.some.inj hv' ▸ ih v (List.mem_of_getElem? hv)
  | object hdistinct _ _ ih =>
      rw [sorted_object]
      refine .object (keys_sortedObject _).symm fun k v v' hv hv' => ?_
      obtain ⟨⟨k, w⟩, hw, he⟩ := mem_sortedObject.mp hv'
      obtain ⟨rfl, rfl⟩ := Prod.mk.inj he
      obtain rfl := value_unique hdistinct hv hw
      exact ih _ hv
  | null => exact .null
  | bool b => exact .bool b
  | number h => exact .number _
  | text h => exact .text _

/-- **A value without surrogates is read back as itself.** -/
theorem IsClean.revived (h : IsClean kind v) : v.revived = v := by
  induction h with
  | array _ ih => rw [Json.revived, revivedItems_eq_map, List.map_congr_left ih, List.map_id']
  | @object entries hdistinct hkeys _ ih =>
      have hsame : ∀ e ∈ entries, (joined e.1, e.2.revived) = e := fun e he => by
        rw [joined_of_isText (hkeys e he), ih e he]
      rw [Json.revived, revivedEntries_eq_map, List.map_congr_left hsame, List.map_id']
      exact congrArg _ (putAll_of_distinct hdistinct)
  | null => rfl
  | bool b => rfl
  | number h => rfl
  | text h => rw [Json.revived, joined_of_isText h]

theorem IsClean.isProper (h : IsClean kind v) (hkind : ∀ n, kind n → n.Representable) :
    v.IsProper := by
  induction h with
  | null => exact .null
  | bool b => exact .bool b
  | number h => exact .number (hkind _ h)
  | text h => exact .text _
  | array _ ih => exact .array ih
  | object _ _ _ ih => exact .object ih

/-- A value without numbers that are not finite stays as it is. -/
theorem IsClean.withoutNonFinite (h : IsClean kind v) (hkind : ∀ n, kind n → n.isFinite) :
    Log.withoutNonFinite v = v := by
  induction h with
  | array _ ih =>
      rw [Log.withoutNonFinite, withoutNonFiniteItems_eq_map, List.map_congr_left ih, List.map_id']
  | @object entries _ _ _ ih =>
      have hsame : ∀ e ∈ entries, (e.1, Log.withoutNonFinite e.2) = e := fun e he =>
        congrArg (e.1, ·) (ih e he)
      rw [Log.withoutNonFinite, withoutNonFiniteEntries_eq_map, List.map_congr_left hsame,
        List.map_id']
  | null => rfl
  | bool b => rfl
  | number h => rw [Log.withoutNonFinite, if_pos (hkind _ h)]
  | text h => rfl

end

/-! ## Values of standard JSON -/

/-- A number of the format that is finite and can be written. -/
structure IsStandardNumber (n : Number) : Prop where
  representable : n.Representable
  finite : n.isFinite
  writable : ∃ cs, numberChars n = .ok cs

theorem isStandardNumber_int {i : Int} (h : i.natAbs < 10 ^ Number.maxDigits) :
    IsStandardNumber (.int i) := by
  refine ⟨trivial, rfl, (toString i).toList, ?_⟩
  rw [numberChars, Number.intText_of_lt h]
  rfl

/-- A value without floats in which all text is free of lone surrogates, all integers can be
written, and each key of an object comes once. -/
inductive IsPlain : Json → Prop
  | null : IsPlain .null
  | bool (b : Bool) : IsPlain (.bool b)
  | int {i : Int} (h : i.natAbs < 10 ^ Number.maxDigits) : IsPlain (ofInt i)
  | text {s : List CodePoint} (h : CodePoint.IsText s) : IsPlain (.text s)
  | array {items : List Json} (h : ∀ v ∈ items, IsPlain v) : IsPlain (.array items)
  | object {entries : List (List CodePoint × Json)} (hdistinct : (entries.map (·.1)).Nodup)
      (hkeys : ∀ e ∈ entries, CodePoint.IsText e.1) (h : ∀ e ∈ entries, IsPlain e.2) :
      IsPlain (.object entries)

theorem IsPlain.ofString (s : String) : (Json.ofString s).IsPlain :=
  .text (CodePoint.isText_ofString s)

theorem IsPlain.isStandard {v : Json} (h : v.IsPlain) : IsClean IsStandardNumber v := by
  induction h with
  | null => exact .null
  | bool b => exact .bool b
  | int h => exact .number (isStandardNumber_int h)
  | text h => exact .text h
  | array _ ih => exact .array ih
  | object hdistinct hkeys _ ih => exact .object hdistinct hkeys ih

/-- A plain value has no number in it that is not finite. -/
theorem IsPlain.withoutNonFinite {v : Json} (h : v.IsPlain) : Log.withoutNonFinite v = v :=
  h.isStandard.withoutNonFinite fun _ hn => hn.finite

end Json

end Worksheet
