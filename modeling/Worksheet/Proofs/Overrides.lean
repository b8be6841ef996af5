import Mathlib
import Worksheet.Settings

/-!
# Documents of settings

A document that is no mapping, or has a key of no setting, should be refused, unless it is null, and
any other one should replace the settings that it names and no others.  That is what becomes of a
document with two exceptions, which are exact.  What counts as not set, such as an empty list or
zero, is taken for null.  And several unknown keys that are not all of one kind cannot be put in
order for the message, so that the program fails instead of refusing the document.
-/

namespace Worksheet

namespace Settings

variable {a b k : Value} {ks ordered rest : List Value} {given : List (Value × Value)}

/-! ## Keys in order -/

/-- Keys that can be put in order: there is one at most, or all of them are of one kind. -/
def Orderable (ks : List Value) : Prop :=
  ks.length ≤ 1 ∨ ∃ kind, ∀ k ∈ ks, keyKind? k = some kind

theorem areComparable_iff :
    areComparable a b ↔ ∃ kind, keyKind? a = some kind ∧ keyKind? b = some kind := by
  unfold areComparable
  cases ha : keyKind? a with
  | none => simp
  | some kind => simp [eq_comm]

/-- More than one key can be put in order if the first two are of one kind and the others can. -/
theorem orderable_cons_cons :
    Orderable (a :: b :: rest) ↔ areComparable a b ∧ Orderable (b :: rest) := by
  constructor
  · rintro (h | ⟨kind, h⟩)
    · exact absurd h (by simp)
    · obtain ⟨ha, htail⟩ := List.forall_mem_cons.mp h
      exact ⟨areComparable_iff.mpr ⟨kind, ha, htail b List.mem_cons_self⟩, .inr ⟨kind, htail⟩⟩
  · rintro ⟨hab, h⟩
    obtain ⟨kind, ha, hb⟩ := areComparable_iff.mp hab
    refine .inr ⟨kind, List.forall_mem_cons.mpr ⟨ha, ?_⟩⟩
    rcases h with h | ⟨other, h⟩
    · obtain rfl : rest = [] := by simpa using h
      exact List.forall_mem_singleton.mpr hb
    · obtain rfl : other = kind :=
        Option.some.inj ((h b List.mem_cons_self).symm.trans hb)
      exact h

/-- It is enough to look at neighbours: the kind that each two of them share is that of all keys. -/
theorem exists_orderKeys_iff : (∃ ordered, orderKeys ks = .ok ordered) ↔ Orderable ks := by
  fun_induction orderKeys ks with
  | case1 a b rest hab ih =>
      rw [orderable_cons_cons, ← ih]
      cases orderKeys (b :: rest) with
      | ok ordered => simp [hab, Except.map]
      | error clash => simp [Except.map]
  | case2 a b rest hab => simp [orderable_cons_cons, hab]
  | case3 ks h =>
      refine ⟨fun _ => .inl ?_, fun _ => ⟨ks, rfl⟩⟩
      match ks, h with
      | [], _ => exact Nat.zero_le 1
      | [_], _ => exact Nat.le_refl 1
      | a :: b :: rest, h => exact absurd rfl (h a b rest)

/-- Putting keys in order keeps all of them. -/
theorem orderKeys_perm (h : orderKeys ks = .ok ordered) : ordered.Perm ks := by
  fun_induction orderKeys ks generalizing ordered with
  | case1 a b rest hab ih =>
      cases htail : orderKeys (b :: rest) with
      | ok tail =>
          rw [htail] at h
          obtain rfl := Except.ok.inj h
          exact (insertSorted_perm keyLE a tail).trans ((ih htail).cons a)
      | error clash =>
          rw [htail] at h
          cases h
  | case2 a b rest hab => cases h
  | case3 ks _ => exact .of_eq (Except.ok.inj h).symm

/-- What unknown keys lead to: all of them are told, or the first one that cannot be written fails,
if they can be put in order, and else two of them that cannot. -/
theorem unknownFault_cases (path : String) (ks : List Value) :
    (Orderable ks ∧ ∃ ordered : List Value, ordered.Perm ks ∧
      ((∃ shown, ordered.mapM Value.quoted = .ok shown ∧
          unknownFault path ks = .unknownKeys path shown) ∨
        ∃ cause, ordered.mapM Value.quoted = .error cause ∧
          unknownFault path ks = .unwritableKey cause)) ∨
    (¬ Orderable ks ∧ ∃ clash, unknownFault path ks = .unorderedKeys clash) := by
  unfold unknownFault
  cases hordered : orderKeys ks with
  | ok ordered =>
      have horderable : Orderable ks := exists_orderKeys_iff.mp ⟨ordered, hordered⟩
      refine .inl ⟨horderable, ordered, orderKeys_perm hordered, ?_⟩
      cases hshown : ordered.mapM Value.quoted with
      | ok shown => exact .inl ⟨shown, rfl, by simp only [hshown]⟩
      | error cause => exact .inr ⟨cause, rfl, by simp only [hshown]⟩
  | error clash =>
      refine .inr ⟨fun horderable => ?_, clash, rfl⟩
      obtain ⟨ordered, h⟩ := exists_orderKeys_iff.mpr horderable
      rw [hordered] at h
      cases h

/-- Unknown keys are a reason to refuse a document if they can be put in order. -/
theorem isRefusal_unknownFault_iff {path : String} :
    (unknownFault path ks).isRefusal ↔ Orderable ks := by
  rcases unknownFault_cases path ks with
    ⟨horderable, _, -, ⟨shown, -, h⟩ | ⟨cause, -, h⟩⟩ | ⟨horderable, clash, h⟩
  · rw [h]
    exact ⟨fun _ => horderable, fun _ => rfl⟩
  · rw [h]
    exact ⟨fun _ => horderable, fun _ => rfl⟩
  · rw [h]
    exact ⟨fun hrefusal => Bool.noConfusion hrefusal, fun h => absurd h horderable⟩

/-! ## Settings by their keys -/

theorem entries_set (s : Settings) (key : String) (v : Value) :
    (s.set key v).entries =
      s.entries.map fun entry => (entry.1, if entry.1 = key then v else entry.2) := by
  unfold set
  split_ifs with hdir hfsync hseed hstrict
  · subst hdir
    rfl
  · subst hfsync
    rfl
  · subst hseed
    rfl
  · subst hstrict
    rfl
  · simp [entries, Ne.symm hdir, Ne.symm hfsync, Ne.symm hseed, Ne.symm hstrict]

/-- The value that the last entry with a key has. -/
def valueUnder? (key : String) : List (Value × Value) → Option Value
  | [] => none
  | (.text s, v) :: rest => (valueUnder? key rest).or (if key = s then some v else none)
  | _ :: rest => valueUnder? key rest

/-- A setting has the value that is given for it, and keeps its own if there is none. -/
theorem entries_overridden (s : Settings) (given : List (Value × Value)) :
    (s.overridden given).entries =
      s.entries.map fun entry => (entry.1, (valueUnder? entry.1 given).getD entry.2) := by
  induction given generalizing s with
  | nil => exact (List.map_id _).symm
  | cons first rest ih =>
      obtain ⟨k, v⟩ := first
      cases k with
      | text name =>
          show ((s.set name v).overridden rest).entries = _
          rw [ih, entries_set, List.map_map]
          refine List.map_congr_left fun entry _ => ?_
          simp only [Function.comp_apply, valueUnder?]
          cases valueUnder? entry.1 rest with
          | some w => rfl
          | none => by_cases h : entry.1 = name <;> simp [h]
      | _ => exact ih s

/-! ## Documents -/

/-- A document that should be refused: it is no mapping, although it is not null, or it has a key
that is not that of a setting. -/
inductive Unfit : Value → Prop where
  | notMapping {doc : Value} : doc ≠ .null → (∀ given, doc ≠ .dict given) → Unfit doc
  | unknownKey {given : List (Value × Value)} {k : Value} : k ∈ given.map Prod.fst →
      (∀ key ∈ keys, k ≠ .text key) → Unfit (.dict given)

/-- The value that a document gives for a setting. -/
def givenFor? (doc : Value) (key : String) : Option Value :=
  match doc with
  | .dict given => valueUnder? key given
  | _ => none

/-- What should become of a document: an unfit one is refused, and any other one leads to the
initial settings with exactly those replaced that it gives. -/
def Follows (doc : Value) (result : Except SettingsFault Settings) : Prop :=
  (Unfit doc → ∃ fault, result = .error fault ∧ fault.isRefusal) ∧
  (¬ Unfit doc → ∃ s, result = .ok s ∧
    s.entries = initial.entries.map fun entry => (entry.1, (givenFor? doc entry.1).getD entry.2))

theorem isKnown_iff : isKnown k ↔ ∃ key ∈ keys, k = .text key := by
  cases k with
  | text s => simp [isKnown]
  | _ => simp [isKnown]

theorem mem_unknownKeys_iff :
    k ∈ unknownKeys given ↔ k ∈ given.map Prod.fst ∧ ∀ key ∈ keys, k ≠ .text key := by
  have hknown : (!isKnown k) = true ↔ ∀ key ∈ keys, k ≠ .text key := by
    rw [Bool.not_eq_true', ← Bool.not_eq_true, isKnown_iff]
    push Not
    rfl
  rw [unknownKeys, List.mem_filter, hknown]

theorem unfit_dict_iff : Unfit (.dict given) ↔ unknownKeys given ≠ [] := by
  constructor
  · intro h
    cases h with
    | notMapping _ h => exact absurd rfl (h given)
    | unknownKey hk hne => exact List.ne_nil_of_mem (mem_unknownKeys_iff.mpr ⟨hk, hne⟩)
  · intro h
    obtain ⟨k, hk⟩ := List.exists_mem_of_ne_nil _ h
    obtain ⟨hk, hne⟩ := mem_unknownKeys_iff.mp hk
    exact .unknownKey hk hne

theorem ofDocument_dict (path : String) (given : List (Value × Value)) :
    ofDocument path (.dict given) =
      if unknownKeys given = [] then .ok (initial.overridden given)
      else .error (unknownFault path (unknownKeys given)) := by
  cases given with
  | nil => rfl
  | cons first rest =>
      show (if (unknownKeys (first :: rest)).isEmpty then _ else _) = _
      simp only [List.isEmpty_iff]

theorem ofDocument_of_not_isSet {path : String} {doc : Value} (h : doc.isSet = false) :
    ofDocument path doc = .ok initial := by
  unfold ofDocument
  rw [h]
  rfl

theorem ofDocument_of_not_mapping {path : String} {doc : Value} (h : doc.isSet)
    (hdict : ∀ given, doc ≠ .dict given) :
    ofDocument path doc = .error (.notMapping path (typeName doc)) := by
  unfold ofDocument
  rw [h]
  cases doc with
  | dict given => exact absurd rfl (hdict given)
  | _ => rfl

theorem ofDocument_of_not_orderable {path : String} (h : ¬ Orderable (unknownKeys given)) :
    ∃ clash, ofDocument path (.dict given) = .error (.unorderedKeys clash) := by
  have hsome : unknownKeys given ≠ [] := fun hnil => h (hnil ▸ .inl (Nat.zero_le 1))
  rw [ofDocument_dict, if_neg hsome]
  rcases unknownFault_cases path (unknownKeys given) with ⟨horderable, -⟩ | ⟨-, clash, hclash⟩
  · exact absurd horderable h
  · exact ⟨clash, congrArg Except.error hclash⟩

/-- A mapping is treated as it should be unless it has unknown keys without an order. -/
theorem follows_dict_iff {path : String} :
    Follows (.dict given) (ofDocument path (.dict given)) ↔ Orderable (unknownKeys given) := by
  unfold Follows
  rw [unfit_dict_iff, ofDocument_dict]
  split
  · next h =>
      rw [h]
      refine ⟨fun _ => .inl (Nat.zero_le 1), fun _ => ⟨fun hne => absurd rfl hne, fun _ => ?_⟩⟩
      exact ⟨_, rfl, entries_overridden initial given⟩
  · next h =>
      rw [← isRefusal_unknownFault_iff]
      constructor
      · intro hfollows
        obtain ⟨fault, hfault, hrefusal⟩ := hfollows.1 h
        obtain rfl := Except.error.inj hfault
        exact hrefusal
      · intro hrefusal
        exact ⟨fun _ => ⟨_, rfl, hrefusal⟩, fun hne => absurd h hne⟩

/-- What is no mapping is treated as it should be unless it is taken for null without being null. -/
theorem follows_iff_of_not_mapping {path : String} {doc : Value}
    (hdict : ∀ given, doc ≠ .dict given) :
    Follows doc (ofDocument path doc) ↔ doc.isSet ∨ doc = .null := by
  by_cases hnull : doc = .null
  · subst hnull
    refine ⟨fun _ => .inr rfl, fun _ => ⟨fun hunfit => ?_, fun _ => ⟨initial, rfl, rfl⟩⟩⟩
    cases hunfit with
    | notMapping hne _ => exact absurd rfl hne
  · have hunfit : Unfit doc := .notMapping hnull hdict
    cases hset : doc.isSet with
    | true =>
        rw [ofDocument_of_not_mapping hset hdict]
        exact ⟨fun _ => .inl rfl, fun _ => ⟨fun _ => ⟨_, rfl, rfl⟩, fun hne => absurd hunfit hne⟩⟩
    | false =>
        rw [ofDocument_of_not_isSet hset]
        refine ⟨fun hfollows => ?_, fun h => absurd h (by simp [hnull])⟩
        obtain ⟨fault, hfault, -⟩ := hfollows.1 hunfit
        cases hfault

/-! ## Files -/

variable {read : String → Except Yaml.Fault Value} {files : Files} {path text : String}
  {doc : Value}

theorem loadBy_eq_ofDocument (hfile : files.text? (place files path) = some text)
    (hread : read text = .ok doc) :
    loadBy read files (some path) = ofDocument (place files path) doc := by
  unfold loadBy
  simp only [hfile, hread]
  rfl

/-- **What becomes of a document is what should, with two exceptions.**  Whatever reads documents,
a mapping is refused for its unknown keys or else replaces the settings that it gives, exactly if
its unknown keys can be put in order.  Any other document is refused unless it is null, exactly if
it is null or counts as set.  Outside of that, a document that does not count as set leads to the
initial settings, and unknown keys without an order are a fault that is no refusal. -/
theorem loadBy_follows_iff (hfile : files.text? (place files path) = some text)
    (hread : read text = .ok doc) :
    (Follows doc (loadBy read files (some path)) ↔
      match doc with
      | .dict given => Orderable (unknownKeys given)
      | doc => doc.isSet ∨ doc = .null) ∧
    (doc.isSet = false → loadBy read files (some path) = .ok initial) ∧
    ∀ given, doc = .dict given → ¬ Orderable (unknownKeys given) →
      ∃ clash, loadBy read files (some path) = .error (.unorderedKeys clash) := by
  rw [loadBy_eq_ofDocument hfile hread]
  refine ⟨?_, ofDocument_of_not_isSet, ?_⟩
  · cases doc with
    | dict given => exact follows_dict_iff
    | _ => exact follows_iff_of_not_mapping nofun
  · rintro given rfl h
    exact ofDocument_of_not_orderable h

/-- The file `c` with a text. -/
def fileOf (text : String) : Files :=
  .ofList [("c", text)] []

theorem text?_fileOf (text : String) :
    (fileOf text).text? (place (fileOf text) "c") = some text := by
  cbv

/-- A start for the random numbers, and nothing else. -/
theorem loadBy_follows_seed :
    let doc : Value := .dict [(.text "random_seed", .number (.int 9))]
    (fileOf "random_seed: 9").text? (place (fileOf "random_seed: 9") "c") = some "random_seed: 9" ∧
      Yaml.load "random_seed: 9" = .ok doc ∧
      Follows doc (loadBy Yaml.load (fileOf "random_seed: 9") (some "c")) ∧
      ∃ s, load (fileOf "random_seed: 9") (some "c") = .ok s ∧
        s.entries = [("log_dir", .null), ("logging_fsync", .bool false),
          ("random_seed", .number (.int 9)), ("strict_references", .bool false)] := by
  intro doc
  have hread : Yaml.load "random_seed: 9" = .ok doc := by cbv
  have hfollows := (loadBy_follows_iff (text?_fileOf _) hread).1.mpr (.inl (Nat.zero_le 1))
  refine ⟨text?_fileOf _, hread, hfollows, ?_⟩
  exact ⟨_, loadBy_eq_ofDocument (text?_fileOf _) hread, rfl⟩

/-- An empty list is no mapping, and a number and a text are no keys of settings, but neither
document is refused. -/
theorem load_refusesNeither :
    load (fileOf "[]") (some "c") = .ok initial ∧
      ¬ Follows (.list []) (load (fileOf "[]") (some "c")) ∧
      load (fileOf "1:\na:") (some "c") = .error (.unorderedKeys (.types "str" "int")) ∧
      ¬ Follows (.dict [(.number (.int 1), .null), (.text "a", .null)])
        (load (fileOf "1:\na:") (some "c")) := by
  have hlist : Yaml.load "[]" = .ok (.list []) := by cbv
  have hdict : Yaml.load "1:\na:" =
      .ok (.dict [(.number (.int 1), .null), (.text "a", .null)]) := by
    cbv
  have hinitial : load (fileOf "[]") (some "c") = ofDocument _ (.list []) :=
    loadBy_eq_ofDocument (text?_fileOf _) hlist
  have hfault : load (fileOf "1:\na:") (some "c") = ofDocument _ (.dict _) :=
    loadBy_eq_ofDocument (text?_fileOf _) hdict
  refine ⟨hinitial, fun h => ?_, hfault, fun h => ?_⟩
  · rw [hinitial, follows_iff_of_not_mapping fun _ => Value.noConfusion] at h
    rcases h with hset | hnull
    · cases hset
    · cases hnull
  · rw [hfault, follows_dict_iff] at h
    exact Bool.false_ne_true (orderable_cons_cons.mp h).1

end Settings

end Worksheet
