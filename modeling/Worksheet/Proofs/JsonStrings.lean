import Mathlib
import Worksheet.Json.Render
import Worksheet.Json.Token
import Worksheet.Proofs.Addresses

/-!
# Strings in JSON text

A string is written in printable ASCII, and reading it gives back its characters, also those that
are written as a pair of surrogates.  Two surrogates that stand alone but are a pair are read as the
character that they come to.
-/

namespace Worksheet

/-! ## Texts -/

namespace CodePoint

/-- Whether code points are characters only, with no lone surrogates among them. -/
def IsText (s : List CodePoint) : Prop :=
  ∃ cs : List Char, s = cs.map .char

theorem isText_ofString (s : String) : IsText (ofString s) :=
  ⟨s.toList, rfl⟩

theorem ofString_injective : Function.Injective ofString := fun _ _ h =>
  String.toList_inj.mp (List.map_injective_iff.mpr (fun _ _ => char.inj) h)

end CodePoint

/-! ## Hexadecimal digits -/

namespace Text

theorem hexValue?_digitChar : ∀ d < 16, hexValue? (Nat.digitChar d) = some d := by
  decide

theorem ofHex?_concat (cs : List Char) (c : Char) :
    ofHex? (cs ++ [c]) = (ofHex? cs).bind fun n => (hexValue? c).map (16 * n + ·) := by
  unfold ofHex?
  rw [List.foldlM_append]
  simp only [List.foldlM_cons, List.foldlM_nil, bind_pure]
  rfl

theorem ofHex?_toDigits (n : Nat) : ofHex? (Nat.toDigits 16 n) = some n := by
  induction n using Nat.strong_induction_on with
  | _ n ih =>
      rw [Nat.toDigits_eq_if (by omega)]
      split
      · next hn =>
          have := ofHex?_concat [] (Nat.digitChar n)
          rw [List.nil_append] at this
          rw [this, hexValue?_digitChar n hn]
          simp [ofHex?]
      · next hn =>
          have hlast := hexValue?_digitChar (n % 16) (by omega)
          rw [ofHex?_concat, ih (n / 16) (by omega), hlast, Option.bind_some, Option.map_some]
          exact congrArg some (by omega)

theorem ofHex?_zeros_append (k : Nat) (cs : List Char) :
    ofHex? (List.replicate k '0' ++ cs) = ofHex? cs := by
  induction k with
  | zero => rfl
  | succ k ih =>
      rw [← ih]
      rfl

theorem ofHex?_hexChars (width n : Nat) : ofHex? (hexChars width n) = some n :=
  (ofHex?_zeros_append _ _).trans (ofHex?_toDigits n)

theorem length_hexChars {width n : Nat} (hwidth : 0 < width) (h : n < 16 ^ width) :
    (hexChars width n).length = width := by
  have hle := (Nat.length_toDigits_le_iff (by omega) hwidth).mpr h
  rw [hexChars, List.length_append, List.length_replicate]
  omega

/-- What is read as a number consists of digits. -/
theorem isSome_hexValue?_of_ofHex? {cs : List Char} {n : Nat} (h : ofHex? cs = some n) :
    ∀ c ∈ cs, (hexValue? c).isSome := by
  unfold ofHex? at h
  generalize 0 = start at h
  induction cs generalizing start with
  | nil => simp
  | cons c cs ih =>
      rw [List.foldlM_cons] at h
      obtain ⟨m, hm, h⟩ := Option.bind_eq_some_iff.mp h
      obtain ⟨d, hd, _⟩ := Option.map_eq_some_iff.mp hm
      intro x hx
      rcases List.mem_cons.mp hx with rfl | hx
      · rw [hd]
        rfl
      · exact ih m h x hx

end Text

namespace Json

open Token

/-- A printable ASCII character. -/
def IsPrintable (c : Char) : Prop :=
  32 ≤ c.toNat ∧ c.toNat ≤ 126

instance (c : Char) : Decidable (IsPrintable c) :=
  inferInstanceAs (Decidable (_ ∧ _))

/-- Whether a character ends a string or takes the next one with it. -/
def isDelimiter (c : Char) : Bool :=
  c == '"' || c == '\\'

theorem isDelimiter_iff {c : Char} : isDelimiter c ↔ c = '"' ∨ c = '\\' := by
  simp [isDelimiter]

/-! ## Escapes -/

theorem of_isSome_hexValue? {c : Char} (h : (Text.hexValue? c).isSome) :
    IsPrintable c ∧ ¬ isDelimiter c := by
  have hrange : (48 ≤ c.toNat ∧ c.toNat ≤ 57) ∨ (97 ≤ c.toNat ∧ c.toNat ≤ 102) ∨
      65 ≤ c.toNat ∧ c.toNat ≤ 70 := by
    unfold Text.hexValue? at h
    simp only [Bool.and_eq_true, decide_eq_true_eq, Char.le_def, UInt32.le_iff_toNat_le] at h
    split_ifs at h with hdigit hlower hupper
    · exact .inl (Address.isDigit_iff.mp hdigit)
    · exact .inr (.inl hlower)
    · exact .inr (.inr hupper)
    · exact absurd h (by decide)
  refine ⟨⟨by omega, by omega⟩, fun hc => ?_⟩
  rcases isDelimiter_iff.mp hc with rfl | rfl
  · exact absurd hrange (by decide)
  · exact absurd hrange (by decide)

theorem stringBody?_append {front : List Char} (h : ∀ c ∈ front, ¬ isDelimiter c)
    (cs : List Char) : stringBody? (front ++ cs) = (stringBody? cs).map (front ++ ·) := by
  induction front with
  | nil => exact Option.map_id'.symm
  | cons c front ih =>
      have hc := h c List.mem_cons_self
      rw [isDelimiter_iff, not_or] at hc
      rw [List.cons_append, stringBody?]
      · rw [ih fun d hd => h d (List.mem_cons_of_mem c hd), Option.map_map]
        rfl
      · exact hc.1
      · exact fun _ _ hback _ => hc.2 hback

theorem stringBody?_escape (e : Char) (cs : List Char) :
    stringBody? ('\\' :: e :: cs) = (stringBody? cs).map ('\\' :: e :: ·) := by
  rw [stringBody?]

theorem stringBody?_unitEscape (unit : Nat) (cs : List Char) :
    stringBody? (unitEscape unit ++ cs) = (stringBody? cs).map (unitEscape unit ++ ·) := by
  have hhex := Text.isSome_hexValue?_of_ofHex? (Text.ofHex?_hexChars 4 unit)
  show stringBody? ('\\' :: 'u' :: (Text.hexChars 4 unit ++ cs)) = _
  rw [stringBody?_escape,
    stringBody?_append (fun c hc => (of_isSome_hexValue? (hhex c hc)).2), Option.map_map]
  rfl

/-- Sixteen bits are read as they are written. -/
theorem unescape?_unitEscape {unit : Nat} (h : unit < 0x10000) (cs : List Char) :
    unescape? (unitEscape unit ++ cs) = (unescape? cs).map (consUnit unit) := by
  have hread := Text.ofHex?_hexChars 4 unit
  have hlength : (Text.hexChars 4 unit).length = 4 := Text.length_hexChars (by omega) h
  show unescape? ('\\' :: 'u' :: (Text.hexChars 4 unit ++ cs)) = _
  match hs : Text.hexChars 4 unit, hlength with
  | [a, b, c, d], _ =>
    rw [hs] at hread
    show unescape? ('\\' :: 'u' :: a :: b :: c :: d :: cs) = _
    rw [unescape?, hread]
    cases unescape? cs <;> rfl

theorem unescape?_escape {e c : Char} (he : escaped? e = some c) (cs : List Char) :
    unescape? ('\\' :: e :: cs) = (unescape? cs).map (.char c :: ·) := by
  rw [unescape?]
  · rw [he]
    cases unescape? cs <;> rfl
  · rintro _ _ _ _ _ rfl
    exact absurd he (by simp [escaped?])

theorem unescape?_plain {c : Char} (hc : c ≠ '\\') (hprintable : IsPrintable c)
    (cs : List Char) : unescape? (c :: cs) = (unescape? cs).map (.char c :: ·) := by
  have hcontrol : ¬ c < ' ' := fun h => absurd hprintable.1 (Nat.not_le.mpr h)
  rw [unescape?]
  · rw [if_neg hcontrol]
  · exact fun _ _ _ _ _ h _ => hc h
  · exact fun _ _ h _ => hc h
  · exact fun h _ => hc h

/-! ## Characters -/

/-- Only the first half of a pair looks at what comes next. -/
theorem consUnit_of_not_first {n : Nat} (h : n < 0xd800 ∨ 0xdc00 ≤ n) (s : List CodePoint) :
    consUnit n s = pointOfUnit n :: s := by
  unfold consUnit
  split
  · rw [if_neg (by simp; omega)]
  · rfl

theorem consUnit_char {c : Char} (h : c.toNat < 0x10000) (s : List CodePoint) :
    consUnit c.toNat s = .char c :: s := by
  have hvalid : c.toNat < 0xd800 ∨ 0xdfff < c.toNat ∧ c.toNat < 0x110000 := c.valid
  rw [consUnit_of_not_first (by omega), pointOfUnit, dif_neg (by omega), Char.ofNat_toNat]

/-- The two halves of a pair come to one character. -/
theorem consUnit_pair {m : Nat} (h : m < 0x100000) (s : List CodePoint) :
    consUnit (0xd800 + m / 0x400) (consUnit (0xdc00 + m % 0x400) s) =
      .char (Char.ofNat (0x10000 + m)) :: s := by
  rw [consUnit_of_not_first (n := 0xdc00 + m % 0x400) (by omega), pointOfUnit,
    dif_pos ⟨by omega, by omega⟩, consUnit, if_pos (by simp; omega)]
  simp only [List.cons.injEq, CodePoint.char.injEq, and_true]
  exact congrArg Char.ofNat (by omega)

theorem unescape?_charEscape (c : Char) (cs : List Char) :
    unescape? (charEscape c ++ cs) = (unescape? cs).map (.char c :: ·) := by
  have hvalid : c.toNat < 0xd800 ∨ 0xdfff < c.toNat ∧ c.toNat < 0x110000 := c.valid
  unfold charEscape
  dsimp only
  split
  · next h =>
    rw [unescape?_unitEscape h]
    exact congrArg (Option.map · _) (funext fun s => consUnit_char h s)
  · next h =>
    rw [List.append_assoc, unescape?_unitEscape (by omega), unescape?_unitEscape (by omega),
      Option.map_map]
    refine congrArg (Option.map · _) (funext fun s => ?_)
    rw [Function.comp_apply, consUnit_pair (by omega), Nat.add_sub_cancel' (by omega),
      Char.ofNat_toNat]

theorem stringBody?_charEscape (c : Char) (cs : List Char) :
    stringBody? (charEscape c ++ cs) = (stringBody? cs).map (charEscape c ++ ·) := by
  unfold charEscape
  dsimp only
  split
  · exact stringBody?_unitEscape _ _
  · rw [List.append_assoc, stringBody?_unitEscape, stringBody?_unitEscape, Option.map_map]
    simp only [Function.comp_def, List.append_assoc]

theorem isPrintable_unitEscape (unit : Nat) : ∀ c ∈ unitEscape unit, IsPrintable c := by
  have hhex := Text.isSome_hexValue?_of_ofHex? (Text.ofHex?_hexChars 4 unit)
  intro c hc
  rcases List.mem_cons.mp hc with rfl | hc
  · decide
  rcases List.mem_cons.mp hc with rfl | hc
  · decide
  exact (of_isSome_hexValue? (hhex c hc)).1

/-- How a character is written in a string: as itself, or escaped in one of two ways. -/
theorem stringChar_cases (c : Char) :
    (stringChar c = [c] ∧ IsPrintable c ∧ ¬ isDelimiter c) ∨
      (∃ e, stringChar c = ['\\', e] ∧ escaped? e = some c ∧ IsPrintable e) ∨
        stringChar c = charEscape c := by
  unfold stringChar
  split_ifs with hdelimiter hn hr ht hf hb hplain
  · refine .inr (.inl ⟨c, rfl, ?_⟩)
    simp only [Bool.or_eq_true, decide_eq_true_eq] at hdelimiter
    rcases hdelimiter with rfl | rfl <;> exact ⟨rfl, by decide⟩
  · exact .inr (.inl ⟨'n', rfl, hn ▸ rfl, by decide⟩)
  · exact .inr (.inl ⟨'r', rfl, hr ▸ rfl, by decide⟩)
  · exact .inr (.inl ⟨'t', rfl, ht ▸ rfl, by decide⟩)
  · exact .inr (.inl ⟨'f', rfl, hf ▸ rfl, by decide⟩)
  · exact .inr (.inl ⟨'b', rfl, hb ▸ rfl, by decide⟩)
  · refine .inl ⟨rfl, ?_, fun h => hdelimiter (by simpa [isDelimiter] using h)⟩
    simp only [Bool.and_eq_true, decide_eq_true_eq, Char.le_def, UInt32.le_iff_toNat_le] at hplain
    exact hplain
  · exact .inr (.inr rfl)

theorem stringBody?_stringChar (c : Char) (cs : List Char) :
    stringBody? (stringChar c ++ cs) = (stringBody? cs).map (stringChar c ++ ·) := by
  rcases stringChar_cases c with ⟨h, _, hc⟩ | ⟨e, h, _⟩ | h <;> rw [h]
  · exact stringBody?_append (fun d hd => List.mem_singleton.mp hd ▸ hc) cs
  · exact stringBody?_escape e cs
  · exact stringBody?_charEscape c cs

theorem unescape?_stringChar (c : Char) (cs : List Char) :
    unescape? (stringChar c ++ cs) = (unescape? cs).map (.char c :: ·) := by
  rcases stringChar_cases c with ⟨h, hprintable, hc⟩ | ⟨e, h, he, _⟩ | h <;> rw [h]
  · exact unescape?_plain (fun hback => hc (isDelimiter_iff.mpr (.inr hback))) hprintable cs
  · exact unescape?_escape he cs
  · exact unescape?_charEscape c cs

theorem isPrintable_stringChar (c : Char) : ∀ d ∈ stringChar c, IsPrintable d := by
  rcases stringChar_cases c with ⟨h, hprintable, _⟩ | ⟨e, h, _, he⟩ | h <;> rw [h]
  · exact fun d hd => List.mem_singleton.mp hd ▸ hprintable
  · intro d hd
    rcases List.mem_cons.mp hd with rfl | hd
    · decide
    · exact List.mem_singleton.mp hd ▸ he
  · unfold charEscape
    dsimp only
    split
    · exact isPrintable_unitEscape _
    · intro d hd
      rcases List.mem_append.mp hd with hd | hd
      · exact isPrintable_unitEscape _ d hd
      · exact isPrintable_unitEscape _ d hd

/-! ## Code points -/

theorem stringBody?_stringPoint (p : CodePoint) (cs : List Char) :
    stringBody? (stringPoint p ++ cs) = (stringBody? cs).map (stringPoint p ++ ·) := by
  cases p with
  | char c => exact stringBody?_stringChar c cs
  | surrogate i => exact stringBody?_unitEscape _ cs

/-- A code point in front of others as they are read back: a surrogate that is the first half of a
pair joins the second half, if that comes next. -/
def joinPoint (p : CodePoint) (s : List CodePoint) : List CodePoint :=
  match p with
  | .char c => .char c :: s
  | .surrogate i => consUnit (0xd800 + i) s

theorem unescape?_stringPoint (p : CodePoint) (cs : List Char) :
    unescape? (stringPoint p ++ cs) = (unescape? cs).map (joinPoint p) := by
  cases p with
  | char c => exact unescape?_stringChar c cs
  | surrogate i =>
      have hi := i.isLt
      exact unescape?_unitEscape (by omega) cs

theorem isPrintable_stringPoint (p : CodePoint) : ∀ d ∈ stringPoint p, IsPrintable d := by
  cases p with
  | char c => exact isPrintable_stringChar c
  | surrogate i => exact isPrintable_unitEscape _

/-! ## Strings -/

/-- What code points are written as between the quotes of a string. -/
def bodyChars (s : List CodePoint) : List Char :=
  s.flatMap stringPoint

theorem bodyChars_cons (p : CodePoint) (s : List CodePoint) :
    bodyChars (p :: s) = stringPoint p ++ bodyChars s :=
  List.flatMap_cons

/-- Code points as they are read back: two surrogates that are a pair have become one character. -/
def joined (s : List CodePoint) : List CodePoint :=
  s.foldr joinPoint []

theorem joined_of_isText {s : List CodePoint} (h : CodePoint.IsText s) : joined s = s := by
  obtain ⟨cs, rfl⟩ := h
  induction cs with
  | nil => rfl
  | cons c cs ih => exact congrArg (.char c :: ·) ih

/-- The body of a string goes as far as its quote. -/
theorem stringBody?_bodyChars (s : List CodePoint) (cs : List Char) :
    stringBody? (bodyChars s ++ '"' :: cs) = some (bodyChars s) := by
  induction s with
  | nil => rfl
  | cons p s ih =>
      rw [bodyChars_cons, List.append_assoc, stringBody?_stringPoint, ih, Option.map_some]

/-- **A string is read as the text it was written for**, with its pairs of surrogates joined. -/
theorem unescape?_bodyChars (s : List CodePoint) :
    unescape? (bodyChars s) = some (joined s) := by
  induction s with
  | nil => rfl
  | cons p s ih =>
      rw [bodyChars_cons, unescape?_stringPoint, ih]
      rfl

theorem isPrintable_bodyChars (s : List CodePoint) : ∀ c ∈ bodyChars s, IsPrintable c := by
  intro c hc
  obtain ⟨p, _, hp⟩ := List.mem_flatMap.mp hc
  exact isPrintable_stringPoint p c hp

end Json

end Worksheet
