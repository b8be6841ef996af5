import Worksheet.Decimal.Layout
import Worksheet.Proofs.FiniteNumbers
import Worksheet.Proofs.JsonTokens
import Worksheet.Proofs.ShortestDecimals

/-!
# The text of a binary64 number is read back

The exact text of a number is laid out from the shortest digits that read back.  Whichever layout is
used, its parts are those of a numeral, and the numeral stands for the same decimal.
-/

namespace Worksheet

namespace Decimal

/-- The values of decimal digits. -/
def digitValues (cs : List Char) : List Nat :=
  cs.map fun c => c.toNat - 48

theorem ofDigits_zeros_append (count : Nat) (ds : List Nat) :
    ofDigits (List.replicate count 0 ++ ds) = ofDigits ds := by
  induction count with
  | zero => rfl
  | succ count ih => exact ih

theorem ofDigits_append_zeros (ds : List Nat) (count : Nat) :
    ofDigits (ds ++ List.replicate count 0) = ofDigits ds * 10 ^ count := by
  induction count with
  | zero => simp
  | succ count ih =>
      rw [List.replicate_succ', ← List.append_assoc, ofDigits, List.foldl_concat, ← ofDigits, ih]
      ring

theorem digitValues_zeros (count : Nat) :
    digitValues (zeros count) = List.replicate count 0 :=
  List.map_replicate

theorem isDigit_of_mem_zeros {count : Nat} : ∀ c ∈ zeros count, c.isDigit := fun _ hc =>
  (List.mem_replicate.mp hc).2 ▸ rfl

/-! ## Exponents -/

/-- The end of a number: nothing, or an exponent. -/
inductive IsExponentText : List Char → Option Int → Prop
  | none : IsExponentText [] none
  | some (e : Int) : IsExponentText (exponentChars e) (some e)

/-- An exponent is a sign and digits that stand for its magnitude. -/
theorem exists_exponentChars (e : Int) : ∃ sign digits, exponentChars e = 'e' :: sign :: digits ∧
    sign = (if e < 0 then '-' else '+') ∧ digits ≠ [] ∧ (∀ c ∈ digits, c.isDigit) ∧
      ofDigits (digitValues digits) = e.natAbs := by
  refine ⟨_, _, rfl, rfl, ?_, ?_, ?_⟩
  · exact List.append_ne_nil_of_right_ne_nil _ Nat.toDigits_ne_nil
  · exact List.forall_mem_append.mpr ⟨isDigit_of_mem_zeros, isDigit_of_mem_digitChars⟩
  · rw [digitValues, List.map_append, ← digitValues, digitValues_zeros, ofDigits_zeros_append,
      ofDigits_digitChars]

variable {exponent : List Char} {power : Option Int}

theorem IsExponentText.ends (h : IsExponentText exponent power) : EndsDigits exponent := by
  cases h with
  | none => simp [EndsDigits]
  | some e =>
      intro c hc
      obtain rfl : 'e' = c := Option.some.inj hc
      decide

theorem IsExponentText.readExponent (h : IsExponentText exponent power) :
    Numeral.readExponent? exponent = Option.some power := by
  cases h with
  | none => rfl
  | some e =>
      obtain ⟨sign, digits, he, hsign, hne, hdigits, hvalue⟩ := exists_exponentChars e
      have hspan : spanSign (sign :: digits) = (decide (e < 0), digits) := by
        rw [hsign]
        split
        · next hneg => rw [decide_eq_true hneg]; rfl
        · next hneg => rw [decide_eq_false hneg]; rfl
      have hread := spanDigits_of_isDigit hdigits
      obtain ⟨d, ds, hvalues⟩ : ∃ d ds, digits.map (fun c => c.toNat - 48) = d :: ds :=
        List.exists_cons_of_ne_nil (by simpa using hne)
      rw [digitValues, hvalues] at hvalue
      rw [he, Numeral.readExponent?, if_pos (by decide), hspan]
      dsimp only
      rw [hread, hvalues]
      dsimp only
      rw [hvalue]
      congr 2
      by_cases hneg : e < 0
      · rw [decide_eq_true hneg, if_pos rfl]
        omega
      · rw [decide_eq_false hneg, if_neg Bool.false_ne_true]
        omega

theorem IsExponentText.printable (h : IsExponentText exponent power) :
    ∀ c ∈ exponent, Json.IsPrintable c := by
  cases h with
  | none => exact List.forall_mem_nil _
  | some e =>
      obtain ⟨sign, digits, he, hsign, -, hdigits, -⟩ := exists_exponentChars e
      rw [he]
      refine List.forall_mem_cons.mpr ⟨by decide, List.forall_mem_cons.mpr ⟨?_, fun c hc =>
        Json.isPrintable_of_isDigit (hdigits c hc)⟩⟩
      rw [hsign]
      split <;> decide

theorem IsExponentText.lexeme (h : IsExponentText exponent power) :
    exponentLexeme exponent = exponent := by
  cases h with
  | none => rfl
  | some e =>
      obtain ⟨sign, digits, he, hsign, hne, hdigits, -⟩ := exists_exponentChars e
      have hsignLexeme : Json.signLexeme (sign :: digits) = [sign] := by
        rw [hsign]
        split <;> rfl
      have hdrop : ((sign :: digits).drop [sign].length).takeWhile Char.isDigit = digits :=
        List.takeWhile_eq_self_iff.mpr hdigits
      rw [he, Json.exponentLexeme_cons, if_pos (by decide), hsignLexeme]
      dsimp only
      rw [hdrop, if_neg (by simpa using hne)]
      rfl

end Decimal

namespace Json

open Decimal

/-- Whether a text is a number as a whole: digits, maybe behind a minus, of which no character is
left over. -/
structure IsNumberText (cs : List Char) (m : Number) : Prop where
  printable : ∀ c ∈ cs, IsPrintable c
  starts : ∃ c rest, cs = c :: rest ∧ (c.isDigit ∨ c = '-' ∧ ∃ d ∈ rest.head?, d.isDigit)
  lexeme : Token.numberLexeme? cs = some cs
  reads : ∃ n, Decimal.Numeral.read? cs = some n ∧ Number.ofNumeral n = .ok m

/-- Whether a text is a number without a sign as a whole. -/
structure IsMagnitudeText (cs : List Char) (n : Numeral) : Prop where
  printable : ∀ c ∈ cs, IsPrintable c
  starts : ∃ c rest, cs = c :: rest ∧ c.isDigit
  lexeme : Token.magnitudeLexeme? cs = some cs
  reads : Numeral.read? cs = some n

/-- A magnitude is a number, and so it is behind a minus. -/
theorem IsMagnitudeText.isNumberText {cs : List Char} {n : Numeral} (h : IsMagnitudeText cs n)
    (negative : Bool) (hn : n.negative = false) {m : Number}
    (hnumber : Number.ofNumeral { n with negative := negative } = .ok m) :
    IsNumberText ((if negative then ['-'] else []) ++ cs) m := by
  obtain ⟨hprintable, ⟨c, rest, rfl, hc⟩, hlexeme, hreads⟩ := h
  cases negative with
  | false =>
      have hsame : { n with negative := false } = n := by rw [← hn]
      refine ⟨hprintable, ⟨c, rest, rfl, .inl hc⟩, ?_, n, hreads, hsame ▸ hnumber⟩
      refine (numberLexeme?_of_ne ?_ rest).trans hlexeme
      rintro rfl
      exact absurd hc (by decide)
  | true =>
      refine ⟨List.forall_mem_cons.mpr ⟨by decide, hprintable⟩,
        ⟨'-', c :: rest, rfl, .inr ⟨rfl, c, rfl, hc⟩⟩, congrArg (Option.map _) hlexeme, _,
        read?_minus hc hreads, hnumber⟩

/-- The digits in front of a point: a zero alone, or digits of which the first one is no zero. -/
def IsWholeText (cs : List Char) : Prop :=
  cs = ['0'] ∨ ∃ d ds, cs = d :: ds ∧ d ≠ '0' ∧ ∀ c ∈ d :: ds, c.isDigit

section

variable {whole fraction exponent : List Char} {power : Option Int}

theorem IsWholeText.isDigit (h : IsWholeText whole) : ∀ c ∈ whole, c.isDigit := by
  rcases h with rfl | ⟨d, ds, rfl, -, hdigits⟩
  · exact List.forall_mem_singleton.mpr rfl
  · exact hdigits

theorem IsWholeText.starts (h : IsWholeText whole) : ∃ c rest, whole = c :: rest ∧ c.isDigit := by
  rcases h with rfl | ⟨d, ds, rfl, -, hdigits⟩
  · exact ⟨'0', [], rfl, rfl⟩
  · exact ⟨d, ds, rfl, hdigits d List.mem_cons_self⟩

theorem takeWhile_digits {digits more : List Char} (hdigits : ∀ c ∈ digits, c.isDigit)
    (hmore : ∀ c ∈ more.head?, ¬ c.isDigit) : (digits ++ more).takeWhile Char.isDigit = digits := by
  have hnone : more.takeWhile Char.isDigit = [] := by
    cases more with
    | nil => rfl
    | cons c more => exact List.takeWhile_cons_of_neg (hmore c rfl)
  rw [List.takeWhile_append_of_pos hdigits, hnone, List.append_nil]

theorem IsWholeText.lexeme (h : IsWholeText whole) {more : List Char}
    (hmore : ∀ c ∈ more.head?, ¬ c.isDigit) : wholeLexeme (whole ++ more) = whole := by
  rcases h with rfl | ⟨d, ds, rfl, hd, hdigits⟩
  · rfl
  · rw [List.cons_append, wholeLexeme_cons hd, ← List.cons_append, takeWhile_digits hdigits hmore]

theorem not_isDigit_of_endsDigits {cs : List Char} (h : EndsDigits cs) :
    ∀ c ∈ cs.head?, ¬ c.isDigit := by
  intro c hc hdigit
  have hnone := (h c hc).1
  have hlow : c.toNat < 128 := by
    have := Address.isDigit_iff.mp hdigit
    omega
  rw [Text.digitValue?, if_pos hlow, if_pos hdigit] at hnone
  cases hnone

theorem isMagnitudeText_whole (hwhole : IsWholeText whole)
    (hexponent : IsExponentText exponent power) :
    IsMagnitudeText (whole ++ exponent) ⟨false, digitValues whole, none, power⟩ := by
  obtain ⟨c, rest, hcons, hc⟩ := hwhole.starts
  refine ⟨List.forall_mem_append.mpr ⟨fun c hc => isPrintable_of_isDigit (hwhole.isDigit c hc),
    hexponent.printable⟩, ⟨c, rest ++ exponent, by rw [hcons, List.cons_append], hc⟩, ?_, ?_⟩
  · have hlexeme := hwhole.lexeme (not_isDigit_of_endsDigits hexponent.ends)
    have hfraction : fractionLexeme exponent = [] :=
      fractionLexeme_of_ne fun c hc => (hexponent.ends c hc).2
    simp only [magnitudeLexeme?_eq, hlexeme, List.drop_left, hfraction, List.length_nil,
      List.drop_zero, hexponent.lexeme, List.append_nil]
    rw [if_neg (by simp [hcons])]
  · exact read?_whole (by simp [hcons]) hwhole.isDigit hexponent.ends hexponent.readExponent

theorem isMagnitudeText_point (hwhole : IsWholeText whole) (hne : fraction ≠ [])
    (hfraction : ∀ c ∈ fraction, c.isDigit) (hexponent : IsExponentText exponent power) :
    IsMagnitudeText (whole ++ '.' :: (fraction ++ exponent))
      ⟨false, digitValues whole, some (digitValues fraction), power⟩ := by
  obtain ⟨c, rest, hcons, hc⟩ := hwhole.starts
  refine ⟨List.forall_mem_append.mpr ⟨fun c hc => isPrintable_of_isDigit (hwhole.isDigit c hc),
    List.forall_mem_cons.mpr ⟨by decide, List.forall_mem_append.mpr
      ⟨fun c hc => isPrintable_of_isDigit (hfraction c hc), hexponent.printable⟩⟩⟩,
    ⟨c, rest ++ '.' :: (fraction ++ exponent), by rw [hcons, List.cons_append], hc⟩, ?_, ?_⟩
  · have hpoint : ∀ c ∈ ('.' :: (fraction ++ exponent)).head?, ¬ c.isDigit := fun c hc =>
      Option.some.inj hc ▸ by decide
    have hlexeme := hwhole.lexeme hpoint
    have hdigits := takeWhile_digits hfraction (not_isDigit_of_endsDigits hexponent.ends)
    have hfractionLexeme : fractionLexeme ('.' :: (fraction ++ exponent)) = '.' :: fraction := by
      rw [fractionLexeme, hdigits]
      exact if_neg (by simpa using hne)
    have hdrop : ('.' :: (fraction ++ exponent)).drop ('.' :: fraction).length = exponent :=
      List.drop_left
    simp only [magnitudeLexeme?_eq, hlexeme, List.drop_left, hfractionLexeme, hdrop,
      hexponent.lexeme]
    rw [if_neg (by simp [hcons]), List.append_assoc, List.cons_append]
  · exact read?_point (.inr hne) hwhole.isDigit hfraction hexponent.ends hexponent.readExponent

end

/-! ## Layouts -/

/-- Whether a numeral stands for a magnitude, or for its opposite behind a minus. -/
structure Denotes (n : Numeral) (units : Nat) : Prop where
  unsigned : n.negative = false
  float : n.isInteger = false
  toBinary64 (negative : Bool) :
    { n with negative := negative }.toBinary64 = .finite negative units

theorem IsMagnitudeText.of_denotes {cs : List Char} {n : Numeral} {units : Nat}
    (h : IsMagnitudeText cs n) (hn : Denotes n units) (negative : Bool) :
    IsNumberText ((if negative then ['-'] else []) ++ cs) (.float (.finite negative units)) := by
  refine h.isNumberText negative hn.unsigned ?_
  have hfloat : { n with negative := negative }.isInteger = false := hn.float
  rw [Number.ofNumeral, hfloat, if_neg Bool.false_ne_true, hn.toBinary64]

variable {units : Nat} {d : Digits}

theorem Denotes.of_near (hunits : Binary64.Fits units) (hover : units < Binary64.overflowUnits)
    (hnear : IsNear units d) (hpos : 0 < d.digits) (hlt : d.digits < 2 ^ 120)
    (hlow : -400 ≤ d.exponent) (hhigh : d.exponent ≤ 360) {n : Numeral} (hsign : n.negative = false)
    (hfloat : n.isInteger = false) (hdigits : ofDigits (n.whole ++ n.fraction.getD []) = d.digits)
    (hexponent : n.exponent.getD 0 - ((n.fraction.getD []).length : Int) = d.exponent) :
    Denotes n units := by
  refine ⟨hsign, hfloat, fun negative => ?_⟩
  rw [Numeral.toBinary64]
  dsimp only
  rw [hdigits, hexponent, ofDecimal_of_near hunits hover hnear hpos hlt hlow hhigh]

theorem digitValues_append (cs ds : List Char) :
    digitValues (cs ++ ds) = digitValues cs ++ digitValues ds :=
  List.map_append

theorem length_digitValues (cs : List Char) : (digitValues cs).length = cs.length :=
  List.length_map _

section

variable (hunits : Binary64.Fits units) (hover : units < Binary64.overflowUnits)
  (h : IsChosen units d) (hhigh : d.exponent ≤ 330) {first : Char} {rest : List Char}
  (hfirst : first ≠ '0') (hdigits : ∀ c ∈ first :: rest, c.isDigit)
  (hvalue : ofDigits (digitValues (first :: rest)) = d.digits)

include hunits hover h hhigh

theorem Denotes.of_chosen {n : Numeral} (hsign : n.negative = false) (hfloat : n.isInteger = false)
    (hdigits : ofDigits (n.whole ++ n.fraction.getD []) = d.digits)
    (hexponent : n.exponent.getD 0 - ((n.fraction.getD []).length : Int) = d.exponent) :
    Denotes n units := by
  have hle := h.digits_le
  have hlow := h.low
  exact .of_near hunits hover h.near h.pos (by omega) (by omega) (by omega) hsign hfloat hdigits
    hexponent

include hdigits hvalue

/-- A point behind the first digit, and an exponent. -/
theorem exists_scientific (hfirst : first ≠ '0') {lead : Int}
    (hlead : lead = rest.length + d.exponent) :
    ∃ n, IsMagnitudeText (match rest with
      | [] => first :: exponentChars lead
      | _ => first :: '.' :: (rest ++ exponentChars lead)) n ∧ Denotes n units := by
  have hone : IsWholeText [first] := .inr ⟨first, [], rfl, hfirst, List.forall_mem_singleton.mpr
    (hdigits first List.mem_cons_self)⟩
  cases rest with
  | nil =>
      refine ⟨_, isMagnitudeText_whole hone (.some lead), .of_chosen hunits hover h hhigh rfl rfl ?_ ?_⟩
      · exact (congrArg ofDigits (List.append_nil _)).trans hvalue
      · rw [hlead]
        exact (Int.sub_zero _).trans (Int.zero_add _)
  | cons next rest =>
      refine ⟨_, isMagnitudeText_point hone (List.cons_ne_nil next rest)
        (fun c hc => hdigits c (List.mem_cons_of_mem _ hc)) (.some lead),
        .of_chosen hunits hover h hhigh rfl rfl hvalue ?_⟩
      dsimp only [Option.getD_some]
      rw [length_digitValues, hlead]
      omega

/-- Zeros between the point and the digits. -/
theorem exists_leadingZeros {count : Nat}
    (hcount : (count : Int) + (rest.length + 1) = -d.exponent) :
    ∃ n, IsMagnitudeText ('0' :: '.' :: (zeros count ++ first :: rest)) n ∧ Denotes n units := by
  have hfraction : ∀ c ∈ zeros count ++ first :: rest, c.isDigit :=
    List.forall_mem_append.mpr ⟨isDigit_of_mem_zeros, hdigits⟩
  have hne : zeros count ++ first :: rest ≠ [] :=
    List.append_ne_nil_of_right_ne_nil _ (List.cons_ne_nil first rest)
  have htext := isMagnitudeText_point (.inl rfl) hne hfraction .none
  rw [List.append_nil] at htext
  refine ⟨_, htext, .of_chosen hunits hover h hhigh rfl rfl ?_ ?_⟩
  · show ofDigits (List.replicate 1 0 ++ digitValues (zeros count ++ first :: rest)) = d.digits
    rw [ofDigits_zeros_append, digitValues_append, digitValues_zeros, ofDigits_zeros_append, hvalue]
  · dsimp only [Option.getD_some, Option.getD_none]
    rw [length_digitValues, List.length_append, List.length_cons, zeros, List.length_replicate]
    omega

/-- Zeros between the digits and the point, and one behind it. -/
theorem exists_trailingZeros (hfirst : first ≠ '0') (hnonneg : 0 ≤ d.exponent)
    (hlead : (rest.length : Int) + d.exponent < 16) :
    ∃ n, IsMagnitudeText (first :: rest ++ zeros d.exponent.toNat ++ ['.', '0']) n ∧
      Denotes n units := by
  have hall : ∀ c ∈ first :: (rest ++ zeros d.exponent.toNat), c.isDigit := by
    rw [← List.cons_append]
    exact List.forall_mem_append.mpr ⟨hdigits, isDigit_of_mem_zeros⟩
  refine ⟨_, isMagnitudeText_point (.inr ⟨first, _, rfl, hfirst, hall⟩) (List.cons_ne_nil '0' [])
    (List.forall_mem_singleton.mpr rfl) .none, ?_⟩
  have hshift : IsNear units ⟨d.digits * 10 ^ (d.exponent.toNat + 1), -1⟩ := by
    have hsame : (-1 : Int) + (d.exponent.toNat + 1 : Nat) = d.exponent := by omega
    rw [isNear_shift, hsame]
    exact h.near
  have hbound : d.digits * 10 ^ (d.exponent.toNat + 1) ≤ 10 ^ 17 * 10 ^ 17 :=
    Nat.mul_le_mul h.digits_le (Nat.pow_le_pow_right (by decide) (by omega))
  have hdigits' : ofDigits (digitValues (first :: (rest ++ zeros d.exponent.toNat)) ++ [0]) =
      d.digits * 10 ^ (d.exponent.toNat + 1) := by
    rw [← List.cons_append, digitValues_append, digitValues_zeros, List.append_assoc,
      ← List.replicate_succ', ofDigits_append_zeros, hvalue]
  exact .of_near hunits hover hshift (Nat.mul_pos h.pos (Nat.pow_pos (by decide)))
    (Nat.lt_of_le_of_lt hbound (by decide)) (by simp) (by simp) rfl rfl hdigits' rfl

/-- A point among the digits. -/
theorem exists_pointInside (hfirst : first ≠ '0') {count : Nat}
    (hcount : (count : Int) + 1 = (rest.length : Int) + 1 + d.exponent) (hneg : d.exponent < 0) :
    ∃ n, IsMagnitudeText
      ((first :: rest).take (count + 1) ++ '.' :: (first :: rest).drop (count + 1)) n ∧
        Denotes n units := by
  have hall : ∀ c ∈ (first :: rest).take (count + 1), c.isDigit := fun c hc =>
    hdigits c (List.mem_of_mem_take hc)
  have hwhole : IsWholeText ((first :: rest).take (count + 1)) :=
    .inr ⟨first, rest.take count, rfl, hfirst, hall⟩
  have hne : (first :: rest).drop (count + 1) ≠ [] := by
    rw [Ne, List.drop_eq_nil_iff, List.length_cons]
    omega
  have htext := isMagnitudeText_point hwhole hne (fun c hc => hdigits c (List.mem_of_mem_drop hc))
    .none
  rw [List.append_nil] at htext
  refine ⟨_, htext, .of_chosen hunits hover h hhigh rfl rfl ?_ ?_⟩
  · show ofDigits (digitValues _ ++ digitValues _) = d.digits
    rw [← digitValues_append, List.take_append_drop, hvalue]
  · dsimp only [Option.getD_some, Option.getD_none]
    rw [length_digitValues, List.length_drop, List.length_cons]
    omega

end

/-- **The exact text of a magnitude stands for it.** -/
theorem exists_write (hunits : Binary64.Fits units) (hover : units < Binary64.overflowUnits)
    (h : IsChosen units d) (hhigh : d.exponent ≤ 330) :
    ∃ n, IsMagnitudeText (Layout.exact.write d) n ∧ Denotes n units := by
  obtain ⟨first, rest, he, hfirst, hdigits⟩ := Address.digitChars_of_pos h.pos
  have hvalue : ofDigits (digitValues (first :: rest)) = d.digits := he ▸ ofDigits_digitChars d.digits
  have hlength : (first :: rest).length = rest.length + 1 := rfl
  unfold Layout.write
  rw [he]
  dsimp only
  split
  · have hlead : ((first :: rest).length : Int) + d.exponent - 1 = rest.length + d.exponent := by
      omega
    obtain ⟨n, hn⟩ := exists_scientific hunits hover h hhigh hdigits hvalue hfirst hlead
    cases rest <;> exact ⟨n, hn⟩
  next hplain =>
    have hlead : ¬ ((first :: rest).length + d.exponent - 1 < -4) ∧
        (first :: rest).length + d.exponent - 1 < 16 := by
      simpa [Layout.exact] using hplain
    split
    · exact exists_leadingZeros hunits hover h hhigh hdigits hvalue (by omega)
    · split
      · next hnonneg =>
        exact exists_trailingZeros hunits hover h hhigh hdigits hvalue hfirst hnonneg (by omega)
      · have hcount : ((first :: rest).length + d.exponent - 1 + 1).toNat =
            ((first :: rest).length + d.exponent - 1).toNat + 1 := by omega
        rw [hcount]
        exact exists_pointInside hunits hover h hhigh hdigits hvalue hfirst (by omega) (by omega)

theorem isNumberText_exactText {negative : Bool} {units : Nat}
    (h : (Binary64.finite negative units).Representable) :
    IsNumberText (exactText (.finite negative units)).toList (.float (.finite negative units)) := by
  obtain ⟨_, hunits, hover⟩ := h
  rw [exactText, write, String.toList_ofList]
  rcases Nat.eq_zero_or_pos units with rfl | hpos
  · have htext := isMagnitudeText_point (.inl rfl) (List.cons_ne_nil '0' [])
      (List.forall_mem_singleton.mpr rfl) .none
    exact htext.of_denotes ⟨rfl, rfl, fun _ => rfl⟩ negative
  · obtain ⟨hchosen, hhigh⟩ := isChosen_shortest hpos hunits hover
    obtain ⟨n, htext, hdenotes⟩ := exists_write hunits hover hchosen hhigh
    exact htext.of_denotes hdenotes negative

end Json

end Worksheet
