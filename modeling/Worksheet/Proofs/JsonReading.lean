import Worksheet.Json.Read
import Worksheet.Proofs.Failing
import Worksheet.Proofs.FloatTexts
import Worksheet.Proofs.JsonValues

/-!
# JSON text is read as it was written

A text spells a value if reading it, wherever a value can start and whatever ends it, comes to that
value.  The text of a plain value spells it.
-/

namespace Worksheet.Json

/-! ## Reading on -/

namespace Reading

/-- Reads on in a text. -/
def readText (r : Reading) (cs : List Char) : Except Fault Reading :=
  (tokens cs).foldlM step r

theorem readText_gap (r : Reading) {c : Char} (hc : Token.isGap c) (cs : List Char) :
    r.readText (c :: cs) = r.readText cs := by
  rw [readText, readText, tokens_gap hc]

theorem step_malformed (r : Reading) : step r .malformed = .error .malformed := by
  obtain ⟨frames, focus⟩ := r
  cases focus <;> rcases frames with _ | ⟨_ | _, _⟩ <;> rfl

theorem readText_token {r r' : Reading} {c : Char} {cs : List Char} {t : Token} {more : Nat}
    (hc : ¬ Token.isGap c) (hfirst : Token.first c cs = (t, more)) (hstep : step r t = .ok r') :
    r.readText (c :: cs) = r'.readText (cs.drop more) := by
  have ht : t ≠ .malformed := by
    rintro rfl
    rw [step_malformed] at hstep
    cases hstep
  rw [readText, tokens_cons hc hfirst ht, List.foldlM_cons, hstep]
  rfl

/-- A token of a single character. -/
theorem readText_symbol {r r' : Reading} {c : Char} {t : Token} (hc : ¬ Token.isGap c)
    (hfirst : ∀ cs, Token.first c cs = (t, 0)) (hstep : step r t = .ok r') (cs : List Char) :
    r.readText (c :: cs) = r'.readText cs :=
  readText_token hc (hfirst cs) hstep

end Reading

/-- Where a value can start. -/
def StartsValue (focus : Focus) : Prop :=
  focus = .value ∨ focus = .firstItem

theorem step_of_startsValue {focus : Focus} (hfocus : StartsValue focus) {frames : List Frame}
    {t : Token} {r : Reading} (h : startValue frames t = .ok r) :
    step ⟨frames, focus⟩ t = .ok r := by
  rcases hfocus with rfl | rfl
  · exact h
  · cases t with
    | endArray => cases h
    | _ => rcases frames with _ | ⟨_ | _, _⟩ <;> exact h

/-! ## Texts of values -/

/-- Whether a text stands for a value: it is printable, and it is read as the value is read back,
unless it nests too deeply. -/
structure IsTextOf (cs : List Char) (v : Json) : Prop where
  printable : ∀ c ∈ cs, IsPrintable c
  reads : ∀ {frames : List Frame} {focus : Focus} {rest : List Char}, StartsValue focus →
    EndsValue rest → frames.length + v.height ≤ maxDepth →
    Reading.readText ⟨frames, focus⟩ (cs ++ rest) =
      Reading.readText ⟨frames, .complete v.revived⟩ rest

/-- A text that is one token. -/
theorem IsTextOf.of_first {c : Char} {cs : List Char} {v : Json}
    (hprintable : ∀ d ∈ c :: cs, IsPrintable d) (hgap : ¬ Token.isGap c)
    (h : ∀ rest, EndsValue rest → ∃ t, Token.first c (cs ++ rest) = (t, cs.length) ∧
      ∀ frames, startValue frames t = .ok ⟨frames, .complete v.revived⟩) : IsTextOf (c :: cs) v where
  printable := hprintable
  reads {frames focus rest} hfocus hrest _ := by
    obtain ⟨t, hfirst, hstart⟩ := h rest hrest
    rw [List.cons_append,
      Reading.readText_token hgap hfirst (step_of_startsValue hfocus (hstart frames)),
      List.drop_left]

theorem isTextOf_null : IsTextOf ['n', 'u', 'l', 'l'] .null :=
  .of_first (by simp [IsPrintable]) (by decide) fun _ _ => ⟨.named .null, rfl, fun _ => rfl⟩

theorem isTextOf_true : IsTextOf ['t', 'r', 'u', 'e'] (.bool true) :=
  .of_first (by simp [IsPrintable]) (by decide) fun _ _ => ⟨.named (.bool true), rfl, fun _ => rfl⟩

theorem isTextOf_false : IsTextOf ['f', 'a', 'l', 's', 'e'] (.bool false) :=
  .of_first (by simp [IsPrintable]) (by decide) fun _ _ => ⟨.named (.bool false), rfl, fun _ => rfl⟩

/-! ### Strings -/

theorem first_string (s : List CodePoint) (rest : List Char) :
    Token.first '"' (bodyChars s ++ '"' :: rest) =
      (.text (joined s), (bodyChars s).length + 1) := by
  unfold Token.first
  dsimp only
  rw [stringBody?_bodyChars]
  dsimp only
  rw [unescape?_bodyChars]
  rfl

theorem isPrintable_brackets {left right : Char} {cs : List Char} (hleft : IsPrintable left)
    (hright : IsPrintable right) (h : ∀ c ∈ cs, IsPrintable c) :
    ∀ c ∈ left :: (cs ++ [right]), IsPrintable c := by
  intro c hc
  simp only [List.mem_cons, List.mem_append, List.not_mem_nil, or_false] at hc
  rcases hc with rfl | hc | rfl
  · exact hleft
  · exact h c hc
  · exact hright

theorem isPrintable_stringChars (s : List CodePoint) : ∀ c ∈ stringChars s, IsPrintable c :=
  isPrintable_brackets (by decide) (by decide) (isPrintable_bodyChars s)

theorem readText_string {r r' : Reading} {s : List CodePoint}
    (h : step r (.text (joined s)) = .ok r') (rest : List Char) :
    r.readText (stringChars s ++ rest) = r'.readText rest := by
  have hsplit : stringChars s ++ rest = '"' :: (bodyChars s ++ '"' :: rest) := by
    simp [stringChars, bodyChars]
  have hdrop : (bodyChars s ++ '"' :: rest).drop ((bodyChars s).length + 1) = rest := by
    simp [List.drop_append]
  rw [hsplit, Reading.readText_token (by decide) (first_string s rest) h, hdrop]

theorem isTextOf_text (s : List CodePoint) : IsTextOf (stringChars s) (.text s) :=
  ⟨isPrintable_stringChars s, fun hfocus _ _ =>
    readText_string (step_of_startsValue hfocus rfl) _⟩

/-! ### Numbers -/

theorem startValue_number {n : Decimal.Numeral} {m : Number} (h : Number.ofNumeral n = .ok m)
    (frames : List Frame) :
    startValue frames (.number n) = .ok ⟨frames, .complete (.number m)⟩ := by
  unfold startValue
  dsimp only
  rw [h]

/-- A text that is a number as a whole stands for it. -/
theorem IsNumberText.isTextOf {cs : List Char} {m : Number} (h : IsNumberText cs m) :
    IsTextOf cs (.number m) := by
  obtain ⟨hprintable, ⟨c, rest, rfl, hstarts⟩, hlexeme, n, hread, hnumber⟩ := h
  have hgap : ¬ Token.isGap c := by
    rcases hstarts with hc | ⟨rfl, _⟩
    · exact not_isGap_of_isDigit hc
    · decide
  exact .of_first hprintable hgap fun more hmore =>
    ⟨_, first_number hstarts hmore.endsNumber hlexeme hread, startValue_number hnumber⟩

theorem isNumberText_int {i : Int} (h : i.natAbs < 10 ^ Number.maxDigits) :
    IsNumberText (toString i).toList (.int i) := by
  obtain ⟨numeral, hread, hnumber⟩ := Number.ofNumeral_toString h
  cases i with
  | ofNat n =>
      have htext : (toString (Int.ofNat n)).toList = Decimal.digitChars n :=
        Number.toList_toString_ofNat n
      have hlexeme := magnitudeLexeme?_digitChars n
      obtain ⟨d, digits, he, hdigits⟩ := exists_digitChars n
      rw [htext, he] at hread ⊢
      rw [he] at hlexeme
      have hd := hdigits d List.mem_cons_self
      refine ⟨fun c hc => isPrintable_of_isDigit (hdigits c hc), ⟨d, digits, rfl, .inl hd⟩, ?_,
        numeral, hread, hnumber⟩
      rwa [numberLexeme?_of_ne]
      rintro rfl
      exact absurd hd (by decide)
  | negSucc n =>
      have hlexeme := magnitudeLexeme?_digitChars (n + 1)
      obtain ⟨d, digits, he, hdigits⟩ := exists_digitChars (n + 1)
      rw [Number.toList_toString_negSucc, he] at hread ⊢
      rw [he] at hlexeme
      have hd := hdigits d List.mem_cons_self
      refine ⟨fun c hc => ?_, ⟨'-', d :: digits, rfl, .inr ⟨rfl, d, rfl, hd⟩⟩,
        congrArg (Option.map _) hlexeme, numeral, hread, hnumber⟩
      rcases List.mem_cons.mp hc with rfl | hc
      · decide
      · exact isPrintable_of_isDigit (hdigits c hc)

theorem isTextOf_nan : IsTextOf ['N', 'a', 'N'] (.number (.float .nan)) :=
  .of_first (by simp [IsPrintable]) (by decide) fun _ _ =>
    ⟨.named (.number (.float .nan)), rfl, fun _ => rfl⟩

theorem isTextOf_infinite (negative : Bool) :
    IsTextOf ((if negative then ['-'] else []) ++ ['I', 'n', 'f', 'i', 'n', 'i', 't', 'y'])
      (.number (.float (.infinite negative))) := by
  cases negative with
  | false =>
      exact .of_first (by simp [IsPrintable]) (by decide) fun _ _ =>
        ⟨.named (.number (.float (.infinite false))), rfl, fun _ => rfl⟩
  | true =>
      exact .of_first (by simp [IsPrintable]) (by decide) fun _ _ =>
        ⟨.named (.number (.float (.infinite true))), rfl, fun _ => rfl⟩

theorem isTextOf_number {n : Number} {cs : List Char} (hn : n.Representable)
    (h : numberChars n = .ok cs) : IsTextOf cs (.number n) := by
  cases n with
  | int i =>
      obtain ⟨t, ht, h⟩ := exists_of_bind h
      have hi := Number.exists_intText_iff.mp ⟨t, ht⟩
      rw [Number.intText_of_lt hi] at ht
      obtain rfl := Except.ok.inj ht
      obtain rfl := Except.ok.inj h
      exact (isNumberText_int hi).isTextOf
  | float x =>
      cases x with
      | finite negative units =>
          obtain rfl := Except.ok.inj h
          exact (isNumberText_exactText hn).isTextOf
      | infinite negative =>
          obtain rfl := Except.ok.inj h
          exact isTextOf_infinite negative
      | nan =>
          obtain rfl := Except.ok.inj h
          exact isTextOf_nan

/-! ### Brackets -/

theorem left_of_forall₂ {α β : Type} {R : α → β → Prop} {P : α → Prop} {as : List α}
    {bs : List β} (h : List.Forall₂ R as bs) (hP : ∀ a b, R a b → P a) : ∀ a ∈ as, P a :=
  ((List.forall₂_and_left as bs).mp (h.imp fun a b hab => ⟨hP a b hab, hab⟩)).1

theorem isPrintable_joinWith {parts : List (List Char)} (h : ∀ p ∈ parts, ∀ c ∈ p, IsPrintable c) :
    ∀ c ∈ joinWith [',', ' '] parts, IsPrintable c := by
  induction parts with
  | nil => simp [joinWith]
  | cons p parts ih =>
      have hp := h p List.mem_cons_self
      have hrest := ih fun q hq => h q (List.mem_cons_of_mem p hq)
      cases parts with
      | nil => exact hp
      | cons q parts =>
          intro c hc
          rw [joinWith] at hc
          · simp only [List.mem_append, List.mem_cons, List.not_mem_nil, or_false] at hc
            rcases hc with (hc | rfl | rfl) | hc
            · exact hp c hc
            · decide
            · decide
            · exact hrest c hc
          · exact List.cons_ne_nil q parts

theorem joinWith_append (part part' : List Char) (parts : List (List Char)) (cs : List Char) :
    joinWith [',', ' '] (part :: part' :: parts) ++ cs =
      part ++ ',' :: ' ' :: (joinWith [',', ' '] (part' :: parts) ++ cs) := by
  rw [joinWith]
  · simp
  · exact List.cons_ne_nil part' parts

/-- Parts between brackets, the first of which is a token of its own. -/
theorem IsTextOf.of_brackets {left right : Char} {t : Token} {parts : List (List Char)} {v : Json}
    (hleft : IsPrintable left) (hright : IsPrintable right) (hgap : ¬ Token.isGap left)
    (hfirst : ∀ cs, Token.first left cs = (t, 0)) (hparts : ∀ p ∈ parts, ∀ c ∈ p, IsPrintable c)
    (h : ∀ frames rest, frames.length + v.height ≤ maxDepth → ∃ r, startValue frames t = .ok r ∧
      r.readText (joinWith [',', ' '] parts ++ right :: rest) =
        Reading.readText ⟨frames, .complete v.revived⟩ rest) :
    IsTextOf (left :: (joinWith [',', ' '] parts ++ [right])) v where
  printable := isPrintable_brackets hleft hright (isPrintable_joinWith hparts)
  reads {frames focus rest} hfocus _ hheight := by
    obtain ⟨r, hstart, hread⟩ := h frames rest hheight
    rw [List.cons_append, List.append_assoc, List.singleton_append,
      Reading.readText_symbol hgap hfirst (step_of_startsValue hfocus hstart), hread]

/-! ### Arrays -/

/-- Reading from the comma on that is between two parts. -/
theorem readText_comma {r r' : Reading} (h : step r .comma = .ok r') (cs : List Char) :
    r.readText (',' :: ' ' :: cs) = r'.readText cs := by
  rw [Reading.readText_symbol (by decide) (fun _ => rfl) h, Reading.readText_gap r' (by decide)]

/-- A value is read within a frame as well. -/
theorem IsTextOf.reads_within {cs : List Char} {v : Json} (h : IsTextOf cs v) (frame : Frame)
    {frames : List Frame} {focus : Focus} {rest : List Char} (hfocus : StartsValue focus)
    (hrest : EndsValue rest) (hheight : frames.length + 1 + v.height ≤ maxDepth) :
    Reading.readText ⟨frame :: frames, focus⟩ (cs ++ rest) =
      Reading.readText ⟨frame :: frames, .complete v.revived⟩ rest :=
  h.reads hfocus hrest hheight

theorem endsValue_cons {c : Char} (h : c = ',' ∨ c = ']' ∨ c = '\x7d') (cs : List Char) :
    EndsValue (c :: cs) :=
  fun _ hd => Option.some.inj hd ▸ h

/-- The items of an array are read one by one up to its end. -/
theorem readText_items {part : List Char} {v : Json} {parts : List (List Char)}
    {items : List Json} (hpart : IsTextOf part v) (hparts : List.Forall₂ IsTextOf parts items)
    {acc : List Json} {frames : List Frame} {focus : Focus} (hfocus : StartsValue focus)
    (hheight : ∀ w ∈ v :: items, frames.length + 1 + w.height ≤ maxDepth) (rest : List Char) :
    Reading.readText ⟨.array acc :: frames, focus⟩
        (joinWith [',', ' '] (part :: parts) ++ ']' :: rest) =
      Reading.readText ⟨frames, .complete (.array (acc.reverse ++ revivedItems (v :: items)))⟩ rest := by
  induction hparts generalizing part v acc focus with
  | nil =>
      have hv := hheight v List.mem_cons_self
      rw [joinWith, hpart.reads_within _ hfocus (endsValue_cons (by simp) rest) hv,
        Reading.readText_symbol (by decide) (fun _ => rfl) rfl, List.reverse_cons]
      rfl
  | @cons part' v' parts items hpart' hparts ih =>
      have hv := hheight v List.mem_cons_self
      have hrest := fun w hw => hheight w (List.mem_cons_of_mem v hw)
      rw [joinWith_append, hpart.reads_within _ hfocus (endsValue_cons (by simp) _) hv,
        readText_comma rfl, ih hpart' (.inl rfl) hrest, List.reverse_cons, List.append_assoc]
      rfl

theorem isTextOf_array {parts : List (List Char)} {items : List Json}
    (h : List.Forall₂ IsTextOf parts items) :
    IsTextOf ('[' :: (joinWith [',', ' '] parts ++ [']'])) (.array items) := by
  refine .of_brackets (by decide) (by decide) (by decide) (fun _ => rfl)
    (left_of_forall₂ h fun _ _ hp => hp.printable) fun frames rest hheight => ?_
  rw [height] at hheight
  refine ⟨⟨.array [] :: frames, .firstItem⟩, if_neg (by omega), ?_⟩
  have hitems : ∀ v ∈ items, frames.length + 1 + v.height ≤ maxDepth := fun v hv => by
    have := heightItems_le_iff.mp (Nat.le_refl _) v hv
    omega
  cases h with
  | nil => exact Reading.readText_symbol (by decide) (fun _ => rfl) rfl rest
  | cons hpart hparts => exact readText_items hpart hparts (.inr rfl) hitems rest

/-! ### Objects -/

/-- Whether a text stands for an entry: its key, a colon, and its value. -/
def IsTextOfEntry (part : List Char) (e : List CodePoint × Json) : Prop :=
  ∃ cs, part = stringChars e.1 ++ [':', ' '] ++ cs ∧ IsTextOf cs e.2

theorem IsTextOfEntry.printable {part : List Char} {e : List CodePoint × Json}
    (h : IsTextOfEntry part e) : ∀ c ∈ part, IsPrintable c := by
  obtain ⟨cs, rfl, hcs⟩ := h
  intro c hc
  simp only [List.mem_append, List.mem_cons, List.not_mem_nil, or_false] at hc
  rcases hc with (hc | rfl | rfl) | hc
  · exact isPrintable_stringChars e.1 c hc
  · decide
  · decide
  · exact hcs.printable c hc

/-- An entry is read where its key can stand. -/
theorem readText_entry {part : List Char} {e : List CodePoint × Json} (h : IsTextOfEntry part e)
    {r : Reading} {frames : List Frame} {acc : List (List CodePoint × Json)}
    (hr : ∀ k, step r (.text k) = .ok ⟨frames, .colon acc k⟩)
    (hheight : frames.length + 1 + e.2.height ≤ maxDepth) {rest : List Char}
    (hrest : EndsValue rest) :
    r.readText (part ++ rest) =
      Reading.readText ⟨.object acc (joined e.1) :: frames, .complete e.2.revived⟩ rest := by
  obtain ⟨cs, rfl, hcs⟩ := h
  rw [List.append_assoc, List.append_assoc, readText_string (hr _), List.cons_append,
    Reading.readText_symbol (by decide) (fun _ => rfl) rfl, List.singleton_append,
    Reading.readText_gap _ (by decide)]
  exact hcs.reads_within _ (.inl rfl) hrest hheight

/-- The entries of an object are read one by one up to its end. -/
theorem readText_entries {part : List Char} {e : List CodePoint × Json}
    {parts : List (List Char)} {entries : List (List CodePoint × Json)}
    (hpart : IsTextOfEntry part e) (hparts : List.Forall₂ IsTextOfEntry parts entries)
    {r : Reading} {frames : List Frame} (acc : List (List CodePoint × Json))
    (hr : ∀ k, step r (.text k) = .ok ⟨frames, .colon acc k⟩)
    (hheight : ∀ e' ∈ e :: entries, frames.length + 1 + e'.2.height ≤ maxDepth)
    (rest : List Char) :
    r.readText (joinWith [',', ' '] (part :: parts) ++ '\x7d' :: rest) =
      Reading.readText
        ⟨frames, .complete (.object (putAll acc (revivedEntries (e :: entries))))⟩ rest := by
  induction hparts generalizing part e r acc with
  | nil =>
      have he := hheight e List.mem_cons_self
      rw [joinWith, readText_entry hpart hr he (endsValue_cons (by simp) rest),
        Reading.readText_symbol (by decide) (fun _ => rfl) rfl]
      rfl
  | @cons part' e' parts entries hpart' hparts ih =>
      have he := hheight e List.mem_cons_self
      have hrest := fun w hw => hheight w (List.mem_cons_of_mem e hw)
      rw [joinWith_append, readText_entry hpart hr he (endsValue_cons (by simp) _),
        readText_comma rfl]
      exact ih hpart' _ (fun _ => rfl) hrest

theorem isTextOf_object {parts : List (List Char)} {entries : List (List CodePoint × Json)}
    (h : List.Forall₂ IsTextOfEntry parts entries) :
    IsTextOf ('\x7b' :: (joinWith [',', ' '] parts ++ ['\x7d'])) (.object entries) := by
  refine .of_brackets (by decide) (by decide) (by decide) (fun _ => rfl)
    (left_of_forall₂ h fun _ _ hp => hp.printable) fun frames rest hheight => ?_
  rw [height] at hheight
  refine ⟨⟨.object [] [] :: frames, .firstKey⟩, if_neg (by omega), ?_⟩
  have hentries : ∀ e ∈ entries, frames.length + 1 + e.2.height ≤ maxDepth := fun e he => by
    have := heightEntries_le_iff.mp (Nat.le_refl _) e he
    omega
  cases h with
  | nil => exact Reading.readText_symbol (by decide) (fun _ => rfl) rfl rest
  | cons hpart hparts =>
      exact readText_entries hpart hparts [] (fun _ => rfl) hentries rest

/-! ## Writing and reading -/

theorem isTextOf_compactItems {items : List Json} {parts : List (List Char)}
    (h : ∀ v ∈ items, ∀ cs, v.compact = .ok cs → IsTextOf cs v)
    (hparts : compactItems items = .ok parts) : List.Forall₂ IsTextOf parts items := by
  induction items generalizing parts with
  | nil =>
      obtain rfl := Except.ok.inj hparts
      exact .nil
  | cons v items ih =>
      obtain ⟨cs, hcs, hrest⟩ := exists_of_bind hparts
      obtain ⟨tail, htail, hall⟩ := exists_of_bind hrest
      obtain rfl := Except.ok.inj hall
      exact .cons (h v List.mem_cons_self cs hcs)
        (ih (fun w hw => h w (List.mem_cons_of_mem v hw)) htail)

theorem isTextOfEntry_compactEntries {entries : List (List CodePoint × Json)}
    {parts : List (List Char)} (h : ∀ e ∈ entries, ∀ cs, e.2.compact = .ok cs → IsTextOf cs e.2)
    (hparts : compactEntries entries = .ok parts) : List.Forall₂ IsTextOfEntry parts entries := by
  induction entries generalizing parts with
  | nil =>
      obtain rfl := Except.ok.inj hparts
      exact .nil
  | cons e entries ih =>
      obtain ⟨cs, hcs, hrest⟩ := exists_of_bind hparts
      obtain ⟨tail, htail, hall⟩ := exists_of_bind hrest
      obtain rfl := Except.ok.inj hall
      exact .cons ⟨cs, rfl, h e List.mem_cons_self cs hcs⟩
        (ih (fun w hw => h w (List.mem_cons_of_mem e hw)) htail)

/-- **What a value is written as stands for it.** -/
theorem IsProper.isTextOf {v : Json} (h : v.IsProper) :
    ∀ cs, v.compact = .ok cs → IsTextOf cs v := by
  induction h with
  | null =>
      rintro cs ⟨⟩
      exact isTextOf_null
  | bool b =>
      cases b with
      | true =>
          rintro cs ⟨⟩
          exact isTextOf_true
      | false =>
          rintro cs ⟨⟩
          exact isTextOf_false
  | number hn => exact fun cs hcs => isTextOf_number hn hcs
  | text s =>
      rintro cs ⟨⟩
      exact isTextOf_text s
  | array _ ih =>
      intro cs hcs
      rw [compact] at hcs
      obtain ⟨parts, hparts, hall⟩ := exists_of_bind hcs
      obtain rfl := Except.ok.inj hall
      exact isTextOf_array (isTextOf_compactItems ih hparts)
  | object _ ih =>
      intro cs hcs
      rw [compact] at hcs
      obtain ⟨parts, hparts, hall⟩ := exists_of_bind hcs
      obtain rfl := Except.ok.inj hall
      exact isTextOf_object (isTextOfEntry_compactEntries ih hparts)

theorem compactItems_ok {items : List Json} (h : ∀ v ∈ items, ∃ cs, v.compact = .ok cs) :
    ∃ parts, compactItems items = .ok parts := by
  induction items with
  | nil => exact ⟨[], rfl⟩
  | cons v items ih =>
      rw [compactItems]
      refine ok_bind (h v List.mem_cons_self) fun cs _ => ok_bind ?_ fun parts _ => ⟨_, rfl⟩
      exact ih fun w hw => h w (List.mem_cons_of_mem v hw)

theorem compactEntries_ok {entries : List (List CodePoint × Json)}
    (h : ∀ e ∈ entries, ∃ cs, e.2.compact = .ok cs) :
    ∃ parts, compactEntries entries = .ok parts := by
  induction entries with
  | nil => exact ⟨[], rfl⟩
  | cons e entries ih =>
      rw [compactEntries]
      refine ok_bind (h e List.mem_cons_self) fun cs _ => ok_bind ?_ fun parts _ => ⟨_, rfl⟩
      exact ih fun w hw => h w (List.mem_cons_of_mem e hw)

/-- An object is not written if one of its values is not. -/
theorem compactEntries_error {entries : List (List CodePoint × Json)}
    (h : ∃ e ∈ entries, ∃ cause, e.2.compact = .error cause) :
    ∃ cause, compactEntries entries = .error cause := by
  induction entries with
  | nil => simp at h
  | cons e entries ih =>
      obtain ⟨k, v⟩ := e
      cases hv : v.compact with
      | error cause =>
          refine ⟨cause, ?_⟩
          rw [compactEntries, hv]
          rfl
      | ok cs =>
          obtain ⟨e', he', cause, hcause⟩ := h
          have hrest : e' ∈ entries := by
            rcases List.mem_cons.mp he' with rfl | he'
            · rw [hv] at hcause
              cases hcause
            · exact he'
          obtain ⟨cause, hentries⟩ := ih ⟨e', hrest, _, hcause⟩
          refine ⟨cause, ?_⟩
          rw [compactEntries, hv, hentries]
          rfl

/-- A value of standard JSON can be written. -/
theorem IsClean.compact_ok {v : Json} (h : IsClean IsStandardNumber v) :
    ∃ cs, v.compact = .ok cs := by
  induction h with
  | null => exact ⟨_, rfl⟩
  | bool b => cases b <;> exact ⟨_, rfl⟩
  | number h => exact h.writable
  | text h => exact ⟨_, rfl⟩
  | array _ ih =>
      rw [compact]
      exact ok_bind (compactItems_ok ih) fun parts _ => ⟨_, rfl⟩
  | object _ _ _ ih =>
      rw [compact]
      exact ok_bind (compactEntries_ok ih) fun parts _ => ⟨_, rfl⟩

/-- **A text that stands for a value is read as this value is read back**, unless it nests too
deeply. -/
theorem IsTextOf.read {cs : List Char} {v : Json} (h : IsTextOf cs v)
    (hheight : v.height ≤ maxDepth) : Json.read cs = .ok v.revived := by
  have hend : EndsValue [] := fun _ hc => absurd hc (by simp)
  have hroom : ([] : List Frame).length + v.height ≤ maxDepth := by simpa using hheight
  have hread := h.reads (.inl rfl) hend hroom
  rw [List.append_nil] at hread
  unfold Json.read
  rw [← Reading.readText, hread, Reading.readText, tokens, List.dropWhile_nil]
  rfl

end Worksheet.Json
