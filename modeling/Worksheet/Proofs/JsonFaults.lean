import Worksheet.Proofs.JsonReading

/-!
# Why JSON text is not read

A text that is no JSON is refused as malformed.  Reading stops for another reason only where an
integer has more digits than are read, or where more brackets are open than are kept track of.
-/

namespace Worksheet.Json

/-! ## Brackets -/

/-- Whether a token starts an array or an object. -/
def Token.opens : Token → Bool
  | .beginArray | .beginObject => true
  | _ => false

/-- A bracket at which an array or an object starts. -/
def isOpening (c : Char) : Bool :=
  c == '[' || c == '\x7b'

/-- Only a bracket starts an array or an object. -/
theorem Leads.isOpening {c : Char} {cs : List Char} {t : Token} (h : Leads c cs t)
    (ht : t.opens) : isOpening c := by
  have hsymbols : ∀ e ∈ symbols, e.2.opens → Json.isOpening e.1 := by decide
  cases h with
  | symbol h => exact hsymbols _ h ht
  | text | named | number => cases ht

theorem Cuts.leads_of_mem {cs : List Char} {ts : List Token} (h : Cuts cs ts) {t : Token}
    (hmem : t ∈ ts) (ht : t ≠ .malformed) : ∃ c rest, c :: rest <:+ cs ∧ Leads c rest t := by
  induction h with
  | done hgap => cases hmem
  | malformed hgap hc hfirst => exact absurd (List.mem_singleton.mp hmem) ht
  | @token gap c cs _ more ts hgap hc hfirst ht' _ ih =>
      have hsuffix : c :: cs <:+ gap ++ c :: cs := List.suffix_append gap (c :: cs)
      rcases List.mem_cons.mp hmem with rfl | hmem
      · exact ⟨c, cs, hsuffix, leads_of_first hfirst ht⟩
      · obtain ⟨d, rest, hrest, hleads⟩ := ih hmem
        have htail := (List.drop_suffix more cs).trans (List.suffix_cons c cs)
        exact ⟨d, rest, hrest.trans (htail.trans hsuffix), hleads⟩

/-- No more arrays and objects start than there are brackets for them. -/
theorem Cuts.countP_opens_le {cs : List Char} {ts : List Token} (h : Cuts cs ts) :
    ts.countP Token.opens ≤ cs.countP isOpening := by
  induction h with
  | done hgap => exact Nat.zero_le _
  | malformed hgap hc hfirst => exact Nat.zero_le _
  | @token gap c cs t more ts hgap hc hfirst ht _ ih =>
      have hrest := (List.drop_sublist more cs).countP_le (p := isOpening)
      rw [List.countP_append, List.countP_cons, List.countP_cons]
      by_cases hopens : t.opens
      · rw [if_pos hopens, if_pos ((leads_of_first hfirst ht).isOpening hopens)]
        omega
      · rw [if_neg hopens]
        omega

/-! ## Steps -/

/-- What reading a token does, if it can be read. -/
inductive Steps : Reading → Token → Reading → Prop
  | leaf {frames : List Frame} {focus : Focus} {t : Token} {v : Json} (hfocus : StartsValue focus)
      (h : ∀ frames, startValue frames t = .ok ⟨frames, .complete v⟩) :
      Steps ⟨frames, focus⟩ t ⟨frames, .complete v⟩
  | beginArray {frames : List Frame} {focus : Focus} (hfocus : StartsValue focus)
      (hroom : frames.length < maxDepth) :
      Steps ⟨frames, focus⟩ .beginArray ⟨.array [] :: frames, .firstItem⟩
  | beginObject {frames : List Frame} {focus : Focus} (hfocus : StartsValue focus)
      (hroom : frames.length < maxDepth) :
      Steps ⟨frames, focus⟩ .beginObject ⟨.object [] [] :: frames, .firstKey⟩
  | emptyArray {frames : List Frame} {items : List Json} :
      Steps ⟨.array items :: frames, .firstItem⟩ .endArray ⟨frames, .complete (.array [])⟩
  | emptyObject {frames : List Frame} {entries : List (List CodePoint × Json)}
      {k : List CodePoint} :
      Steps ⟨.object entries k :: frames, .firstKey⟩ .endObject ⟨frames, .complete (.object entries)⟩
  | firstKey {frames : List Frame} {entries : List (List CodePoint × Json)}
      {k k' : List CodePoint} :
      Steps ⟨.object entries k' :: frames, .firstKey⟩ (.text k) ⟨frames, .colon entries k⟩
  | key {frames : List Frame} {entries : List (List CodePoint × Json)} {k : List CodePoint} :
      Steps ⟨frames, .key entries⟩ (.text k) ⟨frames, .colon entries k⟩
  | colon {frames : List Frame} {entries : List (List CodePoint × Json)} {k : List CodePoint} :
      Steps ⟨frames, .colon entries k⟩ .colon ⟨.object entries k :: frames, .value⟩
  | nextItem {frames : List Frame} {items : List Json} {v : Json} :
      Steps ⟨.array items :: frames, .complete v⟩ .comma ⟨.array (v :: items) :: frames, .value⟩
  | endArray {frames : List Frame} {items : List Json} {v : Json} :
      Steps ⟨.array items :: frames, .complete v⟩ .endArray
        ⟨frames, .complete (.array (v :: items).reverse)⟩
  | nextKey {frames : List Frame} {entries : List (List CodePoint × Json)} {k : List CodePoint}
      {v : Json} :
      Steps ⟨.object entries k :: frames, .complete v⟩ .comma ⟨frames, .key (put k v entries)⟩
  | endObject {frames : List Frame} {entries : List (List CodePoint × Json)}
      {k : List CodePoint} {v : Json} :
      Steps ⟨.object entries k :: frames, .complete v⟩ .endObject
        ⟨frames, .complete (.object (put k v entries))⟩

theorem steps_of_startValue {frames : List Frame} {focus : Focus} {t : Token} {r : Reading}
    (hfocus : StartsValue focus) (h : startValue frames t = .ok r) :
    Steps ⟨frames, focus⟩ t r := by
  cases t with
  | named v =>
      obtain rfl := Except.ok.inj h
      exact .leaf hfocus fun _ => rfl
  | text s =>
      obtain rfl := Except.ok.inj h
      exact .leaf hfocus fun _ => rfl
  | number n =>
      unfold startValue at h
      dsimp only at h
      split at h
      · next hnumber =>
        obtain rfl := Except.ok.inj h
        exact .leaf hfocus (startValue_number hnumber)
      · cases h
  | beginArray =>
      unfold startValue at h
      dsimp only at h
      split at h
      · cases h
      · next hroom =>
        obtain rfl := Except.ok.inj h
        exact .beginArray hfocus (Nat.not_le.mp hroom)
  | beginObject =>
      unfold startValue at h
      dsimp only at h
      split at h
      · cases h
      · next hroom =>
        obtain rfl := Except.ok.inj h
        exact .beginObject hfocus (Nat.not_le.mp hroom)
  | endArray | endObject | comma | colon | malformed => cases h

theorem steps_of_step {r r' : Reading} {t : Token} (h : step r t = .ok r') : Steps r t r' := by
  obtain ⟨frames, focus⟩ := r
  unfold step at h
  dsimp only at h
  split at h
  case h_1 => exact steps_of_startValue (.inl rfl) h
  case h_3 => exact steps_of_startValue (.inr rfl) h
  case h_12 => cases h
  all_goals
    obtain rfl := Except.ok.inj h
    constructor

/-- Why a token is not read at which a value starts. -/
theorem startValue_error {frames : List Frame} {t : Token} {fault : Fault}
    (h : startValue frames t = .error fault) :
    fault = .malformed ∨
      (∃ n, t = .number n ∧ n.isInteger ∧ Number.maxDigits < n.whole.length ∧
        fault = .integerTooLong n.whole.length) ∨
      t.opens ∧ maxDepth ≤ frames.length ∧ fault = .tooDeep := by
  cases t with
  | named | text => cases h
  | number n =>
      unfold startValue at h
      dsimp only at h
      split at h
      · cases h
      · next hnumber =>
        unfold Number.ofNumeral at hnumber
        split at hnumber
        · next hinteger =>
          split at hnumber
          · next hlong =>
            exact .inr (.inl ⟨n, rfl, hinteger, hlong, (Except.error.inj h).symm⟩)
          · cases hnumber
        · cases hnumber
  | beginArray =>
      unfold startValue at h
      dsimp only at h
      split at h
      · next hfull => exact .inr (.inr ⟨rfl, hfull, (Except.error.inj h).symm⟩)
      · cases h
  | beginObject =>
      unfold startValue at h
      dsimp only at h
      split at h
      · next hfull => exact .inr (.inr ⟨rfl, hfull, (Except.error.inj h).symm⟩)
      · cases h
  | endArray | endObject | comma | colon | malformed => exact .inl (Except.error.inj h).symm

/-- How many arrays and objects are open. -/
def Reading.depth (r : Reading) : Nat :=
  match r.focus with
  | .key _ | .colon _ _ => r.frames.length + 1
  | _ => r.frames.length

/-- Why a token is not read. -/
theorem step_error {r : Reading} {t : Token} {fault : Fault} (h : step r t = .error fault) :
    fault = .malformed ∨
      (∃ n, t = .number n ∧ n.isInteger ∧ Number.maxDigits < n.whole.length ∧
        fault = .integerTooLong n.whole.length) ∨
      t.opens ∧ maxDepth ≤ r.depth ∧ fault = .tooDeep := by
  obtain ⟨frames, focus⟩ := r
  unfold step at h
  dsimp only at h
  split at h
  case h_1 | h_3 => exact startValue_error h
  case h_12 => exact .inl (Except.error.inj h).symm
  all_goals cases h

theorem Steps.depth_le {r r' : Reading} {t : Token} (h : Steps r t r') :
    r'.depth ≤ r.depth + if t.opens then 1 else 0 := by
  cases h with
  | leaf hfocus _ => rcases hfocus with rfl | rfl <;> exact Nat.le_add_right _ _
  | beginArray hfocus _ => rcases hfocus with rfl | rfl <;> exact Nat.le_refl _
  | beginObject hfocus _ => rcases hfocus with rfl | rfl <;> exact Nat.le_refl _
  | key => exact Nat.le_refl _
  | colon => exact Nat.le_refl _
  | firstKey => exact Nat.le_refl _
  | nextItem => exact Nat.le_refl _
  | nextKey => exact Nat.le_refl _
  | emptyArray => exact Nat.le_succ _
  | emptyObject => exact Nat.le_succ _
  | endArray => exact Nat.le_succ _
  | endObject => exact Nat.le_succ _

/-! ## Runs -/

/-- Reading goes as far as a first token that is not read. -/
theorem exists_of_foldlM_error {r : Reading} {ts : List Token} {fault : Fault}
    (h : ts.foldlM step r = .error fault) : ∃ front t back r', ts = front ++ t :: back ∧
      front.foldlM step r = .ok r' ∧ step r' t = .error fault := by
  induction ts generalizing r with
  | nil => cases h
  | cons t ts ih =>
      cases hstep : step r t with
      | error cause =>
          rw [List.foldlM_cons, hstep] at h
          exact ⟨[], t, ts, r, rfl, rfl, hstep.trans h⟩
      | ok r' =>
          rw [List.foldlM_cons, hstep] at h
          obtain ⟨front, t', back, r'', rfl, hfront, hfault⟩ := ih h
          refine ⟨t :: front, t', back, r'', rfl, ?_, hfault⟩
          rw [List.foldlM_cons, hstep]
          exact hfront

theorem depth_le_of_run {r r' : Reading} {ts : List Token} (h : ts.foldlM step r = .ok r') :
    r'.depth ≤ r.depth + ts.countP Token.opens := by
  induction ts generalizing r with
  | nil =>
      obtain rfl := Except.ok.inj h
      exact Nat.le_refl _
  | cons t ts ih =>
      rw [List.foldlM_cons] at h
      obtain ⟨r'', hstep, hrest⟩ := exists_of_bind h
      have hle := (steps_of_step hstep).depth_le
      have hrun := ih hrest
      rw [List.countP_cons]
      omega

/-- **A text that is not refused as malformed holds too long an integer or too many brackets.** -/
theorem read_error {cs : List Char} {fault : Fault} (h : read cs = .error fault)
    (hne : fault ≠ .malformed) :
    (∃ digits, digits <:+: cs ∧ Number.maxDigits < digits.length ∧ ∀ c ∈ digits, c.isDigit) ∨
      maxDepth < cs.countP isOpening := by
  have hcuts := cuts_tokens cs
  unfold read at h
  cases hrun : (tokens cs).foldlM step ⟨[], .value⟩ with
  | ok r =>
      rw [hrun, bind_of_ok rfl] at h
      split at h
      · cases h
      · exact absurd (Except.error.inj h).symm hne
  | error cause =>
      obtain rfl : cause = fault := by
        rw [hrun] at h
        exact Except.error.inj h
      obtain ⟨front, t, back, r, hts, hfront, hfault⟩ := exists_of_foldlM_error hrun
      rw [hts] at hcuts
      rcases step_error hfault with rfl | ⟨n, rfl, -, hlong, -⟩ | ⟨hopens, hdepth, -⟩
      · exact absurd rfl hne
      · obtain ⟨c, rest, hsuffix, hleads⟩ := hcuts.leads_of_mem (t := .number n) (by simp) nofun
        obtain ⟨digits, hinfix, hlength, hdigits⟩ := hleads.exists_digits
        exact .inl ⟨digits, hinfix.trans hsuffix.isInfix, hlength ▸ hlong, hdigits⟩
      · have hrun := depth_le_of_run hfront
        have hcount := hcuts.countP_opens_le
        have hzero : Reading.depth ⟨[], .value⟩ = 0 := rfl
        rw [List.countP_append, List.countP_cons, if_pos hopens] at hcount
        exact .inr (by omega)

theorem startValue_of_long {n : Decimal.Numeral} (hn : n.isInteger)
    (hlong : Number.maxDigits < n.whole.length) (frames : List Frame) :
    startValue frames (.number n) = .error (.integerTooLong n.whole.length) := by
  unfold startValue
  dsimp only
  rw [Number.ofNumeral_of_long hn hlong]

/-- An integer of too many digits is not read. -/
theorem read_longInteger {d : Char} {digits : List Char} (hd : d ≠ '0')
    (hdigits : ∀ c ∈ d :: digits, c.isDigit) (hlong : Number.maxDigits < (d :: digits).length) :
    read (d :: digits) = .error (.integerTooLong (d :: digits).length) := by
  have hdigit := hdigits d List.mem_cons_self
  have hread := Decimal.read?_of_isDigit (List.cons_ne_nil d digits) hdigits
  have hlexeme : Token.numberLexeme? (d :: digits) = some (d :: digits) := by
    rw [numberLexeme?_of_ne, magnitudeLexeme?_of_isDigit hd hdigits]
    rintro rfl
    exact absurd hdigit (by decide)
  have hends : EndsNumber [] := by simp [EndsNumber]
  have hfirst := first_number (.inl hdigit) hends hlexeme hread
  rw [List.append_nil] at hfirst
  have hlength : ((d :: digits).map fun c => c.toNat - 48).length = (d :: digits).length :=
    List.length_map _
  generalize (d :: digits).map (fun c => c.toNat - 48) = values at hfirst hlength
  have hstart : step ⟨[], .value⟩ (.number ⟨false, values, none, none⟩) =
      .error (.integerTooLong (d :: digits).length) :=
    hlength ▸ startValue_of_long rfl (hlength ▸ hlong) []
  unfold read
  rw [tokens_cons (not_isGap_of_isDigit hdigit) hfirst nofun, List.foldlM_cons, hstart]
  rfl

end Worksheet.Json
