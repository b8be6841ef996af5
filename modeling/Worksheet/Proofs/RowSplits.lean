import Worksheet.Proofs.AddressCodec
import Worksheet.Proofs.Calls
import Worksheet.Proofs.Parsing
import Worksheet.Proofs.Results

/-!
# Aggregates over a rectangle that is cut between two rows

The cells of a rectangle are listed row by row, so those of its upper rows come first and those of
its lower rows after them.  An aggregate takes its arguments in order as well, and so it cannot tell
a rectangle from the two parts of it, whichever way each of the three is walked.  Only a row number
that is too long to be read is told by the number of its digits, which the parts need not share with
the whole.
-/

namespace Worksheet

/-! ## Upper and lower rows -/

namespace Rectangle

/-- The rows of a rectangle down to one of them. -/
def rowsTo (r : Rectangle) (m : Nat) (h : r.top ≤ m) : Rectangle :=
  { r with bottom := m, top_le_bottom := h }

/-- The rows of a rectangle that come after one of them. -/
def rowsAfter (r : Rectangle) (m : Nat) (h : m < r.bottom) : Rectangle :=
  { r with top := m + 1, top_le_bottom := h }

variable {r : Rectangle} {m : Nat}

/-- The upper rows are listed before the lower ones. -/
theorem addresses_split (htop : r.top ≤ m) (hbottom : m < r.bottom) :
    r.addresses = (r.rowsTo m htop).addresses ++ (r.rowsAfter m hbottom).addresses := by
  have hrows : List.range' r.top (r.bottom - r.top + 1) =
      List.range' r.top (m - r.top + 1) ++ List.range' (m + 1) (r.bottom - (m + 1) + 1) := by
    have hnext : m + 1 = r.top + (m - r.top + 1) := by omega
    have hcount : r.bottom - r.top + 1 = (m - r.top + 1) + (r.bottom - (m + 1) + 1) := by omega
    rw [hcount, ← List.range'_append_1, ← hnext]
  unfold addresses positions rowsTo rowsAfter
  dsimp only
  rw [hrows, List.flatMap_append, List.map_append]

variable {a b : Address}

/-- Two opposite corners span a rectangle that can be read if its last row can be. -/
theorem ofTexts_text (h : r.bottom + 1 < 10 ^ Number.maxDigits) (hr : ofCorners a b = r) :
    ofTexts a.text b.text = .ok r := by
  have hreadable : ∀ p : Address, p.row ≤ r.bottom → Address.decode p.text = .ok (some p) :=
    fun p hp => Address.decode_text (Number.length_digitChars_le_iff.mpr (by omega))
  subst hr
  exact ofTexts_of_decode (hreadable a (Nat.le_max_left ..)) (hreadable b (Nat.le_max_right ..))

/-- A position with a row that is too long to be read. -/
theorem decode_text_of_long (h : 10 ^ Number.maxDigits ≤ a.row + 1) :
    Address.decode a.text =
      .error (.integerTooLongToRead (Decimal.digitChars (a.row + 1)).length) := by
  have hlong : Number.maxDigits < (Decimal.digitChars (a.row + 1)).length := by
    by_contra hshort
    have := Number.length_digitChars_le_iff.mp (Nat.le_of_not_lt hshort)
    omega
  have hsplit := Address.split?_chars a
  rw [← String.toList_ofList (l := a.chars)] at hsplit
  exact Address.decode_of_long (Address.spells_iff.mpr hsplit) hlong

/-- Two opposite corners of which one has too long a row. -/
theorem ofTexts_text_of_long (h : 10 ^ Number.maxDigits ≤ r.bottom + 1) (hr : ofCorners a b = r) :
    ∃ digits, ofTexts a.text b.text = .error (.integerTooLongToRead digits) := by
  subst hr
  have hlong : 10 ^ Number.maxDigits ≤ a.row + 1 ∨ 10 ^ Number.maxDigits ≤ b.row + 1 := by
    have hbottom : (ofCorners a b).bottom = max a.row b.row := rfl
    omega
  unfold ofTexts
  by_cases ha : 10 ^ Number.maxDigits ≤ a.row + 1
  · rw [decode_text_of_long ha]
    exact ⟨_, rfl⟩
  · have hread := Address.decode_text (a := a) (Number.length_digitChars_le_iff.mpr (by omega))
    rw [hread, decode_text_of_long (hlong.resolve_left ha)]
    exact ⟨_, rfl⟩

end Rectangle

/-! ## What is found in the two parts -/

section

variable {ε α β : Type}

theorem filterMap_mapM_append {f : α → Except ε (Option β)} (l l' : List α) :
    List.filterMap id <$> (l ++ l').mapM f = (List.filterMap id <$> l.mapM f) >>= fun front =>
      (front ++ ·) <$> (List.filterMap id <$> l'.mapM f) := by
  rw [List.mapM_append]
  cases l.mapM f with
  | error cause => rfl
  | ok bs =>
      cases l'.mapM f with
      | error cause => rfl
      | ok bs' => exact congrArg Except.ok List.filterMap_append

end

namespace Cells

variable {cells : Cells} {r : Rectangle} {m : Nat} {α : Type}
  {use : Value → Except Failure (Option α)}

/-- What is found in a rectangle is what is found in its upper rows, and then what is found in its
lower rows. -/
theorem inRange_split (hrows : ∀ k ∈ cells.keys, Address.RowReadable k)
    (huse : use .null = .ok none) (htop : r.top ≤ m) (hbottom : m < r.bottom)
    {whole upper lower : Address × Address}
    (hwhole : Rectangle.ofTexts whole.1.text whole.2.text = .ok r)
    (hupper : Rectangle.ofTexts upper.1.text upper.2.text = .ok (r.rowsTo m htop))
    (hlower : Rectangle.ofTexts lower.1.text lower.2.text = .ok (r.rowsAfter m hbottom)) :
    cells.inRange whole.1.text whole.2.text use =
      cells.inRange upper.1.text upper.2.text use >>= fun front =>
        (front ++ ·) <$> cells.inRange lower.1.text lower.2.text use := by
  have hin : ∀ {first last : String} {r : Rectangle}, Rectangle.ofTexts first last = .ok r →
      cells.inRange first last use =
        List.filterMap id <$> r.addresses.mapM fun a => use (cells.get a) := by
    intro first last r hr
    rw [inRange_eq hrows huse, hr]
    rfl
  rw [hin hwhole, hin hupper, hin hlower, Rectangle.addresses_split htop hbottom,
    filterMap_mapM_append]

end Cells

namespace Formula

/-! ## Arguments that are cut in two -/

namespace Aggregate

/-- An aggregate sees of its arguments, if there are any, the numbers and how many values they
contribute. -/
theorem apply_congr (strict : Bool) (f : Aggregate) {args args' : List Argument}
    (hne : args ≠ []) (hne' : args' ≠ [])
    (hnumbers : f.allNumbers strict args = f.allNumbers strict args')
    (hfilled : (args.map filledBy).sum = (args'.map filledBy).sum) :
    f.apply strict args = f.apply strict args' := by
  have haccepts : ∀ args : List Argument, args ≠ [] → f.arity.accepts args.length = true := by
    intro args hne
    have hlength : 1 ≤ args.length := List.length_pos_of_ne_nil hne
    cases f <;> simp [arity, Arity.accepts, hlength]
  rw [List.sum_eq_foldl, List.sum_eq_foldl] at hfilled
  unfold apply
  simp only [haccepts args hne, haccepts args' hne', hnumbers, hfilled]

/-- Numbers count the same in one argument and in two. -/
theorem apply_numbers_append (strict : Bool) (f : Aggregate) (ms ns : List Number) :
    f.apply strict [.numbers (ms ++ ns)] = f.apply strict [.numbers ms, .numbers ns] := by
  refine apply_congr strict f (List.cons_ne_nil _ _) (List.cons_ne_nil _ _) ?_ ?_
  · show Except.ok [ms ++ ns].flatten = Except.ok [ms, ns].flatten
    simp
  · simp [filledBy]

/-- So do cells that are not empty. -/
theorem apply_filled_add (strict : Bool) (f : Aggregate) (m n : Nat) :
    f.apply strict [.filled (m + n)] = f.apply strict [.filled m, .filled n] := by
  refine apply_congr strict f (List.cons_ne_nil _ _) (List.cons_ne_nil _ _) rfl ?_
  simp [filledBy]

end Aggregate

variable {cells : Cells}

/-- What a range contributes to an aggregate among plain cells. -/
def argumentIn (cells : Cells) (f : Aggregate) (first last : String) : Except Failure Argument :=
  if f = .countAll then (.filled ·.length) <$> cells.filledIn first last
  else .numbers <$> cells.numbersIn first last

/-- An aggregate comes to the same for a rectangle and for its two parts. -/
theorem argumentIn_split (hrows : ∀ k ∈ cells.keys, Address.RowReadable k) (strict : Bool)
    (f : Aggregate) {r : Rectangle} {m : Nat} (htop : r.top ≤ m) (hbottom : m < r.bottom)
    {whole upper lower : Address × Address}
    (hwhole : Rectangle.ofTexts whole.1.text whole.2.text = .ok r)
    (hupper : Rectangle.ofTexts upper.1.text upper.2.text = .ok (r.rowsTo m htop))
    (hlower : Rectangle.ofTexts lower.1.text lower.2.text = .ok (r.rowsAfter m hbottom)) :
    (argumentIn cells f whole.1.text whole.2.text >>= fun a => f.apply strict [a]) =
      argumentIn cells f upper.1.text upper.2.text >>= fun a =>
        argumentIn cells f lower.1.text lower.2.text >>= fun b => f.apply strict [a, b] := by
  have hcut : ∀ {α : Type} {use : Value → Except Failure (Option α)}, use .null = .ok none →
      cells.inRange whole.1.text whole.2.text use =
        cells.inRange upper.1.text upper.2.text use >>= fun front =>
          (front ++ ·) <$> cells.inRange lower.1.text lower.2.text use :=
    fun huse => Cells.inRange_split hrows huse htop hbottom hwhole hupper hlower
  unfold argumentIn Cells.filledIn Cells.numbersIn
  by_cases hf : f = .countAll
  · simp only [if_pos hf]
    rw [hcut rfl]
    cases cells.inRange upper.1.text upper.2.text fun v =>
      .ok (if v.isEmpty then none else some v) with
    | error cause => rfl
    | ok front =>
    cases cells.inRange lower.1.text lower.2.text fun v =>
      .ok (if v.isEmpty then none else some v) with
    | error cause => rfl
    | ok back =>
        show f.apply strict [.filled (front ++ back).length] = _
        rw [List.length_append, Aggregate.apply_filled_add]
        rfl
  · simp only [if_neg hf]
    rw [hcut rfl]
    cases cells.inRange upper.1.text upper.2.text Value.number? with
    | error cause => rfl
    | ok front =>
    cases cells.inRange lower.1.text lower.2.text Value.number? with
    | error cause => rfl
    | ok back => exact Aggregate.apply_numbers_append strict f front back

/-! ## Integers that are too long -/

section

variable {α β : Type}

/-- Whether a computation fails on nothing but integers with too many digits. -/
def FailsOnLong (x : Except Failure α) : Prop :=
  ∀ cause, x = .error cause → ∃ digits, cause = .integerTooLongToRead digits

theorem failsOnLong_ok (a : α) : FailsOnLong (.ok a) := by
  intro cause h
  cases h

theorem failsOnLong_tooLong (digits : Nat) :
    FailsOnLong (.error (.integerTooLongToRead digits) : Except Failure α) :=
  fun _ h => ⟨digits, (Except.error.inj h).symm⟩

theorem FailsOnLong.bind {x : Except Failure α} {f : α → Except Failure β} (hx : FailsOnLong x)
    (hf : ∀ a, FailsOnLong (f a)) : FailsOnLong (x >>= f) := by
  cases x with
  | error cause =>
      obtain ⟨digits, rfl⟩ := hx cause rfl
      exact failsOnLong_tooLong digits
  | ok a => exact hf a

theorem FailsOnLong.map {x : Except Failure α} (hx : FailsOnLong x) (f : α → β) :
    FailsOnLong (f <$> x) := by
  rw [map_eq_pure_bind]
  exact hx.bind fun a => failsOnLong_ok (f a)

theorem failsOnLong_mapM {f : α → Except Failure β} (hf : ∀ a, FailsOnLong (f a)) (l : List α) :
    FailsOnLong (l.mapM f) := by
  induction l with
  | nil => exact failsOnLong_ok []
  | cons a l ih =>
      rw [List.mapM_cons]
      exact (hf a).bind fun b => ih.bind fun bs => failsOnLong_ok (b :: bs)

/-- One integer that is too long is enough. -/
theorem exists_tooLong_of_mapM {f : α → Except Failure β} (hf : ∀ a, FailsOnLong (f a))
    {l : List α} {a : α} (ha : a ∈ l) (h : ∃ digits, f a = .error (.integerTooLongToRead digits)) :
    ∃ digits, l.mapM f = .error (.integerTooLongToRead digits) := by
  induction l with
  | nil => cases ha
  | cons b l ih =>
      rw [List.mapM_cons]
      cases hb : f b with
      | error cause =>
          obtain ⟨digits, rfl⟩ := hf b cause hb
          exact ⟨digits, rfl⟩
      | ok c =>
          have hrest : a ∈ l := by
            refine (List.mem_cons.mp ha).resolve_left ?_
            rintro rfl
            obtain ⟨digits, h⟩ := h
            cases hb.symm.trans h
          obtain ⟨digits, hl⟩ := ih hrest
          exact ⟨digits, by rw [hl]; rfl⟩

theorem failsOnLong_number? (v : Value) : FailsOnLong v.number? := by
  cases v with
  | text s =>
      show FailsOnLong (numberOfText? s)
      unfold numberOfText?
      split
      · exact failsOnLong_ok none
      · refine FailsOnLong.bind ?_ fun n => failsOnLong_ok _
        unfold Number.ofNumeral
        split
        · split
          · exact failsOnLong_tooLong _
          · exact failsOnLong_ok _
        · exact failsOnLong_ok _
  | _ => exact failsOnLong_ok _

/-- The rectangle between two positions can be read, or one of their rows is too long. -/
theorem failsOnLong_ofTexts_text (a b : Address) :
    FailsOnLong (Rectangle.ofTexts a.text b.text) := by
  by_cases h : (Rectangle.ofCorners a b).bottom + 1 < 10 ^ Number.maxDigits
  · rw [Rectangle.ofTexts_text h rfl]
    exact failsOnLong_ok _
  · obtain ⟨digits, hlong⟩ := Rectangle.ofTexts_text_of_long (Nat.le_of_not_lt h) rfl
    rw [hlong]
    exact failsOnLong_tooLong digits

end

theorem failsOnLong_argumentIn (hrows : ∀ k ∈ cells.keys, Address.RowReadable k) (f : Aggregate)
    (a b : Address) : FailsOnLong (argumentIn cells f a.text b.text) := by
  have hin : ∀ {α : Type} {use : Value → Except Failure (Option α)}, use .null = .ok none →
      (∀ v, FailsOnLong (use v)) → FailsOnLong (cells.inRange a.text b.text use) := by
    intro α use hnull huse
    rw [Cells.inRange_eq hrows hnull]
    exact (failsOnLong_ofTexts_text a b).bind fun r =>
      (failsOnLong_mapM (fun s => huse (cells.get s)) r.addresses).map _
  unfold argumentIn
  split
  · exact (hin rfl fun v => failsOnLong_ok _).map _
  · exact (hin rfl failsOnLong_number?).map _

/-- A range of which the last row is too long to be read contributes nothing. -/
theorem argumentIn_of_long (f : Aggregate) {a b : Address}
    (h : 10 ^ Number.maxDigits ≤ (Rectangle.ofCorners a b).bottom + 1) :
    ∃ digits, argumentIn cells f a.text b.text = .error (.integerTooLongToRead digits) := by
  obtain ⟨digits, hlong⟩ := Rectangle.ofTexts_text_of_long h rfl
  refine ⟨digits, ?_⟩
  unfold argumentIn Cells.filledIn Cells.numbersIn Cells.inRange
  rw [hlong]
  split <;> rfl

/-! ## Calls on ranges -/

/-- Whether a text is a formula that calls an aggregate on the ranges between given corners. -/
structure CallsOn (f : Aggregate) (corners : List (Address × Address)) (text : String) : Prop where
  isFormula : (Value.text text).formula? = some text
  parsed : ∃ opener, Function.named? (nameOfOpener opener) = some (.aggregate f) ∧
    parse text = .ok (.call opener (corners.map fun c => .range c.1.text c.2.text))

namespace Evaluation.ComesTo

variable {s : Setting}

theorem readArgument (hs : s.keys = cells.keys) (depth : Nat) (f : Aggregate)
    (first last : String) :
    (readArgument s depth f first last).ComesTo cells (argumentIn cells f first last) := by
  unfold Formula.readArgument argumentIn
  by_cases hf : f = .countAll
  · rw [if_pos hf, if_pos hf]
    exact bind (readRange hs depth first last _) fun _ => rfl
  · rw [if_neg hf, if_neg hf]
    exact bind (readRange hs depth first last _) fun _ => rfl

theorem evalArguments_ranges (hs : s.keys = cells.keys) (depth : Nat) (f : Aggregate)
    (corners : List (Address × Address)) :
    (evalArguments s depth f (corners.map fun c => .range c.1.text c.2.text)).ComesTo cells
      (corners.mapM fun c => argumentIn cells f c.1.text c.2.text) := by
  induction corners with
  | nil =>
      rw [List.map_nil, evalArguments]
      rfl
  | cons c corners ih =>
      rw [List.map_cons, evalArguments, List.mapM_cons]
      exact bind (readArgument hs _ f c.1.text c.2.text) fun a => bind ih fun as => rfl

end Evaluation.ComesTo

namespace CallsOn

variable {f : Aggregate} {corners : List (Address × Address)} {text : String}

/-- What a call of an aggregate on ranges comes to. -/
theorem evaluate_eq (h : CallsOn f corners text) (strict : Bool) (clock : Moment)
    (limit : Option Nat) :
    evaluate strict clock limit cells (.text text) = pure (Scalar.toValue <$>
      (corners.mapM (fun c => argumentIn cells f c.1.text c.2.text) >>= f.apply strict)) := by
  obtain ⟨opener, hname, hparse⟩ := h.parsed
  have heval : (Expr.call opener (corners.map fun c => .range c.1.text c.2.text)).ComesTo
      ⟨strict, clock, limit, cells.keys⟩ cells 0
      (corners.mapM (fun c => argumentIn cells f c.1.text c.2.text) >>= f.apply strict) := by
    intro depth hdepth
    obtain rfl := Nat.le_zero.mp hdepth
    rw [eval, Setting.exceeds_zero]
    dsimp only
    rw [hname]
    exact .bind (.evalArguments_ranges rfl 0 f corners) fun args => .ofExcept _
  exact heval.evaluate_eq h.isFormula hparse

/-- A call on a range of which the last row is too long to be read. -/
theorem evaluate_of_long (h : CallsOn f corners text)
    (hrows : ∀ k ∈ cells.keys, Address.RowReadable k) {c : Address × Address} (hc : c ∈ corners)
    (hlong : 10 ^ Number.maxDigits ≤ (Rectangle.ofCorners c.1 c.2).bottom + 1) (strict : Bool)
    (clock : Moment) (limit : Option Nat) :
    ∃ digits, evaluate strict clock limit cells (.text text) =
      pure (.error (.integerTooLongToRead digits)) := by
  have hargument : ∃ digits, argumentIn cells f c.1.text c.2.text =
      .error (.integerTooLongToRead digits) := argumentIn_of_long f hlong
  obtain ⟨digits, hfails⟩ := exists_tooLong_of_mapM
    (f := fun c : Address × Address => argumentIn cells f c.1.text c.2.text)
    (fun c => failsOnLong_argumentIn hrows f c.1 c.2) hc hargument
  refine ⟨digits, ?_⟩
  rw [h.evaluate_eq, hfails]
  rfl

end CallsOn

/-- The ranges between corners as they are written as the arguments of a call, with the closing
parenthesis and without blanks. -/
def rangesChars : List (Address × Address) → List Char
  | [] => [')']
  | [c] => c.1.chars ++ [':'] ++ c.2.chars ++ [')']
  | c :: corners => c.1.chars ++ [':'] ++ c.2.chars ++ [','] ++ rangesChars corners

/-- The call of an aggregate on ranges, written without blanks. -/
def callOn (f : Aggregate) (corners : List (Address × Address)) : String :=
  String.ofList ('=' :: (f.name.toList ++ ['('] ++ rangesChars corners))

theorem isCell_chars (a : Address) : IsCell a.chars := by
  refine ⟨_, _, rfl, ?_, Address.isColumnLetter_of_mem_lettersOfPositive _, ?_⟩
  · rw [Address.lettersOfPositive_pos (Nat.succ_ne_zero a.col)]
    exact List.append_ne_nil_of_right_ne_nil _ (List.cons_ne_nil _ _)
  · obtain ⟨d, digits, hdigits, -⟩ := Address.digitChars_of_pos (Nat.succ_pos a.row)
    refine ⟨?_, Decimal.isDigit_of_mem_digitChars⟩
    rw [hdigits]
    exact List.cons_ne_nil _ _

theorem spellsArguments_rangesChars {corners : List (Address × Address)} (hne : corners ≠ []) :
    SpellsArguments (corners.map fun c => .range c.1.text c.2.text) (rangesChars corners) := by
  have hgap : Gap [] := forall_mem_of_all rfl
  have hrange : ∀ c : Address × Address,
      Spells 0 (.range c.1.text c.2.text) (c.1.chars ++ [':'] ++ c.2.chars) := by
    intro c
    have h : Spells 8 _ _ := .range (isCell_chars c.1) ⟨hgap, hgap⟩ (isCell_chars c.2)
    rw [List.append_nil, List.append_nil] at h
    exact .loosen (Nat.zero_le 8) h
  induction corners with
  | nil => exact absurd rfl hne
  | cons c corners ih =>
      cases corners with
      | nil =>
          have h := SpellsArgumentsAs.single hgap (hrange c) hgap
          rwa [List.nil_append, List.append_nil] at h
      | cons c' corners =>
          have h := SpellsArgumentsAs.more hgap (hrange c) hgap (ih (List.cons_ne_nil _ _))
          rwa [List.nil_append, List.append_nil] at h

theorem isOpener_name (f : Aggregate) : IsOpener (f.name.toList ++ ['(']) := by
  have hne : f.name.toList ≠ [] := by
    cases f <;> decide +kernel
  have hletters : ∀ c ∈ f.name.toList, c.isAlpha := by
    cases f <;> simp [Aggregate.name]
  obtain ⟨first, rest, hname⟩ := List.exists_cons_of_ne_nil hne
  rw [hname] at hletters ⊢
  obtain ⟨hfirst, hrest⟩ := List.forall_mem_cons.mp hletters
  refine ⟨first, rest, [], ?_, ?_, fun c hc => ?_, by simp⟩
  · rw [List.append_nil]
    rfl
  · simp [isNameStart, hfirst]
  · simp [isNameChar, Char.isAlphanum, hrest c hc]

/-- A call that is written out is such a call. -/
theorem callsOn_callOn (f : Aggregate) {corners : List (Address × Address)} (hne : corners ≠ []) :
    CallsOn f corners (callOn f corners) where
  isFormula := by
    refine formula?_text_iff.mpr ⟨rfl, _, String.toList_ofList⟩
  parsed := by
    refine ⟨String.ofList (f.name.toList ++ ['(']), ?_, ?_⟩
    · cases f <;> decide +kernel
    · refine (parse_iff_written _).2 _ ⟨[], _, forall_mem_of_all rfl, .loosen (by omega)
        (.call (isOpener_name f) (spellsArguments_rangesChars hne)), ?_⟩
      rw [callOn, String.toList_ofList]
      rfl

/-- **An aggregate can be split between two rows.**  Its call on a rectangle, from any corner to the
opposite one, has the same outcome as its call on the rows down to one of them and on the rows that
come after it, among any cells and with any options: the same value or the same failure, and no
random number is drawn.  The one exception is a rectangle with a last row that is too long to be
read: both calls fail then on an integer that is too long, but they need not find the same one. -/
theorem evaluate_splitRows (strict : Bool) (clock : Moment) (limit : Option Nat)
    (hrows : ∀ k ∈ cells.keys, Address.RowReadable k) {f : Aggregate} {r : Rectangle} {m : Nat}
    (htop : r.top ≤ m) (hbottom : m < r.bottom) {whole upper lower : Address × Address}
    (hwhole : Rectangle.ofCorners whole.1 whole.2 = r)
    (hupper : Rectangle.ofCorners upper.1 upper.2 = r.rowsTo m htop)
    (hlower : Rectangle.ofCorners lower.1 lower.2 = r.rowsAfter m hbottom) {uncut cut : String}
    (huncut : CallsOn f [whole] uncut) (hcut : CallsOn f [upper, lower] cut) :
    (r.bottom + 1 < 10 ^ Number.maxDigits →
      evaluate strict clock limit cells (.text uncut) =
        evaluate strict clock limit cells (.text cut)) ∧
    (10 ^ Number.maxDigits ≤ r.bottom + 1 → ∀ text ∈ [uncut, cut], ∃ digits,
      evaluate strict clock limit cells (.text text) =
        pure (.error (.integerTooLongToRead digits))) := by
  constructor
  · intro hread
    have hmiddle : (r.rowsTo m htop).bottom + 1 < 10 ^ Number.maxDigits :=
      Nat.lt_trans (Nat.succ_lt_succ hbottom) hread
    have hsame := argumentIn_split hrows strict f htop hbottom
      (Rectangle.ofTexts_text hread hwhole) (Rectangle.ofTexts_text hmiddle hupper)
      (Rectangle.ofTexts_text hread hlower)
    rw [huncut.evaluate_eq, hcut.evaluate_eq]
    refine congrArg (fun outcome => pure (Scalar.toValue <$> outcome)) ?_
    simpa using hsame
  · intro hlong text htext
    rcases List.mem_pair.mp htext with rfl | rfl
    · exact huncut.evaluate_of_long hrows (List.mem_singleton_self _) (hwhole ▸ hlong) ..
    · exact hcut.evaluate_of_long hrows (List.mem_cons_of_mem _ (List.mem_singleton_self _))
        (hlower ▸ hlong) ..

/-- Numbers and text in two rows and two columns. -/
def smallTable : Cells :=
  .ofList [("B2", .number (.int 7)), ("A1", .number (.int 1)), ("A2", .text "x"),
    ("B3", .bool true)]

/-- The sum over two columns is that of the first row and of the two after it, from any corners. -/
theorem evaluate_smallTable :
    (∀ k ∈ smallTable.keys, Address.RowReadable k) ∧
      CallsOn .sum [(⟨2, 1⟩, ⟨0, 0⟩)] "= SUM (B3:A1)" ∧
      CallsOn .sum [(⟨0, 0⟩, ⟨0, 1⟩), (⟨2, 0⟩, ⟨1, 1⟩)] "=SUM(A1:B1, A3:B2)" ∧
      ∀ clock, evaluate true clock none smallTable (.text "= SUM (B3:A1)") =
        evaluate true clock none smallTable (.text "=SUM(A1:B1, A3:B2)") := by
  have hrows : ∀ k ∈ smallTable.keys, Address.RowReadable k := by decide +kernel
  have huncut : CallsOn .sum [(⟨2, 1⟩, ⟨0, 0⟩)] "= SUM (B3:A1)" :=
    ⟨by decide +kernel, "SUM (", by decide +kernel, by cbv⟩
  have hcut : CallsOn .sum [(⟨0, 0⟩, ⟨0, 1⟩), (⟨2, 0⟩, ⟨1, 1⟩)] "=SUM(A1:B1, A3:B2)" :=
    ⟨by decide +kernel, "SUM(", by decide +kernel, by cbv⟩
  have hshort : (2 : Nat) + 1 < 10 ^ Number.maxDigits := by decide +kernel
  refine ⟨hrows, huncut, hcut, fun clock => ?_⟩
  exact (evaluate_splitRows true clock none hrows (r := ⟨0, 2, 0, 1, by omega, by omega⟩) (m := 0)
    (by decide) (by decide) rfl rfl rfl huncut hcut).1 hshort

/-- The first row that is too long to be read is the one that is told. -/
theorem CallsOn.evaluate_of_first_long {f : Aggregate} {a b : Address}
    {corners : List (Address × Address)} {text : String} (h : CallsOn f ((a, b) :: corners) text)
    (ha : a.row + 1 < 10 ^ Number.maxDigits) (hb : 10 ^ Number.maxDigits ≤ b.row + 1)
    (strict : Bool) (clock : Moment) (limit : Option Nat) :
    evaluate strict clock limit cells (.text text) =
      pure (.error (.integerTooLongToRead (Decimal.digitChars (b.row + 1)).length)) := by
  have hfirst := Address.decode_text (Number.length_digitChars_le_iff.mpr ha)
  have hargument : argumentIn cells f a.text b.text =
      .error (.integerTooLongToRead (Decimal.digitChars (b.row + 1)).length) := by
    unfold argumentIn Cells.filledIn Cells.numbersIn Cells.inRange Rectangle.ofTexts
    rw [hfirst, Rectangle.decode_text_of_long hb]
    split <;> rfl
  rw [h.evaluate_eq, List.mapM_cons, hargument]
  rfl

/-- Rows with 4301 and with 4302 digits are too long to be read.  The last row of the rectangle has
more digits than the last row of its upper part. -/
theorem evaluate_longRows :
    let first : Address := ⟨0, 0⟩
    let last : Address := ⟨10 ^ 4301, 0⟩
    let uncut := callOn .sum [(first, last)]
    let cut := callOn .sum [(first, ⟨10 ^ 4300, 0⟩), (⟨10 ^ 4300 + 1, 0⟩, last)]
    first.row ≤ 10 ^ 4300 ∧ 10 ^ 4300 < last.row ∧
      evaluate false noon none .empty (.text uncut) = pure (.error (.integerTooLongToRead 4302)) ∧
      evaluate false noon none .empty (.text cut) = pure (.error (.integerTooLongToRead 4301)) ∧
      evaluate false noon none .empty (.text uncut) ≠
        evaluate false noon none .empty (.text cut) := by
  intro first last uncut cut
  have hlength : ∀ n k, 0 < k → 10 ^ k ≤ n → n < 10 ^ (k + 1) →
      (Decimal.digitChars n).length = k + 1 := by
    intro n k hk hlow hhigh
    have hmost := (Nat.length_toDigits_le_iff (b := 10) (by decide) (Nat.succ_pos k)).mpr hhigh
    have hleast := mt (Nat.length_toDigits_le_iff (b := 10) (by decide) hk).mp (Nat.not_lt.mpr hlow)
    exact Nat.le_antisymm hmost (Nat.lt_of_not_le hleast)
  have hfirst : first.row + 1 < 10 ^ Number.maxDigits := by decide +kernel
  have huncut : evaluate false noon none .empty (.text uncut) =
      pure (.error (.integerTooLongToRead 4302)) := by
    have hcalls := callsOn_callOn .sum (List.cons_ne_nil (first, last) [])
    rw [hcalls.evaluate_of_first_long hfirst (by decide +kernel),
      hlength _ 4301 (by decide) (by decide +kernel) (by decide +kernel)]
  have hcut : evaluate false noon none .empty (.text cut) =
      pure (.error (.integerTooLongToRead 4301)) := by
    have hcalls := callsOn_callOn .sum
      (List.cons_ne_nil (first, ⟨10 ^ 4300, 0⟩) [(⟨10 ^ 4300 + 1, 0⟩, last)])
    rw [hcalls.evaluate_of_first_long hfirst (by decide +kernel),
      hlength _ 4300 (by decide) (by decide +kernel) (by decide +kernel)]
  refine ⟨Nat.zero_le _, by decide +kernel, huncut, hcut, fun hsame => ?_⟩
  rw [huncut, hcut] at hsame
  cases congrArg Prod.fst (congrFun hsame (.scripted [] []))

end Formula

end Worksheet
