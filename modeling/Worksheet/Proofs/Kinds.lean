import Mathlib
import Worksheet.Formula.Evaluation

/-!
# The kinds of failure that computing can have

Operators and functions compute with values that they are given and know nothing of cells, so none
of their failures is that of a cycle.  Where less than that is needed, the kind itself is named: a
number with too many digits fails in the domain, and one beyond the binary64 numbers in arithmetic.
-/

namespace Worksheet

variable {K : FailureKind → Prop} {α β : Type}

/-- Whether all failures of a computation are of certain kinds. -/
def FailsIn (K : FailureKind → Prop) (r : Except Failure α) : Prop :=
  ∀ cause, r = .error cause → K cause.kind

@[simp] theorem failsIn_ok {a : α} : FailsIn K (.ok a) :=
  nofun

@[simp] theorem failsIn_pure {a : α} : FailsIn K (pure a : Except Failure α) :=
  nofun

@[simp] theorem failsIn_error {cause : Failure} :
    FailsIn K (.error cause : Except Failure α) ↔ K cause.kind := by
  constructor
  · exact fun h => h cause rfl
  · intro h _ hr
    exact Except.error.inj hr ▸ h

@[simp] theorem failsIn_throw {cause : Failure} :
    FailsIn K (throw cause : Except Failure α) ↔ K cause.kind :=
  failsIn_error

@[simp] theorem failsIn_bind {x : Except Failure α} {f : α → Except Failure β} :
    FailsIn K (x >>= f) ↔ FailsIn K x ∧ ∀ a, x = .ok a → FailsIn K (f a) := by
  cases x with
  | error cause =>
      show FailsIn K (.error cause) ↔ _
      rw [failsIn_error, failsIn_error]
      exact (and_iff_left nofun).symm
  | ok a => exact ⟨fun h => ⟨nofun, fun _ ha => Except.ok.inj ha ▸ h⟩, fun h => h.2 a rfl⟩

@[simp] theorem failsIn_map {x : Except Failure α} {f : α → β} :
    FailsIn K (f <$> x) ↔ FailsIn K x := by
  rw [map_eq_pure_bind, failsIn_bind]
  exact and_iff_left fun _ _ => failsIn_pure

@[simp] theorem failsIn_ite {c : Prop} [Decidable c] {x y : Except Failure α} :
    FailsIn K (if c then x else y) ↔ (c → FailsIn K x) ∧ (¬ c → FailsIn K y) := by
  split <;> simp [*]

theorem FailsIn.mono {L : FailureKind → Prop} {r : Except Failure α} (h : FailsIn K r)
    (hKL : ∀ kind, K kind → L kind) : FailsIn L r :=
  fun cause hr => hKL _ (h cause hr)

theorem failsIn_mapM {f : α → Except Failure β} {l : List α} (h : ∀ a, FailsIn K (f a)) :
    FailsIn K (l.mapM f) := by
  induction l with
  | nil => exact failsIn_pure
  | cons a l ih =>
      rw [List.mapM_cons]
      simp [h, ih]

theorem failsIn_filterM {p : α → Except Failure Bool} {l : List α} (h : ∀ a, FailsIn K (p a)) :
    FailsIn K (l.filterM p) := by
  have haux : ∀ front, FailsIn K (l.filterAuxM p front) := by
    induction l with
    | nil => exact fun front => failsIn_pure
    | cons a l ih =>
        intro front
        rw [List.filterAuxM]
        simp [h, ih]
  unfold List.filterM
  simp [haux]

theorem failsIn_foldlM {f : β → α → Except Failure β} {l : List α} (h : ∀ b a, FailsIn K (f b a)) :
    ∀ b, FailsIn K (l.foldlM f b) := by
  induction l with
  | nil => exact fun b => failsIn_pure
  | cons a l ih =>
      intro b
      rw [List.foldlM_cons]
      simp [h, ih]

/-- Whether a computation does not fail for a cycle. -/
abbrev FindsNoCycle (r : Except Failure α) : Prop :=
  FailsIn (· ≠ .circular) r

theorem FailsIn.findsNoCycle {kind : FailureKind} {r : Except Failure α} (h : FailsIn (· = kind) r)
    (hkind : kind ≠ .circular) : FindsNoCycle r :=
  h.mono fun _ hk => hk ▸ hkind

/-! ## Numbers -/

namespace Number

theorem failsIn_ofNumeral (n : Decimal.Numeral) : FailsIn (· = .domain) (ofNumeral n) := by
  unfold ofNumeral
  split
  · split <;> simp [Failure.kind]
  · exact failsIn_ok

theorem failsIn_intText (i : Int) : FailsIn (· = .domain) (intText i) := by
  unfold intText
  split <;> simp [Failure.kind]

theorem failsIn_exactText (n : Number) : FailsIn (· = .domain) n.exactText := by
  cases n with
  | int i => exact failsIn_intText i
  | float x => exact failsIn_ok

theorem failsIn_text (n : Number) : FailsIn (· = .domain) n.text := by
  unfold text
  split
  · exact failsIn_intText _
  · split
    · exact failsIn_intText _
    · exact failsIn_ok

theorem failsIn_checked (n : Number) : FailsIn (· = .arithmetic) n.checked := by
  unfold checked
  split <;> simp [Failure.kind]

theorem failsIn_toBinary64 (n : Number) : FailsIn (· = .arithmetic) n.toBinary64 := by
  cases n with
  | int i =>
      unfold toBinary64
      dsimp only
      split <;> simp [Failure.kind]
  | float x => exact failsIn_ok

theorem failsIn_combine (onInts : Int → Int → Int) (onFloats : Binary64 → Binary64 → Binary64)
    (m n : Number) : FailsIn (· = .arithmetic) (combine onInts onFloats m n) := by
  unfold combine
  split
  · exact failsIn_ok
  · simp [failsIn_toBinary64]

@[simp] theorem findsNoCycle_ofNumeral (n : Decimal.Numeral) : FindsNoCycle (ofNumeral n) :=
  (failsIn_ofNumeral n).findsNoCycle (by decide)

@[simp] theorem findsNoCycle_intText (i : Int) : FindsNoCycle (intText i) :=
  (failsIn_intText i).findsNoCycle (by decide)

@[simp] theorem findsNoCycle_exactText (n : Number) : FindsNoCycle n.exactText :=
  (failsIn_exactText n).findsNoCycle (by decide)

@[simp] theorem findsNoCycle_text (n : Number) : FindsNoCycle n.text :=
  (failsIn_text n).findsNoCycle (by decide)

@[simp] theorem findsNoCycle_checked (n : Number) : FindsNoCycle n.checked :=
  (failsIn_checked n).findsNoCycle (by decide)

@[simp] theorem findsNoCycle_toBinary64 (n : Number) : FindsNoCycle n.toBinary64 :=
  (failsIn_toBinary64 n).findsNoCycle (by decide)

@[simp] theorem findsNoCycle_combine (onInts : Int → Int → Int)
    (onFloats : Binary64 → Binary64 → Binary64) (m n : Number) :
    FindsNoCycle (combine onInts onFloats m n) :=
  (failsIn_combine onInts onFloats m n).findsNoCycle (by decide)

@[simp] theorem findsNoCycle_quotient (m n : Number) : FindsNoCycle (quotient m n) := by
  unfold quotient
  split
  · dsimp only
    split <;> simp [Failure.kind]
  · simp

@[simp] theorem findsNoCycle_div (m n : Number) : FindsNoCycle (div m n) := by
  unfold div
  split <;> simp [Failure.kind]

theorem findsNoCycle_near {o : Option Int} :
    FindsNoCycle ((o.map Except.ok).getD (.error .infinityToInteger)) := by
  cases o <;> simp [Failure.kind]

@[simp] theorem findsNoCycle_floor (n : Number) : FindsNoCycle n.floor := by
  cases n with
  | int i => exact failsIn_ok
  | float x => exact findsNoCycle_near

@[simp] theorem findsNoCycle_ceil (n : Number) : FindsNoCycle n.ceil := by
  cases n with
  | int i => exact failsIn_ok
  | float x => exact findsNoCycle_near

@[simp] theorem findsNoCycle_truncate (n : Number) : FindsNoCycle n.truncate := by
  cases n with
  | int i => exact failsIn_ok
  | float x => exact findsNoCycle_near

theorem findsNoCycle_toMultiple {near : Number → Except Failure Int}
    (h : ∀ n, FindsNoCycle (near n)) (n step : Number) : FindsNoCycle (toMultiple near n step) := by
  unfold toMultiple
  split
  · exact failsIn_pure
  · simp [h, mul]

@[simp] theorem findsNoCycle_round (n : Number) (places : Int) : FindsNoCycle (round n places) := by
  have hfloat : ∀ n, FindsNoCycle (round.roundFloat places n) := by
    intro n
    unfold round.roundFloat
    refine failsIn_bind.mpr ⟨findsNoCycle_toBinary64 n, fun x _ => ?_⟩
    split <;> exact failsIn_pure
  unfold round
  split
  · split
    · exact failsIn_ok
    · exact hfloat _
  · exact hfloat _

@[simp] theorem findsNoCycle_floatPower (x y : Binary64) : FindsNoCycle (floatPower x y) := by
  unfold floatPower
  dsimp only
  repeat' split
  all_goals simp [Failure.kind]

@[simp] theorem findsNoCycle_power (m n : Number) : FindsNoCycle (power m n) := by
  have hfloats : ∀ m n, FindsNoCycle (power.inFloats m n) := by
    intro m n
    unfold power.inFloats
    simp
  unfold power
  split
  · split
    · exact failsIn_ok
    · exact hfloats _ _
  · exact hfloats _ _

@[simp] theorem findsNoCycle_map (f : Binary64 → Binary64) (n : Number) :
    FindsNoCycle (n.map f) := by
  unfold map
  simp

@[simp] theorem findsNoCycle_sqrt (n : Number) : FindsNoCycle n.sqrt := by
  unfold sqrt
  split <;> simp [Failure.kind]

@[simp] theorem findsNoCycle_log10 (n : Number) : FindsNoCycle n.log10 := by
  unfold log10
  cases n <;> dsimp only <;> split <;> simp [Failure.kind]

end Number

/-! ## Values -/

theorem failsIn_numberOfText? (s : String) : FailsIn (· = .domain) (numberOfText? s) := by
  unfold numberOfText?
  split
  · exact failsIn_ok
  · simp [Number.failsIn_ofNumeral]

@[simp] theorem findsNoCycle_numberOfText? (s : String) : FindsNoCycle (numberOfText? s) :=
  (failsIn_numberOfText? s).findsNoCycle (by decide)

namespace Scalar

@[simp] theorem findsNoCycle_toText (v : Scalar) : FindsNoCycle v.toText := by
  cases v <;> simp [toText]

@[simp] theorem findsNoCycle_asNumber (strict : Bool) (function : Option String) (v : Scalar) :
    FindsNoCycle (v.asNumber strict function) := by
  cases v with
  | number n =>
      unfold asNumber
      dsimp only
      split <;> simp [Failure.kind]
  | bool b => exact failsIn_ok
  | text s =>
      unfold asNumber
      refine failsIn_bind.mpr ⟨findsNoCycle_numberOfText? s, fun n _ => ?_⟩
      cases n <;> simp [Failure.kind]
  | cellText s =>
      unfold asNumber
      dsimp only
      split <;> simp [Failure.kind]

@[simp] theorem findsNoCycle_asCondition (v : Scalar) : FindsNoCycle v.asCondition := by
  cases v with
  | text s =>
      unfold asCondition
      dsimp only
      split <;> simp [Failure.kind]
  | _ => exact failsIn_ok

end Scalar

namespace Value

mutual

theorem failsIn_quoted : ∀ v : Value, FailsIn (· = .domain) v.quoted
  | .null => failsIn_ok
  | .bool _ => failsIn_ok
  | .number n => by
      rw [quoted]
      exact n.failsIn_exactText
  | .text _ => by
      rw [quoted]
      exact failsIn_ok
  | .list items => by
      rw [quoted]
      simp [failsIn_quotedItems items]
  | .dict entries => by
      rw [quoted]
      simp [failsIn_quotedEntries entries]
  | .stamp _ _ => failsIn_ok

theorem failsIn_quotedItems : ∀ items : List Value, FailsIn (· = .domain) (quotedItems items)
  | [] => failsIn_ok
  | v :: vs => by
      rw [quotedItems]
      simp [failsIn_quoted v, failsIn_quotedItems vs]

theorem failsIn_quotedEntries : ∀ entries : List (Value × Value),
    FailsIn (· = .domain) (quotedEntries entries)
  | [] => failsIn_ok
  | (k, v) :: rest => by
      rw [quotedEntries]
      simp [failsIn_quoted k, failsIn_quoted v, failsIn_quotedEntries rest]

end

theorem failsIn_toText (v : Value) : FailsIn (· = .domain) v.toText := by
  cases v with
  | number n => exact n.failsIn_text
  | list items => exact failsIn_quoted _
  | dict entries => exact failsIn_quoted _
  | _ => exact failsIn_ok

theorem failsIn_number? (v : Value) : FailsIn (· = .domain) v.number? := by
  cases v with
  | text s => exact failsIn_numberOfText? s
  | _ => exact failsIn_ok

theorem failsIn_toScalar (v : Value) : FailsIn (· = .domain) v.toScalar := by
  unfold toScalar
  split
  · exact failsIn_pure
  · refine failsIn_bind.mpr ⟨failsIn_number? v, fun n _ => ?_⟩
    cases n <;> simp [failsIn_toText]

@[simp] theorem findsNoCycle_number? (v : Value) : FindsNoCycle v.number? :=
  (failsIn_number? v).findsNoCycle (by decide)

@[simp] theorem findsNoCycle_toScalar (v : Value) : FindsNoCycle v.toScalar :=
  (failsIn_toScalar v).findsNoCycle (by decide)

end Value

/-! ## Functions -/

namespace Formula

namespace MathFunction

@[simp] theorem findsNoCycle_compute (f : MathFunction) (ns : List Number) :
    FindsNoCycle (f.compute ns) := by
  unfold compute
  split
  case h_14 => split <;> simp [Failure.kind, Number.mod]
  all_goals simp [Failure.kind, Number.findsNoCycle_toMultiple]

@[simp] theorem findsNoCycle_apply (strict : Bool) (f : MathFunction) (args : List Scalar) :
    FindsNoCycle (f.apply strict args) := by
  unfold apply
  split <;> simp [Failure.kind, failsIn_mapM]

end MathFunction

@[simp] theorem LogicalFunction.findsNoCycle_apply (f : LogicalFunction) (args : List Scalar) :
    FindsNoCycle (f.apply args) := by
  unfold apply
  split <;> simp [Failure.kind, failsIn_mapM]

namespace TextFunction

@[simp] theorem findsNoCycle_countArgument (strict : Bool) (f : TextFunction) (v : Scalar) :
    FindsNoCycle (f.countArgument strict v) := by
  unfold countArgument
  simp [Failure.kind]

@[simp] theorem findsNoCycle_mapText (f : List Char → List Char) (v : Scalar) :
    FindsNoCycle (mapText f v) := by
  unfold mapText
  simp

@[simp] theorem findsNoCycle_apply (strict : Bool) (f : TextFunction) (args : List Scalar) :
    FindsNoCycle (f.apply strict args) := by
  unfold apply
  split <;> simp [Failure.kind, failsIn_mapM]

end TextFunction

namespace DateFunction

@[simp] theorem findsNoCycle_ofSerial (f : DateFunction) (serial : Int) :
    FindsNoCycle (f.ofSerial serial) := by
  unfold ofSerial
  split <;> simp [Failure.kind]

@[simp] theorem findsNoCycle_ofText (f : DateFunction) (s : String) :
    FindsNoCycle (f.ofText s) := by
  unfold ofText
  split <;> simp [Failure.kind]

@[simp] theorem findsNoCycle_dateArgument (f : DateFunction) (v : Scalar) :
    FindsNoCycle (f.dateArgument v) := by
  cases v <;> simp [dateArgument, Failure.kind]

@[simp] theorem findsNoCycle_wholeArgument (strict : Bool) (f : DateFunction) (v : Scalar) :
    FindsNoCycle (wholeArgument strict f v) := by
  unfold wholeArgument
  simp

@[simp] theorem findsNoCycle_checkPart (n : Int) : FindsNoCycle (checkPart n) := by
  unfold checkPart
  repeat' split
  all_goals simp [Failure.kind]

@[simp] theorem findsNoCycle_ofParts (year month day : Int) :
    FindsNoCycle (ofParts year month day) := by
  unfold ofParts
  simp only [failsIn_bind]
  refine ⟨findsNoCycle_checkPart year, fun _ _ => ⟨findsNoCycle_checkPart month, fun _ _ =>
    ⟨findsNoCycle_checkPart day, fun _ _ => ?_⟩⟩⟩
  split <;> simp [Failure.kind]

@[simp] theorem findsNoCycle_endOfMonthAfter (d : Date) (months : Int) :
    FindsNoCycle (endOfMonthAfter d months) := by
  unfold endOfMonthAfter
  dsimp only
  split <;> simp [Failure.kind]

@[simp] theorem findsNoCycle_universal (clock : Moment) : FindsNoCycle (universal clock) := by
  unfold universal
  split <;> simp [Failure.kind]

@[simp] theorem findsNoCycle_apply (strict : Bool) (clock : Moment) (f : DateFunction)
    (args : List Scalar) : FindsNoCycle (f.apply strict clock args) := by
  unfold apply
  split <;> simp [Failure.kind]

end DateFunction

namespace Aggregate

@[simp] theorem findsNoCycle_numbersOf (strict : Bool) (f : Aggregate) (arg : Argument) :
    FindsNoCycle (f.numbersOf strict arg) := by
  unfold numbersOf
  split <;> simp

@[simp] theorem findsNoCycle_allNumbers (strict : Bool) (f : Aggregate) (args : List Argument) :
    FindsNoCycle (f.allNumbers strict args) := by
  unfold allNumbers
  simp [failsIn_mapM]

@[simp] theorem findsNoCycle_total (ns : List Number) : FindsNoCycle (total ns) :=
  failsIn_foldlM (fun _ _ => Number.findsNoCycle_combine _ _ _ _) _

@[simp] theorem findsNoCycle_pick (f : Aggregate) (direction : Ordering) (ns : List Number) :
    FindsNoCycle (f.pick direction ns) := by
  unfold pick
  split <;> simp [Failure.kind]

@[simp] theorem findsNoCycle_mean (ns : List Number) : FindsNoCycle (mean ns) := by
  unfold mean
  split <;> simp [Failure.kind]

@[simp] theorem findsNoCycle_apply (strict : Bool) (f : Aggregate) (args : List Argument) :
    FindsNoCycle (f.apply strict args) := by
  unfold apply
  cases f <;> simp [Failure.kind]

end Aggregate

/-! ## Formulas -/

@[simp] theorem findsNoCycle_numberLiteral (text : String) : FindsNoCycle (numberLiteral text) := by
  unfold numberLiteral
  split <;> simp [Failure.kind]

@[simp] theorem findsNoCycle_compute {op : Number → Number → Except Failure Number}
    (h : ∀ m n, FindsNoCycle (op m n)) (m n : Number) : FindsNoCycle (compute op m n) := by
  unfold compute
  simp [h]

theorem findsNoCycle_arithmetic? {op : BinaryOp} {f : Number → Number → Except Failure Number}
    (h : arithmetic? op = some f) (m n : Number) : FindsNoCycle (f m n) := by
  unfold arithmetic? at h
  split at h
  all_goals first
    | cases h; simp [Number.add, Number.sub, Number.mul]
    | cases h

theorem findsNoCycle_parse (text : String) : FindsNoCycle (parse text) := by
  have hrun : ∀ tokens r stop, FindsNoCycle (Reading.run r stop tokens) := by
    intro tokens
    induction tokens with
    | nil =>
        intro r stop
        unfold Reading.run
        split
        · simp [Failure.kind]
        · split <;> simp [Failure.kind]
    | cons t tokens ih =>
        intro r stop
        unfold Reading.run
        dsimp only
        split
        · exact ih _ _
        · simp [Failure.kind]
  unfold parse
  split
  · exact hrun _ _ _
  · simp [Failure.kind]

end Formula

/-! ## Ranges -/

@[simp] theorem Address.findsNoCycle_decode (s : String) : FindsNoCycle (decode s) := by
  unfold decode
  split
  · exact failsIn_ok
  · split <;> simp [Failure.kind]

namespace Rectangle

@[simp] theorem findsNoCycle_ofTexts (first last : String) : FindsNoCycle (ofTexts first last) := by
  unfold ofTexts
  refine failsIn_bind.mpr ⟨Address.findsNoCycle_decode first, fun a _ =>
    failsIn_bind.mpr ⟨Address.findsNoCycle_decode last, fun b _ => ?_⟩⟩
  split <;> simp [Failure.kind]

@[simp] theorem findsNoCycle_populated (r : Rectangle) (keys : List String) :
    FindsNoCycle (r.populated keys) := by
  have hinside : ∀ s, FindsNoCycle (r.containsText s) := by
    intro s
    unfold containsText
    refine failsIn_bind.mpr ⟨Address.findsNoCycle_decode s, fun a _ => ?_⟩
    cases a <;> exact failsIn_pure
  unfold populated hits Address.sortRowMajor
  simp [failsIn_filterM, failsIn_mapM, hinside]

end Rectangle

end Worksheet
