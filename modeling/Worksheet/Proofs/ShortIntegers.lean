import Worksheet.Proofs.FiniteNumbers
import Worksheet.Proofs.Integers

/-!
# Integers that are written out

An integer is written out if it has no more digits than that is done for, and so is each integer
that is read from a text.  Binary64 numbers are always written out, since the whole ones among them
have far fewer digits.  So what matters is which operations can come to a longer integer from ones
that are not: those that have an exact result and can make it greater than their operands.
-/

namespace Worksheet

/-! ## Digits that are read -/

theorem Text.digitValue?_lt {c : Char} {d : Nat} (h : Text.digitValue? c = some d) : d < 10 := by
  unfold Text.digitValue? at h
  split at h
  · split at h
    · next hdigit =>
        obtain rfl := Option.some.inj h
        have hbounds := Address.isDigit_iff.mp hdigit
        omega
    · cases h
  · obtain ⟨z, hz, rfl⟩ := Option.map_eq_some_iff.mp h
    have hbounds := List.find?_some hz
    simp only [Bool.and_eq_true, decide_eq_true_eq] at hbounds
    omega

namespace Decimal

theorem lt_of_mem_spanDigits {cs : List Char} : ∀ d ∈ (spanDigits cs).1, d < 10 := by
  induction cs with
  | nil => exact fun d hd => absurd hd List.not_mem_nil
  | cons c cs ih =>
      unfold spanDigits
      cases hc : Text.digitValue? c with
      | none => exact fun d hd => absurd hd List.not_mem_nil
      | some d => exact List.forall_mem_cons.mpr ⟨Text.digitValue?_lt hc, ih⟩

theorem lt_of_mem_whole {cs : List Char} {n : Numeral} (h : Numeral.read? cs = some n) :
    ∀ d ∈ n.whole, d < 10 :=
  whole_of_read? h ▸ lt_of_mem_spanDigits

theorem ofDigits_concat (ds : List Nat) (d : Nat) : ofDigits (ds ++ [d]) = 10 * ofDigits ds + d :=
  List.foldl_concat ..

theorem ofDigits_lt (ds : List Nat) (h : ∀ d ∈ ds, d < 10) : ofDigits ds < 10 ^ ds.length := by
  induction ds using List.reverseRecOn with
  | nil => exact Nat.one_pos
  | append_singleton ds d ih =>
      have hds := ih fun x hx => h x (List.mem_append_left _ hx)
      have hd := h d (by simp)
      rw [ofDigits_concat, List.length_append, List.length_singleton, Nat.pow_succ]
      omega

theorem natAbs_toInt (n : Numeral) : n.toInt.natAbs = ofDigits n.whole := by
  unfold Numeral.toInt
  split
  · rw [Int.natAbs_neg, Int.natAbs_natCast]
  · exact Int.natAbs_natCast _

end Decimal

/-! ## Numbers that are written out -/

/-- Numbers from two to the power 1024 on are infinite. -/
theorem Binary64.overflowUnits_eq : overflowUnits = unitsPerOne * 2 ^ 1024 := by
  decide +kernel

namespace Number

/-- Whether a number is no integer with more digits than are written out. -/
def Short : Number → Prop
  | int i => i.natAbs < 10 ^ maxDigits
  | float _ => True

instance : DecidablePred Short
  | int i => inferInstanceAs (Decidable (i.natAbs < 10 ^ maxDigits))
  | float _ => inferInstanceAs (Decidable True)

variable {l m n : Number}

/-- The whole numbers of the format have fewer digits than are written out. -/
theorem two_pow_le : 2 ^ 1024 ≤ 10 ^ maxDigits := by
  decide +kernel

/-- A whole number of the format is short. -/
theorem short_of_truncate {x : Binary64} (hx : x.Representable) {i : Int}
    (h : x.truncate? = some i) : (int i).Short := by
  cases hx with
  | @finite s units _ hunits =>
      obtain rfl := Option.some.inj h
      have habs : (Binary64.signedUnits s units).natAbs = units := by
        unfold Binary64.signedUnits
        split
        · rw [Int.natAbs_neg, Int.natAbs_natCast]
        · exact Int.natAbs_natCast _
      have hunits : units < Binary64.unitsPerOne * 2 ^ 1024 :=
        hunits.trans_eq Binary64.overflowUnits_eq
      show (Int.tdiv _ _).natAbs < _
      rw [Int.natAbs_tdiv, habs, Int.natAbs_natCast]
      exact (Nat.div_lt_of_lt_mul hunits).trans_le two_pow_le
  | infinite s => cases h
  | nan => cases h

/-- **A number is displayed unless it is too long an integer.** -/
theorem exists_displayText_iff (hn : n.Representable) :
    (∃ t, n.displayText = .ok t) ↔ n.Short := by
  cases n with
  | int i => exact exists_intText_iff
  | float x =>
      refine ⟨fun _ => trivial, fun _ => ?_⟩
      simp only [displayText]
      split
      · next hwhole => exact exists_intText_iff.mpr (short_of_truncate hn hwhole)
      · exact ⟨_, rfl⟩

theorem cause_of_intText {i : Int} {cause : Failure} (h : intText i = .error cause) :
    cause = .integerTooLongToWrite := by
  unfold intText at h
  split at h
  · exact (Except.error.inj h).symm
  · cases h

/-- A number that is not displayed is too long. -/
theorem cause_of_displayText {cause : Failure} (h : n.displayText = .error cause) :
    cause = .integerTooLongToWrite := by
  cases n with
  | int i => exact cause_of_intText h
  | float x =>
      simp only [displayText] at h
      split at h
      · exact cause_of_intText h
      · cases h

/-! ## What operations come to -/

theorem Short.neg (hn : n.Short) : n.neg.Short := by
  cases n with
  | int i => exact (Int.natAbs_neg i).trans_lt hn
  | float x => trivial

theorem Short.abs (hn : n.Short) : n.abs.Short := by
  cases n with
  | int i => exact (Int.natAbs_natCast _).trans_lt hn
  | float x => trivial

theorem natAbs_fmod_lt (i : Int) {j : Int} (hj : j ≠ 0) : (i.fmod j).natAbs < j.natAbs := by
  have hnonneg := Int.emod_nonneg i hj
  have hlt := Int.emod_lt i hj
  rw [Int.fmod_eq_emod]
  split
  · omega
  · next h =>
      rw [not_or] at h
      have hne : i % j ≠ 0 := fun h0 => h.2 (Int.dvd_of_emod_eq_zero h0)
      omega

theorem Short.mod (hn : n.Short) (hzero : n.isZero = false) (h : m.mod n = .ok l) : l.Short := by
  rcases exists_of_combine h with ⟨i, j, rfl, rfl, rfl⟩ | ⟨x, y, -, -, rfl⟩
  · exact (natAbs_fmod_lt i (by simpa [isZero] using hzero)).trans hn
  · trivial

theorem short_quotient (h : quotient m n = .ok l) : l.Short := by
  unfold quotient at h
  split at h
  · dsimp only at h
    split at h
    · exact Except.ok.inj h ▸ trivial
    · cases h
  · obtain ⟨x, y, -, -, rfl⟩ := exists_of_rounded h
    trivial

theorem short_div (h : div m n = .ok l) : l.Short := by
  unfold div at h
  split at h
  · cases h
  · exact short_quotient h

theorem Short.of_checked (h : m.checked = .ok n) (hm : m.Short) : n.Short :=
  (isFinite_of_checked h).1 ▸ hm

theorem short_map {f : Binary64 → Binary64} (h : n.map f = .ok m) : m.Short := by
  obtain ⟨x, -, h⟩ := exists_of_bind h
  exact .of_checked h trivial

theorem short_sqrt (h : n.sqrt = .ok m) : m.Short := by
  unfold sqrt at h
  split at h
  · obtain ⟨_, -, h⟩ := exists_of_bind h
    cases h
  · exact short_map h

theorem short_log10 (h : n.log10 = .ok m) : m.Short := by
  unfold log10 at h
  cases n with
  | int i =>
      dsimp only at h
      split at h
      · obtain ⟨_, -, h⟩ := exists_of_bind h
        cases h
      · exact .of_checked h trivial
  | float x =>
      dsimp only at h
      split at h
      · obtain ⟨_, -, h⟩ := exists_of_bind h
        cases h
      · exact .of_checked h trivial

theorem Short.round {places : Int} (hn : n.Short) (h : n.round places = .ok m) : m.Short := by
  have hfloats (h : round.roundFloat places n = .ok m) : m.Short := by
    unfold round.roundFloat at h
    obtain ⟨x, -, h⟩ := exists_of_bind h
    cases x with
    | finite s units => exact Except.ok.inj h ▸ trivial
    | infinite s => exact Except.ok.inj h ▸ trivial
    | nan => exact Except.ok.inj h ▸ trivial
  unfold Number.round at h
  split at h
  · split at h
    · exact Except.ok.inj h ▸ hn
    · exact hfloats h
  · exact hfloats h

/-! ## Reading numbers -/

theorem short_ofNumeral {cs : List Char} {numeral : Decimal.Numeral}
    (hread : Decimal.Numeral.read? cs = some numeral) (h : ofNumeral numeral = .ok n) :
    n.Short := by
  unfold ofNumeral at h
  split at h
  · split at h
    · cases h
    · next hlength =>
        obtain rfl := Except.ok.inj h
        have hlt := Decimal.ofDigits_lt _ (Decimal.lt_of_mem_whole hread)
        rw [← Decimal.natAbs_toInt] at hlt
        exact hlt.trans_le (Nat.pow_le_pow_right (by decide) (Nat.not_lt.mp hlength))
  · exact Except.ok.inj h ▸ trivial

end Number

theorem short_numberOfText? {text : String} {n : Number} (h : numberOfText? text = .ok (some n)) :
    n.Short := by
  unfold numberOfText? at h
  split at h
  · cases h
  · next numeral hread =>
      obtain ⟨m, hm, h⟩ := exists_of_bind h
      have h := Except.ok.inj h
      split at h
      · obtain rfl := Option.some.inj h
        exact Number.short_ofNumeral hread hm
      · cases h

theorem Number.short_ofBool (b : Bool) : (numberOfBool b).Short := by
  cases b
  · show Int.natAbs 0 < _
    exact Nat.pow_pos (by decide)
  · exact Nat.one_lt_pow (by decide) (by decide)

theorem Scalar.asNumber_short {strict : Bool} {function : Option String} {x : Scalar} {n : Number}
    (hx : ∀ m, x = .number m → m.Short) (h : x.asNumber strict function = .ok n) : n.Short := by
  cases x with
  | number m =>
      simp only [asNumber] at h
      split at h
      · exact Except.ok.inj h ▸ hx m rfl
      · obtain ⟨_, -, h⟩ := exists_of_bind h
        cases h
  | bool b => exact Except.ok.inj h ▸ Number.short_ofBool b
  | text t =>
      obtain ⟨o, ho, h⟩ := exists_of_bind h
      cases o with
      | none => cases h
      | some m => exact Except.ok.inj h ▸ short_numberOfText? ho
  | cellText t =>
      simp only [asNumber] at h
      split at h
      · cases h
      · exact Except.ok.inj h ▸ Number.short_ofBool false

/-- A value that is no integer with more digits than are written out. -/
def Value.Short (v : Value) : Prop :=
  ∀ n, v = .number n → n.Short

theorem Value.number?_short {v : Value} {n : Number} (hv : v.Short)
    (h : v.number? = .ok (some n)) : n.Short := by
  cases v with
  | null => cases h
  | bool b =>
      obtain rfl := Option.some.inj (Except.ok.inj h)
      exact Number.short_ofBool b
  | number m =>
      have h := Except.ok.inj h
      split at h
      · exact Option.some.inj h ▸ hv m rfl
      · cases h
  | text t => exact short_numberOfText? h
  | list items => cases h
  | dict entries => cases h
  | stamp shown quoted => cases h

theorem Value.toScalar_short {v : Value} {n : Number} (hv : v.Short)
    (h : v.toScalar = .ok (.number n)) : n.Short := by
  unfold toScalar at h
  split at h
  · exact Scalar.number.inj (Except.ok.inj h) ▸ Number.short_ofBool false
  · obtain ⟨o, ho, h⟩ := exists_of_bind h
    cases o with
    | none =>
        obtain ⟨_, -, h⟩ := exists_of_bind h
        cases h
    | some m => exact Scalar.number.inj (Except.ok.inj h) ▸ number?_short hv ho

namespace Formula

theorem short_numberLiteral {text : String} {n : Number} (h : numberLiteral text = .ok n) :
    n.Short := by
  unfold numberLiteral at h
  split at h
  · next numeral hread =>
      obtain ⟨m, hm, h⟩ := exists_of_bind h
      exact .of_checked h (Number.short_ofNumeral hread hm)
  · cases h

/-- Powers and multiples alone can be longer than what they are computed from. -/
theorem MathFunction.compute_short {f : MathFunction} {ns : List Number} {n : Number}
    (hf : f ≠ .power ∧ f ≠ .ceiling ∧ f ≠ .floor) (hns : ∀ m ∈ ns, m.Short)
    (h : f.compute ns = .ok n) : n.Short := by
  unfold compute at h
  split at h
  · exact absurd rfl hf.1
  · exact Number.short_sqrt h
  · exact Number.short_map h
  · exact Number.short_map h
  · exact Number.short_map h
  · exact Number.short_log10 h
  · exact (hns _ List.mem_cons_self).round h
  · obtain ⟨places, -, h⟩ := exists_of_bind h
    exact (hns _ List.mem_cons_self).round h
  · exact absurd rfl hf.2.1
  · exact absurd rfl hf.2.1
  · exact absurd rfl hf.2.2
  · exact absurd rfl hf.2.2
  · exact Except.ok.inj h ▸ (hns _ List.mem_cons_self).abs
  · split at h
    · cases h
    · next hzero => exact .mod (hns _ (by simp)) (by simpa using hzero) h
  · exact Except.ok.inj h ▸ trivial
  · exact Except.ok.inj h ▸ trivial
  · cases h

end Formula

end Worksheet
