import RecordRows.Proofs.Binary.Widening

/-!
The values of readings, as exact rationals with their sign. The order of two finite readings is that
of their values (`atMost_finite_iff`). The finite numbers of a format are counted by their ordinals,
which have the order of the values (`Canonical.ordinal_lt_iff`) and leave no gap
(`exists_ordinal`): between two numbers of a format lies another one unless their ordinals are
neighbours.
-/
namespace RecordRows.Binary

/-- The number `± m * 2 ^ q`. -/
def signed (s : Bool) (m : Nat) (q : Int) : ℚ := if s then -(m * 2 ^ q) else m * 2 ^ q

theorem abs_signed (s : Bool) (m : Nat) (q : Int) : |signed s m q| = m * 2 ^ q := by
  have positive : (0 : ℚ) ≤ m * 2 ^ q := by positivity
  cases s
  · exact abs_of_nonneg positive
  · exact (abs_neg _).trans (abs_of_nonneg positive)

namespace Reading

/-- The value of a finite reading. -/
def value? : Reading → Option ℚ
  | .finite s m q => some (signed s m q)
  | _ => none

theorem value?_eq_some_iff {r : Reading} {v : ℚ} :
    r.value? = some v ↔ ∃ s m q, r = .finite s m q ∧ signed s m q = v := by
  cases r <;> simp [value?]

/-- A finite reading whose significand is even. -/
def IsEven : Reading → Prop
  | .finite _ m _ => m % 2 = 0
  | _ => False

/-- Less or equal, as numbers are compared. A NaN is neither. -/
def AtMost (a b : Reading) : Prop := a.compare? b = some .lt ∨ a.compare? b = some .eq

theorem scaled_eq {q : Int} {shift : Nat} (h : -q ≤ shift) (s : Bool) (m : Nat) :
    (scaled s m q shift : ℚ) = signed s m q * 2 ^ shift := by
  have power : (2 : ℚ) ^ (q + shift).toNat = 2 ^ q * 2 ^ shift := by
    rw [← zpow_natCast, ← zpow_natCast, Int.toNat_of_nonneg (by omega), zpow_add₀ two_ne_zero]
  cases s <;> simp [scaled, signed, twoTo_eq, power, mul_assoc]

theorem atMost_finite_iff {s t : Bool} {m n : Nat} {q r : Int} :
    AtMost (.finite s m q) (.finite t n r) ↔ signed s m q ≤ signed t n r := by
  have positive : (0 : ℚ) < 2 ^ (max (-q) (-r)).toNat := by positivity
  rw [← mul_le_mul_iff_left₀ positive, ← scaled_eq (by omega), ← scaled_eq (by omega),
    Int.cast_le, AtMost, compare?]
  simp only [Option.some_inj, compare_lt_iff_lt, compare_eq_iff_eq]
  exact le_iff_lt_or_eq.symm

theorem atMost_iff_of_value {a b : Reading} {v w : ℚ} (hv : a.value? = some v)
    (hw : b.value? = some w) : a.AtMost b ↔ v ≤ w := by
  obtain ⟨s, m, q, rfl, rfl⟩ := value?_eq_some_iff.mp hv
  obtain ⟨t, n, r, rfl, rfl⟩ := value?_eq_some_iff.mp hw
  exact atMost_finite_iff

theorem not_nan_atMost (b : Reading) : ¬ AtMost .nan b := by simp [AtMost, compare?]

theorem not_atMost_nan (a : Reading) : ¬ AtMost a .nan := by
  cases a <;> simp [AtMost, compare?]

theorem atMost_infinite_iff {a : Reading} {t : Bool} :
    AtMost a (.infinite t) ↔ a = .infinite true ∨ t = false ∧ a ≠ .nan := by
  cases a with
  | nan => simp [AtMost, compare?]
  | infinite s => cases s <;> cases t <;> simp [AtMost, compare?] <;> decide
  | finite s m q => cases t <;> simp [AtMost, compare?]

theorem infinite_atMost_iff {b : Reading} {s : Bool} :
    AtMost (.infinite s) b ↔ b = .infinite false ∨ s = true ∧ b ≠ .nan := by
  cases b with
  | nan => simp [AtMost, compare?]
  | infinite t => cases s <;> cases t <;> simp [AtMost, compare?] <;> decide
  | finite t n r => cases s <;> simp [AtMost, compare?]

end Reading

namespace Format

variable {f : Format} {s t : Bool} {m n : Nat} {q r : Int}

/-! ## Ordinals -/

/-- The place of a number among the numbers of a format, from zero upwards and downwards. -/
def ordinal (f : Format) (s : Bool) (m : Nat) (q : Int) : Int :=
  if s then -(f.pattern m q : Int) else f.pattern m q

theorem Canonical.pattern_eq_zero_iff (h : f.Canonical m q) : f.pattern m q = 0 ↔ m = 0 := by
  have hF := twoTo_pos f.fractionBits
  constructor
  · intro zero
    exact (Nat.add_eq_zero_iff.mp zero).2
  · rintro rfl
    have least : q = f.leastExponent := h.full.resolve_right (by omega)
    simp [pattern, least]

theorem Canonical.ordinal_lt_iff (hm : f.Canonical m q) (hn : f.Canonical n r) :
    f.ordinal s m q < f.ordinal t n r ↔ signed s m q < signed t n r := by
  have left : (0 : ℚ) ≤ m * 2 ^ q := by positivity
  have right : (0 : ℚ) ≤ n * 2 ^ r := by positivity
  cases s <;> cases t <;> simp only [ordinal, signed, if_true, Bool.false_eq_true, if_false]
  · rw [Int.ofNat_lt, hm.pattern_lt_iff hn]
  · exact iff_of_false (by omega) (by linarith)
  · -- the two zeros are one number
    rw [← not_iff_not]
    have zeros : f.pattern m q = 0 ∧ f.pattern n r = 0 ↔ m = 0 ∧ n = 0 :=
      and_congr hm.pattern_eq_zero_iff hn.pattern_eq_zero_iff
    have nothing : (m : ℚ) * 2 ^ q = 0 ∧ (n : ℚ) * 2 ^ r = 0 ↔ m = 0 ∧ n = 0 := by
      simp [zpow_ne_zero]
    constructor
    · intro h
      have := nothing.mpr (zeros.mp (by omega))
      linarith
    · intro h
      have := zeros.mpr (nothing.mp (by constructor <;> linarith))
      omega
  · rw [neg_lt_neg_iff, neg_lt_neg_iff, Int.ofNat_lt, hn.pattern_lt_iff hm]

/-- The significand tells whether the ordinal is even. -/
theorem ordinal_even_iff (hF : 0 < f.fractionBits) :
    f.ordinal s m q % 2 = 0 ↔ m % 2 = 0 := by
  obtain ⟨F, hF⟩ : ∃ F, f.fractionBits = F + 1 := ⟨f.fractionBits - 1, by omega⟩
  have half : f.pattern m q
      = 2 * ((q - f.leastExponent).toNat * twoTo F) + m := by
    rw [pattern, hF, twoTo_eq, pow_succ', ← twoTo_eq, Nat.mul_left_comm]
  cases s <;> simp only [ordinal, half, if_true, Bool.false_eq_true, if_false] <;> omega

theorem exists_canonical {k : Nat} (h : k < f.infinity) :
    ∃ m q, f.Canonical m q ∧ f.pattern m q = k := by
  have small := Nat.mod_eq_of_lt (h.trans f.infinity_lt_signBit)
  have below : k / twoTo f.fractionBits ≠ f.topExponent := by
    intro top
    have := Nat.div_mul_le_self k (twoTo f.fractionBits)
    rw [top] at this
    exact absurd h (not_lt.mpr this)
  obtain ⟨s, m, q, read⟩ : ∃ s m q, f.read k = .finite s m q := by
    simp only [read, small, if_neg below]
    split
    · exact ⟨_, _, _, rfl⟩
    · exact ⟨_, _, _, rfl⟩
  obtain ⟨canonical, place, -, -⟩ := canonical_of_read read
  exact ⟨m, q, canonical, by rw [place, small]⟩

/-- Every place among the numbers of a format is taken. -/
theorem exists_ordinal {k : Int} (h : k.natAbs < f.infinity) :
    ∃ s m q bits, f.Canonical m q ∧ f.read bits = .finite s m q ∧ f.ordinal s m q = k := by
  obtain ⟨m, q, canonical, place⟩ := exists_canonical h
  refine ⟨decide (k < 0), m, q, _, canonical, read_pattern canonical (by rw [place]; exact h) _, ?_⟩
  by_cases negative : k < 0 <;> simp only [ordinal, place, negative, decide_true, decide_false,
    if_true, Bool.false_eq_true, if_false] <;> omega

theorem ordinal_natAbs (s : Bool) (m : Nat) (q : Int) :
    (f.ordinal s m q).natAbs = f.pattern m q := by
  cases s <;> simp [ordinal]

end Format

end RecordRows.Binary
