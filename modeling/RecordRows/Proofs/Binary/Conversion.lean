import RecordRows.Proofs.Binary.Nearest

/-!
Conversions between numbers. Integers are read as the nearest numbers of both precisions, and numbers
that are not too large are narrowed to the nearest single precision ones (`rounds_ofInt`,
`rounds_narrow`). All of them keep the order, as widening does (`widen_atMost_iff`).
-/
namespace RecordRows

open Binary Format

/-! ## Rounded numbers -/

/-- `y` is nearest to `x` among the double precision numbers, ties to even, and has the sign
`negative`. -/
def Binary64.Rounds (negative : Bool) (x : ℚ) (y : Binary64) : Prop :=
  double.IsNearest x y.read ∧ y.read.negative = negative

/-- `y` is nearest to `x` among the single precision numbers, ties to even, and has the sign
`negative`. -/
def Binary32.Rounds (negative : Bool) (x : ℚ) (y : Binary32) : Prop :=
  single.IsNearest x y.read ∧ y.read.negative = negative

/-- An integer as a quotient with its sign. -/
theorem signed_natAbs (n : Int) :
    (if decide (n < 0) then -((n.natAbs : ℚ) / (1 : Nat)) else (n.natAbs : ℚ) / (1 : Nat)) = n := by
  rw [Nat.cast_one, div_one, Nat.cast_natAbs, Int.cast_abs]
  by_cases negative : n < 0
  · have : (n : ℚ) < 0 := by exact_mod_cast negative
    simp [negative, abs_of_neg this]
  · have : (0 : ℚ) ≤ n := by exact_mod_cast not_lt.mp negative
    simp [negative, abs_of_nonneg this]

theorem natAbs_lt_limit {f : Format} (wide : 128 ≤ twoTo (f.exponentBits - 1)) {n : Int}
    (small : n.natAbs < 2 ^ 127) : (n.natAbs : ℚ) / (1 : Nat) < f.limit := by
  calc (n.natAbs : ℚ) / (1 : Nat) < 2 ^ 127 := by
        rw [Nat.cast_one, div_one]
        exact_mod_cast small
    _ ≤ 2 ^ ((twoTo (f.exponentBits - 1) : Int) - 1) := by
        rw [← zpow_natCast]
        exact zpow_le_zpow_right₀ one_le_two (by omega)
    _ ≤ f.limit := f.le_limit

namespace Binary64

theorem rounds_iff (s : Bool) {num den : Nat} (hd : 0 < den) (small : (num : ℚ) / den < double.limit)
    {y : Binary64} :
    y.Rounds s (if s then -(num / den) else num / den) ↔ y = ofPattern (double.round s num den) := by
  have bound : double.round s num den < 2 ^ 64 := double.round_lt s num den
  have pattern : y.bits.toNat = double.round s num den ↔ y = ofPattern (double.round s num den) := by
    constructor
    · intro h
      rw [← h, ofPattern, UInt64.ofNat_toNat]
    · rintro rfl
      exact UInt64.toNat_ofNat_of_lt' bound
  rw [← pattern]
  exact round_eq_iff (by decide) (by decide) s hd small y.bits.toNat_lt

theorem rounds_ofInt {n : Int} (small : n.natAbs < 2 ^ 127) {y : Binary64} :
    y.Rounds (n < 0) n ↔ y = ofInt n := by
  have nearest := rounds_iff (decide (n < 0)) one_pos (natAbs_lt_limit (by decide) small) (y := y)
  rwa [signed_natAbs] at nearest

theorem ofInt_atMost {n m : Int} (hn : n.natAbs < 2 ^ 127) (hm : m.natAbs < 2 ^ 127) (le : n ≤ m) :
    (ofInt n).read.AtMost (ofInt m).read :=
  ((rounds_ofInt hn).mpr rfl).1.atMost (by decide) ((rounds_ofInt hm).mpr rfl).1
    (by exact_mod_cast le)

end Binary64

namespace Binary32

theorem rounds_iff (s : Bool) {num den : Nat} (hd : 0 < den) (small : (num : ℚ) / den < single.limit)
    {y : Binary32} :
    y.Rounds s (if s then -(num / den) else num / den) ↔ y = ofPattern (single.round s num den) := by
  have bound : single.round s num den < 2 ^ 32 := single.round_lt s num den
  have pattern : y.bits.toNat = single.round s num den ↔ y = ofPattern (single.round s num den) := by
    constructor
    · intro h
      rw [← h, ofPattern, UInt32.ofNat_toNat]
    · rintro rfl
      exact UInt32.toNat_ofNat_of_lt' bound
  rw [← pattern]
  exact round_eq_iff (by decide) (by decide) s hd small y.bits.toNat_lt

theorem rounds_ofInt {n : Int} (small : n.natAbs < 2 ^ 127) {y : Binary32} :
    y.Rounds (n < 0) n ↔ y = ofInt n := by
  have nearest := rounds_iff (decide (n < 0)) one_pos (natAbs_lt_limit (by decide) small) (y := y)
  rwa [signed_natAbs] at nearest

theorem ofInt_atMost {n m : Int} (hn : n.natAbs < 2 ^ 127) (hm : m.natAbs < 2 ^ 127) (le : n ≤ m) :
    (ofInt n).read.AtMost (ofInt m).read :=
  ((rounds_ofInt hn).mpr rfl).1.atMost (by decide) ((rounds_ofInt hm).mpr rfl).1
    (by exact_mod_cast le)

/-- A number below the limit is narrowed to the nearest one. -/
theorem rounds_narrow {x : Binary64} {v : ℚ} (hv : x.read.value? = some v)
    (small : |v| < single.limit) {y : Binary32} :
    y.Rounds x.read.negative v ↔ y = narrow x := by
  obtain ⟨s, m, q, read, rfl⟩ := Reading.value?_eq_some_iff.mp hv
  have ratio : ((m * twoTo q.toNat : Nat) : ℚ) / (twoTo (-q).toNat : Nat) = m * 2 ^ q := by
    rw [Nat.cast_mul, mul_div_assoc, twoTo_div_twoTo]
  rw [abs_signed, ← ratio] at small
  have nearest := rounds_iff s (twoTo_pos _) small (y := y)
  rw [ratio] at nearest
  rw [narrow, read]
  exact nearest

/-! ## Order -/

theorem read_narrow_infinite {x : Binary64} {s : Bool} (h : x.read = .infinite s) :
    (narrow x).read = .infinite s := by
  rw [narrow, h, ofReading, write, read_ofPattern_signed le_rfl]
  exact read_write_infinite s

theorem value?_widen (y : Binary32) : y.widen.read.value? = y.read.value? := by
  cases h : y.read with
  | nan => rw [read_widen_nan h]
  | infinite s => rw [read_widen_infinite h]
  | finite s m q =>
    obtain ⟨n, r, read, value⟩ := read_widen_finite h
    rw [read, Reading.value?, Reading.value?, signed, signed, value]

/-- Widening makes and loses no infinity and no NaN. -/
theorem read_widen_eq_iff {r : Reading} (h : r.isFinite = false) (y : Binary32) :
    y.widen.read = r ↔ y.read = r := by
  cases hy : y.read with
  | nan => rw [read_widen_nan hy]
  | infinite s => rw [read_widen_infinite hy]
  | finite s m q =>
    obtain ⟨n, p, read, -⟩ := read_widen_finite hy
    rw [read]
    constructor <;> rintro rfl <;> cases h

/-- Widening keeps the order, and makes none. -/
theorem widen_atMost_iff (y z : Binary32) :
    y.widen.read.AtMost z.widen.read ↔ y.read.AtMost z.read := by
  cases hz : z.read with
  | nan =>
    rw [read_widen_nan hz]
    exact iff_of_false (Reading.not_atMost_nan _) (Reading.not_atMost_nan _)
  | infinite t =>
    rw [read_widen_infinite hz, Reading.atMost_infinite_iff, Reading.atMost_infinite_iff, Ne, Ne,
      read_widen_eq_iff rfl, read_widen_eq_iff rfl]
  | finite t n r =>
    rw [← hz]
    cases hy : y.read with
    | nan =>
      rw [read_widen_nan hy]
      exact iff_of_false (Reading.not_nan_atMost _) (Reading.not_nan_atMost _)
    | infinite s =>
      rw [read_widen_infinite hy, Reading.infinite_atMost_iff, Reading.infinite_atMost_iff, Ne, Ne,
        read_widen_eq_iff rfl, read_widen_eq_iff rfl]
    | finite s m q =>
      have hv : y.read.value? = some (signed s m q) := by rw [hy]; rfl
      have hw : z.read.value? = some (signed t n r) := by rw [hz]; rfl
      rw [← hy, Reading.atMost_iff_of_value hv hw, Reading.atMost_iff_of_value
        ((value?_widen y).trans hv) ((value?_widen z).trans hw)]

/-- Numbers that are not too large: below the limit of single precision, or not finite. -/
def Narrows (x : Binary64) : Prop := ∀ v, x.read.value? = some v → |v| < single.limit

theorem isNearest_narrow {x : Binary64} (hx : Narrows x) {v : ℚ} (hv : x.read.value? = some v) :
    single.IsNearest v (narrow x).read :=
  ((rounds_narrow hv (hx v hv)).mpr rfl).1

theorem read_narrow_ne_nan {x : Binary64} (hx : Narrows x) (number : x.read ≠ .nan) :
    (narrow x).read ≠ .nan := by
  cases h : x.read with
  | nan => exact absurd h number
  | infinite s => simp [read_narrow_infinite h]
  | finite s m q =>
    obtain ⟨w, hw, -⟩ := isNearest_narrow hx (v := signed s m q) (by rw [h]; rfl)
    rintro nan
    rw [nan] at hw
    cases hw

/-- Narrowing keeps the order of what is not too large. -/
theorem narrow_atMost {x z : Binary64} (hx : Narrows x) (hz : Narrows z)
    (le : x.read.AtMost z.read) : (narrow x).read.AtMost (narrow z).read := by
  cases hzr : z.read with
  | nan => exact absurd (hzr ▸ le) (Reading.not_atMost_nan _)
  | infinite t =>
    rw [hzr, Reading.atMost_infinite_iff] at le
    rw [read_narrow_infinite hzr, Reading.atMost_infinite_iff]
    exact le.imp read_narrow_infinite fun ⟨up, number⟩ => ⟨up, read_narrow_ne_nan hx number⟩
  | finite t n r =>
    have hw : z.read.value? = some (signed t n r) := by rw [hzr]; rfl
    cases hxr : x.read with
    | nan => exact absurd (hxr ▸ le) (Reading.not_nan_atMost _)
    | infinite s =>
      rw [hxr, Reading.infinite_atMost_iff] at le
      rw [read_narrow_infinite hxr, Reading.infinite_atMost_iff]
      exact le.imp read_narrow_infinite fun ⟨down, number⟩ => ⟨down, read_narrow_ne_nan hz number⟩
    | finite s m q =>
      have hv : x.read.value? = some (signed s m q) := by rw [hxr]; rfl
      exact (isNearest_narrow hx hv).atMost (by decide) (isNearest_narrow hz hw)
        ((Reading.atMost_iff_of_value hv hw).mp le)

/-! ## The greatest number -/

/-- The greatest single precision number. -/
def greatest : ℚ := 2 ^ 128 - 2 ^ 104

theorem limit_single_eq : single.limit = greatest + 2 ^ 103 := by
  rw [limit_single, greatest]
  norm_num

theorem canonical_greatest : single.Canonical 16777215 104 ∧
    single.pattern 16777215 104 + 1 = single.infinity ∧
    greatest = (16777215 : Nat) * 2 ^ (104 : Int) := by
  refine ⟨⟨by decide, by decide, .inr (by decide)⟩, by decide, ?_⟩
  norm_num [greatest]

/-- The greatest number and its negative. -/
theorem exists_value_greatest (s : Bool) :
    ∃ y : Binary32, y.read.value? = some (if s then -greatest else greatest) := by
  obtain ⟨canonical, last, value⟩ := canonical_greatest
  refine ⟨ofPattern ((if s then single.signBit else 0) + single.pattern 16777215 104), ?_⟩
  rw [read_ofPattern_signed (by omega), read_pattern canonical (by omega), value]
  rfl

theorem abs_value_le_greatest {y : Binary32} {v : ℚ} (hv : y.read.value? = some v) :
    |v| ≤ greatest := by
  obtain ⟨canonical, last, value⟩ := canonical_greatest
  obtain ⟨s, m, q, read, rfl⟩ := Reading.value?_eq_some_iff.mp hv
  obtain ⟨other, -, inside, -⟩ := canonical_of_read read
  rw [abs_signed, value, ← not_lt, ← canonical.pattern_lt_iff other]
  omega

theorem isGreatest_greatest : IsGreatest {v | ∃ y : Binary32, y.read.value? = some v} greatest :=
  ⟨exists_value_greatest false, fun _ ⟨_, hv⟩ => (le_abs_self _).trans (abs_value_le_greatest hv)⟩

/-- Above the greatest number, but below the limit, that number is the nearest one. -/
theorem value?_narrow_of_greatest_lt {x : Binary64} {v : ℚ} (hv : x.read.value? = some v)
    (large : greatest < |v|) (small : |v| < single.limit) :
    (narrow x).read.value? = some (if v < 0 then -greatest else greatest) := by
  obtain ⟨⟨w, hw, near⟩, -⟩ := (rounds_narrow hv small).mpr rfl
  obtain ⟨y, hy⟩ := exists_value_greatest (decide (v < 0))
  have nearest := (near y.bits.toNat _ hy).1
  have bounded := abs_le.mp (abs_value_le_greatest hw)
  rw [hw, Option.some_inj]
  by_cases negative : v < 0
  · rw [abs_of_neg negative] at large
    simp only [negative, decide_true, if_true] at nearest ⊢
    rw [abs_of_pos (by linarith : 0 < -greatest - v)] at nearest
    linarith [le_abs_self (w - v)]
  · rw [abs_of_nonneg (not_lt.mp negative)] at large
    simp only [negative, decide_false, Bool.false_eq_true, if_false] at nearest ⊢
    rw [abs_of_neg (by linarith : greatest - v < 0)] at nearest
    linarith [neg_abs_le (w - v)]

end Binary32

end RecordRows
