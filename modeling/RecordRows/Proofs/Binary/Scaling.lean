import RecordRows.Binary.Scaled
import RecordRows.Proofs.Binary.Shortest

/-!
How a numeral is read. Its digits and a power of ten are rounded first, and then their product or
quotient is rounded (`Scaled`, `Numeral.toBinary64?_spec`). So what is read is nearest to a number
that need not be the one that is spelled. The rounded steps are exact for small digits and small
powers (`Scaled.eq_of_small`).
-/
namespace RecordRows

open Binary Format

/-! ## Operations that round once -/

namespace Binary64

variable {x y : Binary64} {s t : Bool} {m n : Nat} {q r : Int}

/-- What is nearest to a number is finite and has its sign. -/
theorem Rounds.read_eq {v : ℚ} (h : y.Rounds s v) : ∃ m q, y.read = .finite s m q := by
  obtain ⟨⟨w, hw, -⟩, sign⟩ := h
  obtain ⟨t, m, q, read, -⟩ := Reading.value?_eq_some_iff.mp hw
  rw [read] at sign
  exact ⟨m, q, read.trans (by rw [← sign]; rfl)⟩

theorem ofRatio_rounds (s : Bool) {num den : Nat} (hd : 0 < den)
    (small : (num : ℚ) / den < double.limit) :
    (ofRatio s num den).Rounds s (if s then -(num / den) else num / den) :=
  (rounds_iff s hd small).mpr rfl

theorem ofRatio_not_finite (s : Bool) {num den : Nat} (hd : 0 < den)
    (large : double.limit ≤ (num : ℚ) / den) : (ofRatio s num den).isFinite = false := by
  have infinite : (ofRatio s num den).read = .infinite s := by
    have top := (roundMagnitude_eq_infinity_iff (by decide) hd).mpr large
    have same : ofRatio s num den = ofReading (.infinite s) := by
      rw [ofRatio, Format.round, top]
      rfl
    rw [same, read_ofReading, read_write_infinite]
  rw [isFinite, infinite]
  rfl

theorem mul_eq_ofRatio (hx : x.read = .finite s m q) (hy : y.read = .finite t n r) :
    ∃ num den : Nat, 0 < den ∧ (num : ℚ) / den = m * 2 ^ q * (n * 2 ^ r) ∧
      x.mul y = ofRatio (s != t) num den := by
  refine ⟨_, _, twoTo_pos _, ?_, by rw [mul, hx, hy]⟩
  rw [Nat.cast_mul, mul_div_assoc, twoTo_div_twoTo, zpow_add₀ two_ne_zero]
  push_cast
  ring

theorem div_eq_ofRatio (hx : x.read = .finite s m q) (hy : y.read = .finite t n r) (some : 0 < n) :
    ∃ num den : Nat, 0 < den ∧ (num : ℚ) / den = m * 2 ^ q / (n * 2 ^ r) ∧
      x.div y = ofRatio (s != t) num den := by
  refine ⟨m * twoTo (q - r).toNat, n * twoTo (-(q - r)).toNat, Nat.mul_pos some (twoTo_pos _), ?_,
    by simp only [div, hx, hy, if_neg some.ne']⟩
  rw [Nat.cast_mul, Nat.cast_mul, mul_div_mul_comm, twoTo_div_twoTo, zpow_sub₀ two_ne_zero]
  ring

/-- Every magnitude below the limit is rounded to some number. -/
theorem exists_rounds {v : ℚ} (positive : 0 ≤ v) (small : v < double.limit) :
    ∃ num den : Nat, 0 < den ∧ (num : ℚ) / den = v ∧ (ofRatio false num den).Rounds false v := by
  have ratio : (v.num.toNat : ℚ) / v.den = v := by
    have num : ((v.num.toNat : Int) : ℚ) = v.num := by
      rw [Int.toNat_of_nonneg (Rat.num_nonneg.mpr positive)]
    rw [← Int.cast_natCast, num, Rat.num_div_den]
  have rounds := ofRatio_rounds false v.den_pos (by rw [ratio]; exact small)
  exact ⟨_, _, v.den_pos, ratio, by simpa [ratio] using rounds⟩

/-- A number that is not negative is determined by what it is nearest to. -/
theorem Rounds.unique {v : ℚ} (positive : 0 ≤ v) (small : v < double.limit) {z : Binary64}
    (hy : y.Rounds s (if s then -v else v)) (hz : z.Rounds s (if s then -v else v)) : y = z := by
  obtain ⟨num, den, hd, rfl, -⟩ := exists_rounds positive small
  rw [rounds_iff s hd small] at hy hz
  rw [hy, hz]

/-- The bit of the sign is set in a number that has none. -/
theorem xor_signBit {a : Nat} (h : a < 2 ^ 63) : a ^^^ 2 ^ 63 = 2 ^ 63 + a := by
  have low : (a ^^^ 2 ^ 63) % 2 ^ 63 = a := by
    rw [Nat.xor_mod_two_pow, Nat.mod_eq_of_lt h, Nat.mod_self, Nat.xor_zero]
  have high : (a ^^^ 2 ^ 63) / 2 ^ 63 = 1 := by
    rw [Nat.xor_div_two_pow, Nat.div_eq_of_lt h, Nat.div_self (by decide), Nat.zero_xor]
  omega

theorem neg_ofRatio (num den : Nat) : (ofRatio false num den).neg = ofRatio true num den := by
  have inside : double.roundMagnitude num den < 2 ^ 63 :=
    (roundMagnitude_le num den).trans_lt double.infinity_lt_signBit
  have plain : (ofRatio false num den).bits.toNat = double.roundMagnitude num den := by
    rw [ofRatio, Format.round, if_neg (by decide), Nat.zero_add]
    exact UInt64.toNat_ofNat_of_lt' (inside.trans (by decide))
  have marked : (ofRatio true num den).bits.toNat = 2 ^ 63 + double.roundMagnitude num den := by
    rw [ofRatio, Format.round, if_pos rfl]
    exact UInt64.toNat_ofNat_of_lt' (by
      have : double.signBit = 2 ^ 63 := rfl
      have : UInt64.size = 2 ^ 64 := rfl
      omega)
  have same : (ofRatio false num den).neg.bits = (ofRatio true num den).bits := by
    apply UInt64.toNat_inj.mp
    rw [neg, UInt64.toNat_xor, plain, marked]
    exact xor_signBit inside
  exact congrArg Binary64.mk same

theorem Rounds.neg {v : ℚ} (positive : 0 ≤ v) (small : v < double.limit) (h : y.Rounds false v) :
    y.neg.Rounds true (-v) := by
  obtain ⟨num, den, hd, rfl, -⟩ := exists_rounds positive small
  have same : y = ofRatio false num den := (rounds_iff false hd small).mp h
  rw [same, neg_ofRatio]
  exact ofRatio_rounds true hd small

end Binary64

namespace Binary

/-! ## Numbers made by scaling -/

/-- `v` is the number nearest to `r`, which is not negative. -/
def Rounded (r v : ℚ) : Prop := ∃ y : Binary64, y.Rounds false r ∧ y.read.value? = some v

/-- `z` is what a division of `w` by `10 ^ k` leaves to be rounded last. A power beyond the greatest
one is divided by in steps. -/
inductive Divided : ℚ → Nat → ℚ → Prop
  | last {w p : ℚ} {k : Nat} (small : k ≤ Numeral.greatestPower) (power : Rounded (10 ^ k) p) :
    Divided w k (w / p)
  | step {w h v z : ℚ} {k : Nat} (large : Numeral.greatestPower < k)
    (power : Rounded (10 ^ Numeral.greatestPower) h) (quotient : Rounded (w / h) v)
    (rest : Divided v (k - Numeral.greatestPower) z) : Divided w k z

/-- `z` is what is left to be rounded last when the integer `c` and the powers of ten that it is
multiplied or divided by are rounded first. -/
def Scaled (c : Nat) (k : Int) (z : ℚ) : Prop :=
  ∃ w, Rounded c w ∧
    if 0 ≤ k then ∃ p, Rounded (10 ^ k.toNat) p ∧ z = w * p else Divided w k.natAbs z

theorem Rounded.unique {r v w : ℚ} (hv : Rounded r v) (hw : Rounded r w) : v = w := by
  obtain ⟨y, ⟨near, -⟩, hv⟩ := hv
  obtain ⟨z, ⟨near', -⟩, hw⟩ := hw
  exact near.value_eq (by decide) near' hv hw

theorem Divided.unique {w z z' : ℚ} {k : Nat} (h : Divided w k z) (h' : Divided w k z') :
    z = z' := by
  induction h generalizing z' with
  | last small power =>
    cases h' with
    | last _ power' => rw [power.unique power']
    | step large => omega
  | step large power quotient _ ih =>
    cases h' with
    | last small => omega
    | step _ power' quotient' rest' =>
      obtain rfl := power.unique power'
      obtain rfl := quotient.unique quotient'
      exact ih rest'

/-- The steps leave no choice. -/
theorem Scaled.unique {c : Nat} {k : Int} {z z' : ℚ} (h : Scaled c k z) (h' : Scaled c k z') :
    z = z' := by
  obtain ⟨w, digits, rest⟩ := h
  obtain ⟨w', digits', rest'⟩ := h'
  obtain rfl := digits.unique digits'
  split at rest
  · next up =>
    rw [if_pos up] at rest'
    obtain ⟨p, power, rfl⟩ := rest
    obtain ⟨p', power', rfl⟩ := rest'
    rw [power.unique power']
  · next down =>
    rw [if_neg down] at rest'
    exact rest.unique rest'

/-! ## The limit -/

theorem limit_double : double.limit = 2 ^ 1024 - 2 ^ 970 := by
  have top : twoTo (double.exponentBits - 1) = 1024 := by decide
  have fraction : double.fractionBits = 52 := rfl
  have exponent : ((1024 : Nat) : Int) - (52 : Nat) - 2 = (970 : Nat) := by decide
  rw [Format.limit, top, fraction, exponent, zpow_natCast]

theorem Format.limit_pos (f : Format) : 0 < f.limit :=
  lt_of_lt_of_le (by positivity) f.le_limit

theorem tenTo_mono {j k : Nat} (h : j ≤ k) : tenTo j ≤ tenTo k := Nat.pow_le_pow_right (by decide) h

theorem tenTo_lt_limit {k : Nat} (h : k ≤ Numeral.greatestPower) :
    (tenTo k : ℚ) < double.limit := by
  have powers : tenTo Numeral.greatestPower + 2 ^ 970 < 2 ^ 1024 := by decide +kernel
  have le : tenTo k ≤ tenTo Numeral.greatestPower := tenTo_mono h
  have less : ((tenTo k + 2 ^ 970 : Nat) : ℚ) < (2 ^ 1024 : Nat) :=
    Nat.cast_lt.mpr ((Nat.add_le_add_right le _).trans_lt powers)
  rw [Nat.cast_add, Nat.cast_pow, Nat.cast_pow, Nat.cast_ofNat] at less
  rw [limit_double]
  exact lt_sub_iff_add_lt.mpr less

/-- Numbers of a format are below its limit. -/
theorem Format.Canonical.lt_limit {m : Nat} {q : Int} (h : double.Canonical m q)
    (inside : double.pattern m q < double.infinity) : (m : ℚ) * 2 ^ q < double.limit := by
  have ratio : ((m * twoTo q.toNat : Nat) : ℚ) / (twoTo (-q).toNat : Nat) = m * 2 ^ q := by
    rw [Nat.cast_mul, mul_div_assoc, twoTo_div_twoTo]
  rw [← ratio, ← not_le, ← roundMagnitude_eq_infinity_iff (by decide) (twoTo_pos _),
    h.roundMagnitude_eq (twoTo_pos _) ratio, Nat.min_eq_right inside.le]
  exact inside.ne

/-! ## Rounded numbers -/

theorem exists_rounded {y : Binary64} {r : ℚ} (h : y.Rounds false r) :
    ∃ m q, y.read = .finite false m q ∧ Rounded r (m * 2 ^ q) := by
  obtain ⟨m, q, read⟩ := h.read_eq
  exact ⟨m, q, read, y, h, by rw [read]; rfl⟩

theorem rounds_self {x : Binary64} {m : Nat} {q : Int} (read : x.read = .finite false m q) :
    x.Rounds false (m * 2 ^ q) := by
  refine ⟨⟨m * 2 ^ q, by rw [read]; rfl, fun bits w _ => ?_⟩, by rw [read]; rfl⟩
  rw [sub_self, abs_zero]
  exact ⟨abs_nonneg _, fun equal => .inl (sub_eq_zero.mp (abs_eq_zero.mp equal.symm))⟩

theorem ofNat_rounds {n : Nat} (small : (n : ℚ) < double.limit) :
    (Binary64.ofNat n).Rounds false n := by
  have ratio : (n : ℚ) / (1 : Nat) = n := by rw [Nat.cast_one, div_one]
  rw [← ratio] at small
  have rounds := Binary64.ofRatio_rounds false one_pos small
  rw [ratio] at rounds
  exact rounds

/-- A number that is no greater than what is rounded stays so. -/
theorem Rounded.le {r v w : ℚ} (h : Rounded r v) {x : Binary64} (hw : x.read.value? = some w)
    (le : w ≤ r) : w ≤ v := by
  obtain ⟨y, ⟨⟨v', hv', near⟩, -⟩, hv⟩ := h
  obtain rfl : v' = v := Option.some_inj.mp (hv'.symm.trans hv)
  have nearest := (near _ _ hw).1
  rw [abs_sub_comm w, abs_of_nonneg (sub_nonneg.mpr le)] at nearest
  linarith [neg_abs_le (v' - r)]

theorem Rounded.bounds {r v : ℚ} (h : Rounded r v) : 0 ≤ v ∧ v < double.limit := by
  obtain ⟨y, rounds, hv⟩ := h
  obtain ⟨m, q, read⟩ := rounds.read_eq
  obtain ⟨canonical, -, inside, -⟩ := canonical_of_read read
  rw [read] at hv
  cases hv
  exact ⟨(by positivity : (0 : ℚ) ≤ m * 2 ^ q), canonical.lt_limit inside⟩

theorem value?_one : (Binary64.ofNat 1).read.value? = some 1 := by
  have read : (Binary64.ofNat 1).read = .finite false (2 ^ 52) (-52) := by decide
  rw [read, Reading.value?, signed]
  norm_num

/-! ## Division -/

theorem power_rounds {k : Nat} (h : k ≤ Numeral.greatestPower) :
    (Numeral.power k).Rounds false (10 ^ k) := by
  rw [← cast_tenTo]
  exact ofNat_rounds (tenTo_lt_limit h)

/-- A power of ten is rounded to a number that is not less than one. -/
theorem exists_power {k : Nat} (h : k ≤ Numeral.greatestPower) :
    ∃ n r, (Numeral.power k).read = .finite false n r ∧ Rounded (10 ^ k) (n * 2 ^ r) ∧
      (1 : ℚ) ≤ n * 2 ^ r := by
  obtain ⟨n, r, read, rounded⟩ := exists_rounded (power_rounds h)
  exact ⟨n, r, read, rounded, rounded.le value?_one (one_le_pow₀ (by norm_num))⟩

theorem div_rounds {x y : Binary64} {m n : Nat} {q r : Int} (hx : x.read = .finite false m q)
    (hy : y.read = .finite false n r) (one : (1 : ℚ) ≤ n * 2 ^ r) :
    (m : ℚ) * 2 ^ q / (n * 2 ^ r) < double.limit ∧
      (x.div y).Rounds false (m * 2 ^ q / (n * 2 ^ r)) := by
  obtain ⟨canonical, -, inside, -⟩ := canonical_of_read hx
  have some : 0 < n := by
    rcases Nat.eq_zero_or_pos n with rfl | some
    · norm_num at one
    · exact some
  have small : (m : ℚ) * 2 ^ q / (n * 2 ^ r) < double.limit :=
    (div_le_self (by positivity) one).trans_lt (canonical.lt_limit inside)
  obtain ⟨num, den, hd, ratio, same⟩ := Binary64.div_eq_ofRatio hx hy some
  rw [← ratio] at small
  have rounds := Binary64.ofRatio_rounds false hd small
  rw [same, ← ratio]
  exact ⟨small, rounds⟩

theorem read_zero : (Binary64.ofNat 0).read = .finite false 0 (-1074) := by decide

theorem rounded_zero : Rounded 0 0 := by
  have rounds := rounds_self read_zero
  rw [Nat.cast_zero, zero_mul] at rounds
  exact ⟨_, rounds, by rw [read_zero]; simp [Reading.value?, signed]⟩

theorem divided_zero (k : Nat) : Divided 0 k 0 := by
  induction k using Nat.strongRecOn with
  | ind k ih =>
    rcases Nat.lt_or_ge Numeral.greatestPower k with large | small
    · obtain ⟨n, r, -, power, -⟩ := exists_power (le_refl Numeral.greatestPower)
      have zero : Rounded (0 / ((n : ℚ) * 2 ^ r)) 0 := by
        rw [zero_div]
        exact rounded_zero
      exact .step large power zero (ih _ (by have : Numeral.greatestPower = 308 := rfl; omega))
    · obtain ⟨n, r, -, power, -⟩ := exists_power small
      have last := Divided.last (w := 0) small power
      rwa [zero_div] at last

theorem eq_zero_of_equal {x : Binary64} {m : Nat} {q : Int} (read : x.read = .finite false m q)
    (zero : x.equal (.ofNat 0) = true) : (m : ℚ) * 2 ^ q = 0 := by
  have least : x.read.AtMost (Binary64.ofNat 0).read := .inr (eq_of_beq zero)
  rw [read, read_zero, Reading.atMost_finite_iff] at least
  simp only [signed, Bool.false_eq_true, if_false, Nat.cast_zero, zero_mul] at least
  exact le_antisymm least (by positivity)

/-- A number is divided by a power of ten as is described by `Divided`. -/
theorem scaleDown_rounds {x : Binary64} {m : Nat} {q : Int} (read : x.read = .finite false m q)
    (k : Nat) : ∃ z, Divided (m * 2 ^ q) k z ∧ 0 ≤ z ∧ z < double.limit ∧
      (Numeral.scaleDown x k).Rounds false z := by
  induction k using Nat.strongRecOn generalizing x m q with
  | ind k ih =>
    rw [Numeral.scaleDown]
    split
    · next large =>
      split
      · next zero =>
        have nothing := eq_zero_of_equal read zero
        have rounds := rounds_self read
        obtain ⟨canonical, -, inside, -⟩ := canonical_of_read read
        have small := canonical.lt_limit inside
        rw [nothing] at rounds small ⊢
        exact ⟨0, divided_zero k, le_rfl, small, rounds⟩
      · obtain ⟨n, r, power, rounded, one⟩ := exists_power (le_refl Numeral.greatestPower)
        obtain ⟨m', q', read', quotient⟩ := exists_rounded (div_rounds read power one).2
        obtain ⟨z, divided, rest⟩ :=
          ih (k - Numeral.greatestPower) (by have : Numeral.greatestPower = 308 := rfl; omega) read'
        exact ⟨z, .step large rounded quotient divided, rest⟩
    · next small =>
      obtain ⟨n, r, power, rounded, one⟩ := exists_power (not_lt.mp small)
      obtain ⟨less, rounds⟩ := div_rounds read power one
      exact ⟨_, .last (not_lt.mp small) rounded, by positivity, less, rounds⟩

/-! ## Scaling -/

theorem mul_spec {x y : Binary64} {m n : Nat} {q r : Int} (hx : x.read = .finite false m q)
    (hy : y.read = .finite false n r) :
    ((m : ℚ) * 2 ^ q * (n * 2 ^ r) < double.limit → (x.mul y).isFinite = true ∧
        (x.mul y).Rounds false (m * 2 ^ q * (n * 2 ^ r))) ∧
      (double.limit ≤ (m : ℚ) * 2 ^ q * (n * 2 ^ r) → (x.mul y).isFinite = false) := by
  obtain ⟨num, den, hd, ratio, same⟩ := Binary64.mul_eq_ofRatio hx hy
  rw [← ratio, same]
  refine ⟨fun small => ?_, Binary64.ofRatio_not_finite _ hd⟩
  have rounds := Binary64.ofRatio_rounds false hd small
  obtain ⟨k, p, read⟩ := rounds.read_eq
  exact ⟨by rw [Binary64.isFinite, show (false != false) = false from rfl, read]; rfl, rounds⟩

theorem lt_limit_of_lt {c : Nat} (small : c < 2 ^ 64) : (c : ℚ) < double.limit := by
  have le : (c : ℚ) ≤ tenTo 20 := Nat.cast_le.mpr (small.le.trans (by decide))
  exact le.trans_lt (tenTo_lt_limit (by decide))

/-- The digits and the powers of ten are rounded as is described by `Scaled`, and there is a result
unless it is too large. -/
theorem scale?_spec {c : Nat} (small : c < 2 ^ 64) {k : Int} (le : k ≤ Numeral.greatestPower) :
    ∃ z, Scaled c k z ∧ 0 ≤ z ∧ (k < 0 → z < double.limit) ∧
      (z < double.limit → ∃ y, Numeral.scale? c k = some y ∧ y.Rounds false z) ∧
      (double.limit ≤ z → Numeral.scale? c k = none) := by
  obtain ⟨m, q, read, digits⟩ := exists_rounded (ofNat_rounds (lt_limit_of_lt small))
  rw [Numeral.scale?]
  by_cases up : 0 ≤ k
  · obtain ⟨n, r, power, rounded, -⟩ := exists_power (k := k.toNat) (by omega)
    obtain ⟨finite, infinite⟩ := mul_spec read power
    refine ⟨m * 2 ^ q * (n * 2 ^ r), ⟨_, digits, ?_⟩, by positivity, by omega, fun less => ?_,
      fun large => ?_⟩
    · rw [if_pos up]
      exact ⟨_, rounded, rfl⟩
    · simp only [if_pos up, if_pos le, (finite less).1, if_true]
      exact ⟨_, rfl, (finite less).2⟩
    · simp only [if_pos up, if_pos le, infinite large]
      rfl
  · obtain ⟨z, divided, positive, less, rounds⟩ := scaleDown_rounds read k.natAbs
    refine ⟨z, ⟨_, digits, ?_⟩, positive, fun _ => less, fun _ => ?_, fun large => ?_⟩
    · rw [if_neg up]
      exact divided
    · simp only [if_neg up]
      exact ⟨_, rfl, rounds⟩
    · exact absurd less (not_lt.mpr large)

/-! ## Numerals -/

namespace Numeral

theorem le_foldl_digits (ds : List Char) (c : Nat) :
    c ≤ ds.foldl (fun n d => 10 * n + digitValue d) c := by
  induction ds generalizing c with
  | nil => exact le_rfl
  | cons d ds ih => exact (by omega : c ≤ 10 * c + digitValue d).trans (ih _)

/-- Digits that fit are all taken. -/
theorem absorb_eq {ds : List Char} {c : Nat}
    (small : ds.foldl (fun n d => 10 * n + digitValue d) c < 2 ^ 64) :
    absorb c ds = (ds.foldl (fun n d => 10 * n + digitValue d) c, []) := by
  induction ds generalizing c with
  | nil => rfl
  | cons d ds ih =>
    have fits := (le_foldl_digits ds (10 * c + digitValue d)).trans_lt small
    rw [absorb, if_neg (by simpa [twoTo] using fits)]
    exact ih small

/-- A numeral whose digits fit is read by scaling the integer that they spell. -/
theorem toBinary64?_eq {n : Numeral} (small : n.significand < 2 ^ 64)
    (near : n.exponentValue.natAbs < 2 ^ 31) :
    n.toBinary64?
      = (scale? n.significand n.scale).map fun y => if n.negative then y.neg else y := by
  have split : n.significand = n.fraction.foldl (fun n d => 10 * n + digitValue d)
      (n.whole.foldl (fun n d => 10 * n + digitValue d) 0) := List.foldl_append
  rw [split] at small
  have whole := absorb_eq ((le_foldl_digits _ _).trans_lt small)
  have fraction := absorb_eq small
  rw [← split] at fraction
  simp only [toBinary64?, whole, fraction, List.length_nil, Nat.sub_zero, Nat.cast_zero]
  rw [scale]
  cases exponent : n.exponent with
  | none =>
    have value : n.exponentValue = 0 := by rw [exponentValue, exponent]
    rw [value]
    cases scale? n.significand (0 - n.fraction.length) <;> rfl
  | some e =>
    have value : n.exponentValue
        = if e.sign = .minus then -(natOfDigits e.digits : Int) else natOfDigits e.digits := by
      rw [exponentValue, exponent]
    rw [value] at near ⊢
    have short : ¬ twoTo 31 ≤ natOfDigits e.digits := by
      have : twoTo 31 = 2 ^ 31 := rfl
      split at near <;> omega
    have place : (if (e.sign == .minus) = true
          then 0 - (n.fraction.length : Int) - natOfDigits e.digits
          else 0 - (n.fraction.length : Int) + natOfDigits e.digits)
        = (if e.sign = .minus then -(natOfDigits e.digits : Int) else natOfDigits e.digits)
          - n.fraction.length := by
      simp only [beq_iff_eq]
      split <;> ring
    simp only [if_neg short, place]
    cases scale? n.significand _ <;> rfl

/-- A short numeral is read as the number that is nearest to what scaling leaves, unless that is
beyond all numbers. -/
theorem toBinary64?_spec {n : Numeral} (short : n.Short) :
    ∃ z, Scaled n.significand n.scale z ∧ 0 ≤ z ∧ (n.scale < 0 → z < double.limit) ∧
      (z < double.limit →
        ∃ y, n.toBinary64? = some y ∧ y.Rounds n.negative (if n.negative then -z else z)) ∧
      (double.limit ≤ z → n.toBinary64? = none) := by
  have small : n.significand < 2 ^ 64 := short.significand_lt.trans (by decide)
  obtain ⟨z, scaled, positive, below, finite, infinite⟩ := scale?_spec small short.scale_le
  rw [toBinary64?_eq small short.exponentValue_lt]
  refine ⟨z, scaled, positive, below, fun less => ?_, fun large => by rw [infinite large]; rfl⟩
  obtain ⟨y, read, rounds⟩ := finite less
  rw [read]
  refine ⟨_, rfl, ?_⟩
  cases n.negative with
  | false => exact rounds
  | true => exact rounds.neg positive less

end Numeral

/-! ## Where scaling is exact -/

theorem Scaled.eq_zero {k : Int} {z : ℚ} (h : Scaled 0 k z) : z = 0 := by
  obtain ⟨w, digits, rest⟩ := h
  rw [Nat.cast_zero] at digits
  obtain rfl := digits.unique rounded_zero
  split at rest
  · obtain ⟨p, -, rfl⟩ := rest
    exact zero_mul p
  · exact rest.unique (divided_zero _)

/-- An integer that fits the format is canonical with another exponent. -/
theorem Format.exists_canonical_eq {f : Format} {a : Nat} {e : Int} (some : 0 < a)
    (few : a < 2 * twoTo f.fractionBits) (least : f.leastExponent ≤ e) :
    ∃ m q, f.Canonical m q ∧ (m : ℚ) * 2 ^ q = a * 2 ^ e := by
  have log : a.log2 < f.fractionBits + 1 := by
    rw [Nat.log2_lt some.ne', pow_succ']
    exact few
  have finer : f.unit (a * 2 ^ e) ≤ e := by
    rw [unit, log_mul_zpow some]
    omega
  have value : (a : ℚ) * 2 ^ e
      = (a * 2 ^ (e - f.unit (a * 2 ^ e)).toNat : Nat) * 2 ^ f.unit (a * 2 ^ e) := by
    rw [Nat.cast_mul, Nat.cast_pow, Nat.cast_ofNat, mul_assoc, ← zpow_natCast,
      ← zpow_add₀ two_ne_zero, Int.toNat_of_nonneg (by omega), sub_add_cancel]
  exact ⟨_, _, canonical_unit (by positivity) value, value.symm⟩

/-- What the format holds is rounded to itself. -/
theorem Rounded.eq_of_few {a : Nat} {e : Int} {r v : ℚ} (h : Rounded r v) (hr : r = a * 2 ^ e)
    (some : 0 < a) (few : a < 2 ^ 53) (least : -1074 ≤ e) (small : r < 2 ^ 1023) : v = r := by
  obtain ⟨m, q, canonical, value⟩ := exists_canonical_eq (f := double) some few least
  have inside : double.pattern m q < double.infinity := by
    rw [canonical.pattern_lt_infinity_iff (by decide), value, ← hr]
    exact small.trans_le (pow_le_pow_right₀ one_le_two (by decide))
  obtain ⟨y, ⟨⟨v', hv', near⟩, -⟩, hv⟩ := h
  obtain rfl : v' = v := Option.some_inj.mp (hv'.symm.trans hv)
  have held : (double.read (double.pattern m q)).value? = Option.some r := by
    have read := read_pattern canonical inside false
    rw [if_neg (by decide), Nat.zero_add] at read
    rw [read, Reading.value?, signed, if_neg (by decide), value, hr]
  have nearest := (near _ _ held).1
  rw [sub_self, abs_zero] at nearest
  exact sub_eq_zero.mp (abs_eq_zero.mp (le_antisymm nearest (abs_nonneg _)))

theorem Rounded.eq_of_natCast {n : Nat} {v : ℚ} (h : Rounded n v) (some : 0 < n)
    (small : n ≤ 2 ^ 53) : v = n := by
  have less : (n : ℚ) < 2 ^ 1023 := by
    have : (n : ℚ) ≤ 2 ^ 53 := by exact_mod_cast small
    exact this.trans_lt (pow_lt_pow_right₀ one_lt_two (by decide))
  rcases Nat.lt_or_eq_of_le small with few | rfl
  · exact h.eq_of_few (e := 0) (by rw [zpow_zero, mul_one]) some few (by decide) less
  · exact h.eq_of_few (a := 1) (e := 53) (by norm_num) one_pos (by decide) (by decide) less

theorem Rounded.eq_of_power {k : Nat} {v : ℚ} (h : Rounded (10 ^ k) v) (small : k ≤ 22) :
    v = 10 ^ k := by
  have few : 5 ^ k < 2 ^ 53 :=
    (Nat.pow_le_pow_right (by decide) small).trans_lt (by decide : 5 ^ 22 < 2 ^ 53)
  have less : (10 : ℚ) ^ k < 2 ^ 1023 := by
    calc (10 : ℚ) ^ k ≤ 10 ^ 22 := pow_le_pow_right₀ (by norm_num) small
      _ < 2 ^ 80 := by norm_num
      _ ≤ 2 ^ 1023 := pow_le_pow_right₀ one_le_two (by decide)
  refine h.eq_of_few (a := 5 ^ k) (e := k) ?_ (Nat.pow_pos (by decide)) few (by omega) less
  rw [Nat.cast_pow, zpow_natCast, ← mul_pow]
  norm_num

/-- With small digits and a small power only the last step rounds. -/
theorem Scaled.eq_of_small {c : Nat} {k : Int} {z : ℚ} (h : Scaled c k z) (some : 0 < c)
    (digits : c ≤ 2 ^ 53) (power : k.natAbs ≤ 22) : z = c * 10 ^ k := by
  obtain ⟨w, rounded, rest⟩ := h
  obtain rfl := rounded.eq_of_natCast some digits
  split at rest
  · next up =>
    obtain ⟨p, rounded', rfl⟩ := rest
    rw [rounded'.eq_of_power (by omega), ← zpow_natCast, Int.toNat_of_nonneg up]
  · next down =>
    cases rest with
    | last _ rounded' =>
      have exponent : k = -(k.natAbs : Int) := by omega
      rw [rounded'.eq_of_power power, exponent, Int.natAbs_neg, Int.natAbs_natCast, zpow_neg,
        zpow_natCast, div_eq_mul_inv]
    | step large => exact absurd large (by have : Numeral.greatestPower = 308 := rfl; omega)

end Binary

end RecordRows
