import RecordRows.Proofs.Binary.Widening

/-!
Where rounding runs out of range. A magnitude is rounded to infinity from halfway between the
greatest finite number and the power of two behind it (`roundMagnitude_eq_infinity_iff`), and so it
is known which double precision numbers are too large for single precision
(`narrow_isInfinite_iff`).
-/
namespace RecordRows.Binary.Format

variable {f : Format}

/-- Halfway between the greatest finite number and the power of two behind it. -/
def limit (f : Format) : ℚ :=
  2 ^ twoTo (f.exponentBits - 1) - 2 ^ ((twoTo (f.exponentBits - 1) : Int) - f.fractionBits - 2)

/-! ## The nearest integer -/

theorem le_nearest_of_mul_le {a b k : Nat} (hb : 0 < b) (h : k * b ≤ a) : k ≤ nearest a b := by
  have low : k ≤ a / b := (Nat.le_div_iff_mul_le hb).mpr h
  simp only [nearest]
  split
  · exact low
  · split <;> omega

theorem nearest_le_of_lt_mul {a b k : Nat} (hb : 0 < b) (h : a < k * b) : nearest a b ≤ k := by
  have low : a / b < k := (Nat.div_lt_iff_lt_mul hb).mpr h
  simp only [nearest]
  split
  · omega
  · split <;> omega

/-- An even number is reached from the half below it, since ties go to even. -/
theorem even_le_nearest_iff {a b k : Nat} (hb : 0 < b) (even : k % 2 = 0) (positive : 0 < k) :
    k ≤ nearest a b ↔ (2 * k - 1) * b ≤ 2 * a := by
  obtain ⟨j, rfl⟩ : ∃ j, k = j + 1 := ⟨k - 1, by omega⟩
  have twice : 2 * (j + 1) - 1 = 2 * j + 1 := by omega
  have split : b * (a / b) + a % b = a := Nat.div_add_mod a b
  have rest : a % b < b := Nat.mod_lt a hb
  rw [twice]
  rcases lt_trichotomy (a / b) j with below | same | above
  · -- the quotient is below the half already
    have small : nearest a b < j + 1 :=
      Nat.lt_succ_of_le (nearest_le_of_lt_mul hb ((Nat.div_lt_iff_lt_mul hb).mp below))
    have room : b * (a / b + 1) ≤ b * j := Nat.mul_le_mul_left b below
    rw [Nat.mul_add] at room
    refine iff_of_false (by omega) ?_
    rw [Nat.add_mul, Nat.mul_assoc, Nat.mul_comm j b]
    omega
  · rw [← same, Nat.add_mul, Nat.mul_assoc, Nat.mul_comm (a / b) b]
    simp only [nearest]
    split
    · omega
    · split <;> omega
  · have large : b * (j + 1) ≤ b * (a / b) := Nat.mul_le_mul_left b above
    have reached : j + 1 ≤ nearest a b :=
      le_nearest_of_mul_le hb (by rw [Nat.mul_comm]; omega)
    rw [Nat.mul_add] at large
    refine iff_of_true reached ?_
    rw [Nat.add_mul, Nat.mul_assoc, Nat.mul_comm j b]
    omega

/-! ## Scaled quotients -/

theorem twoTo_mul_zpow (n : Nat) (q : Int) : (twoTo n : ℚ) * 2 ^ q = 2 ^ (n + q) := by
  rw [twoTo_eq, Nat.cast_pow, Nat.cast_ofNat, ← zpow_natCast, ← zpow_add₀ two_ne_zero]

/-- Two multiples of a quotient and of a power of two compared, over natural numbers. -/
theorem mul_scaled_le_iff {num den : Nat} (hd : 0 < den) (k c : Nat) (q : Int) :
    k * (den * twoTo q.toNat) ≤ c * (num * twoTo (-q).toNat)
      ↔ (k : ℚ) * 2 ^ q ≤ c * (num / den) := by
  have hd' : (0 : ℚ) < den := by exact_mod_cast hd
  have ht : (0 : ℚ) < twoTo (-q).toNat := by exact_mod_cast twoTo_pos _
  rw [← twoTo_div_twoTo, ← mul_div_assoc, ← mul_div_assoc, div_le_div_iff₀ ht hd']
  norm_cast
  rw [Nat.mul_right_comm, Nat.mul_assoc, Nat.mul_assoc c]

/-- A quotient in units of a power of two. -/
theorem scaled_div_mul {num den : Nat} (hd : 0 < den) (q : Int) :
    ((num * twoTo (-q).toNat : Nat) : ℚ) / (den * twoTo q.toNat : Nat) * 2 ^ q = num / den := by
  have hd' : (den : ℚ) ≠ 0 := by exact_mod_cast hd.ne'
  have hu : (twoTo q.toNat : ℚ) ≠ 0 := by exact_mod_cast (twoTo_pos _).ne'
  have hv : (twoTo (-q).toNat : ℚ) ≠ 0 := by exact_mod_cast (twoTo_pos _).ne'
  rw [← twoTo_div_twoTo]
  push_cast
  field_simp

section

variable {num den : Nat} {log q : Int}

/-- A unit that is not too fine for the logarithm leaves a significand that fills the format once
more at most. -/
theorem nearest_scaled_le (hd : 0 < den) (unit : log - f.fractionBits ≤ q)
    (below : (num : ℚ) / den < 2 ^ (log + 1)) :
    nearest (num * twoTo (-q).toNat) (den * twoTo q.toNat) ≤ 2 * twoTo f.fractionBits := by
  apply nearest_le_of_lt_mul (Nat.mul_pos hd (twoTo_pos _))
  rw [← Nat.not_le, ← Nat.one_mul (num * _), mul_scaled_le_iff hd, not_le]
  push_cast
  calc 1 * ((num : ℚ) / den) < 2 ^ (log + 1) := by rw [one_mul]; exact below
    _ ≤ 2 ^ (1 + (f.fractionBits + q)) := zpow_le_zpow_right₀ one_le_two (by omega)
    _ = 2 * twoTo f.fractionBits * 2 ^ q := by
      rw [mul_assoc, twoTo_mul_zpow, ← zpow_one_add₀ two_ne_zero]

/-- With a unit that is not too coarse the quotient fills the format. -/
theorem twoTo_mul_unit_le (unit : q ≤ log - f.fractionBits)
    (above : (2 : ℚ) ^ log ≤ num / den) : twoTo f.fractionBits * 2 ^ q ≤ (num : ℚ) / den := by
  rw [twoTo_mul_zpow]
  exact (zpow_le_zpow_right₀ one_le_two (by omega)).trans above

theorem le_nearest_scaled (hd : 0 < den) (unit : q ≤ log - f.fractionBits)
    (above : (2 : ℚ) ^ log ≤ num / den) :
    twoTo f.fractionBits ≤ nearest (num * twoTo (-q).toNat) (den * twoTo q.toNat) := by
  apply le_nearest_of_mul_le (Nat.mul_pos hd (twoTo_pos _))
  rw [← Nat.one_mul (num * _), mul_scaled_le_iff hd, Nat.cast_one, one_mul]
  exact twoTo_mul_unit_le unit above

end

/-! ## The limit of a format -/

/-- The limit as a multiple of half the unit of the greatest numbers. -/
theorem two_mul_limit (f : Format) :
    2 * f.limit = ((2 * (2 * twoTo f.fractionBits) - 1 : Nat) : ℚ)
      * 2 ^ ((twoTo (f.exponentBits - 1) : Int) - 1 - f.fractionBits) := by
  have hF := twoTo_pos f.fractionBits
  have top : (2 : ℚ) ^ twoTo (f.exponentBits - 1) = twoTo f.fractionBits * 4
      * 2 ^ ((twoTo (f.exponentBits - 1) : Int) - f.fractionBits - 2) := by
    rw [twoTo_eq f.fractionBits, Nat.cast_pow, Nat.cast_ofNat,
      show (4 : ℚ) = 2 ^ (2 : Int) by norm_num, ← zpow_natCast, ← zpow_natCast,
      ← zpow_add₀ two_ne_zero, ← zpow_add₀ two_ne_zero]
    congr 1
    ring
  have unit : (2 : ℚ) ^ ((twoTo (f.exponentBits - 1) : Int) - 1 - f.fractionBits)
      = 2 * 2 ^ ((twoTo (f.exponentBits - 1) : Int) - f.fractionBits - 2) := by
    rw [← zpow_one_add₀ two_ne_zero]
    congr 1
    ring
  rw [limit, top, unit, Nat.cast_sub (by omega)]
  push_cast
  ring

theorem limit_le (f : Format) : f.limit ≤ 2 ^ twoTo (f.exponentBits - 1) :=
  sub_le_self _ (by positivity)

theorem le_limit (f : Format) : (2 : ℚ) ^ ((twoTo (f.exponentBits - 1) : Int) - 1) ≤ f.limit := by
  have small : (2 : ℚ) ^ ((twoTo (f.exponentBits - 1) : Int) - f.fractionBits - 2)
      ≤ 2 ^ ((twoTo (f.exponentBits - 1) : Int) - 1) :=
    zpow_le_zpow_right₀ one_le_two (by omega)
  have double : (2 : ℚ) ^ twoTo (f.exponentBits - 1)
      = 2 * 2 ^ ((twoTo (f.exponentBits - 1) : Int) - 1) := by
    rw [← zpow_one_add₀ two_ne_zero, ← zpow_natCast]
    congr 1
    ring
  rw [limit, double]
  linarith

/-- Infinity is as many units of its own exponent as fill the format once more. -/
theorem infinity_eq (he : 2 ≤ f.exponentBits) :
    f.infinity = (2 * twoTo (f.exponentBits - 1) - 1) * twoTo f.fractionBits
      ∧ 2 ≤ twoTo (f.exponentBits - 1) := by
  obtain ⟨e, he⟩ : ∃ e, f.exponentBits = e + 2 := ⟨f.exponentBits - 2, by omega⟩
  have positive := twoTo_pos e
  have top : twoTo (e + 2) = 2 * twoTo (e + 1) := pow_succ' 2 (e + 1)
  have half : twoTo (e + 1) = 2 * twoTo e := pow_succ' 2 e
  rw [infinity, topExponent, he, top, show e + 2 - 1 = e + 1 from rfl]
  exact ⟨rfl, by omega⟩

/-- Rounding to infinity, for a positive quotient with its logarithm and the exponent of its
unit. -/
theorem infinity_le_pattern_iff (he : 2 ≤ f.exponentBits) {num den : Nat} (hd : 0 < den)
    {log q : Int} (hq : max f.leastExponent (log - f.fractionBits) = q)
    (above : (2 : ℚ) ^ log ≤ num / den) (below : (num : ℚ) / den < 2 ^ (log + 1)) :
    f.infinity ≤ f.pattern (nearest (num * twoTo (-q).toNat) (den * twoTo q.toNat)) q
      ↔ f.limit ≤ (num : ℚ) / den := by
  have hF := twoTo_pos f.fractionBits
  have hb : 0 < den * twoTo q.toNat := Nat.mul_pos hd (twoTo_pos _)
  have scaled (k c : Nat) : k * (den * twoTo q.toNat) ≤ c * (num * twoTo (-q).toNat)
      ↔ (k : ℚ) * 2 ^ q ≤ c * (num / den) := mul_scaled_le_iff hd k c q
  have atMost := nearest_scaled_le (f := f) (q := q) hd (by omega) below
  have filling (unit : q ≤ log - f.fractionBits) := le_nearest_scaled hd unit above
  have low := f.le_limit
  have high := f.limit_le
  have twice := f.two_mul_limit
  obtain ⟨hinf, hT⟩ := infinity_eq he
  have hleast : f.leastExponent = 2 - twoTo (f.exponentBits - 1) - f.fractionBits := rfl
  simp only [pattern, hinf]
  generalize hr : (num : ℚ) / den = r at *
  generalize num * twoTo (-q).toNat = a at *
  generalize den * twoTo q.toNat = b at *
  generalize hTeq : twoTo (f.exponentBits - 1) = T at *
  have filled (k : Nat) : k * twoTo f.fractionBits + twoTo f.fractionBits
      = (k + 1) * twoTo f.fractionBits := by ring
  -- below the unit of the greatest numbers nothing is rounded to infinity and above it everything
  -- is; at that unit the significand decides
  rcases lt_trichotomy q ((T : Int) - 1 - f.fractionBits) with less | same | more
  · have small : r < 2 ^ ((T : Int) - 1) :=
      below.trans_le (zpow_le_zpow_right₀ one_le_two (by omega))
    have exponent : (q - f.leastExponent).toNat + 3 ≤ 2 * T - 1 := by omega
    have step := Nat.mul_le_mul_right (twoTo f.fractionBits) exponent
    rw [Nat.add_mul] at step
    exact iff_of_false (by omega) (not_le.mpr (small.trans_le low))
  · have exponent : (q - f.leastExponent).toNat + 2 = 2 * T - 1 := by omega
    have reached := even_le_nearest_iff (k := 2 * twoTo f.fractionBits) (a := a) hb (by omega)
      (by omega)
    rw [← exponent, Nat.add_mul, Nat.add_le_add_iff_left, reached, scaled, same, ← twice]
    push_cast
    exact mul_le_mul_iff_right₀ two_pos
  · have large : (2 : ℚ) ^ T ≤ r := by
      rw [← zpow_natCast]
      exact (zpow_le_zpow_right₀ one_le_two (by omega)).trans above
    have bound := filling (by omega)
    have exponent : 2 * T - 1 ≤ (q - f.leastExponent).toNat + 1 := by omega
    have step := Nat.mul_le_mul_right (twoTo f.fractionBits) exponent
    rw [Nat.add_mul (q - f.leastExponent).toNat] at step
    exact iff_of_true (by omega) (high.trans large)

theorem roundMagnitude_eq_infinity_iff (he : 2 ≤ f.exponentBits) {num den : Nat} (hd : 0 < den) :
    f.roundMagnitude num den = f.infinity ↔ f.limit ≤ (num : ℚ) / den := by
  rcases Nat.eq_zero_or_pos num with rfl | hn
  · obtain ⟨hinf, hT⟩ := infinity_eq he
    have positive : 0 < f.infinity := hinf ▸ Nat.mul_pos (by omega) (twoTo_pos _)
    have limited : (0 : ℚ) < f.limit := lt_of_lt_of_le (by positivity) f.le_limit
    refine iff_of_false ?_ (by simpa using limited)
    simp only [roundMagnitude, if_true]
    exact positive.ne
  · have hr : (0 : ℚ) < num / den := by
      have hn' : (0 : ℚ) < num := by exact_mod_cast hn
      have hd' : (0 : ℚ) < den := by exact_mod_cast hd
      positivity
    simp only [roundMagnitude, if_neg hn.ne', floorLog2_eq_log hn hd]
    rw [min_eq_left_iff]
    exact infinity_le_pattern_iff he hd rfl (by exact_mod_cast Int.zpow_log_le_self one_lt_two hr)
      (by exact_mod_cast Int.lt_zpow_succ_log_self one_lt_two ((num : ℚ) / den))

end RecordRows.Binary.Format

namespace RecordRows.Binary32

open Binary Format

theorem isInfinite_ofPattern_iff {a : Nat} (ha : a ≤ single.infinity) (s : Bool) :
    (ofPattern ((if s then single.signBit else 0) + a)).isInfinite = true ↔
      a = single.infinity := by
  have hsign := ha.trans_lt single.infinity_lt_signBit
  have hinf : single.infinity = single.topExponent * twoTo single.fractionBits := rfl
  have split := Nat.div_add_mod a (twoTo single.fractionBits)
  rw [isInfinite, read_ofPattern_signed ha]
  simp only [Format.read, signed_mod hsign, signed_negative hsign]
  rw [Nat.mul_comm, eq_comm] at split
  by_cases top : a / twoTo single.fractionBits = single.topExponent
  · have fraction : a % twoTo single.fractionBits = 0 := by
      rw [top] at split
      omega
    rw [if_pos top, if_pos fraction]
    rw [top, fraction] at split
    exact iff_of_true rfl split
  · have finite : a ≠ single.infinity := by
      rintro rfl
      exact top (Nat.mul_div_cancel _ (twoTo_pos _))
    rw [if_neg top]
    by_cases subnormal : a / twoTo single.fractionBits = 0 <;> simp [subnormal, finite]

theorem limit_single : single.limit = 2 ^ 128 - 2 ^ 103 := by
  have top : twoTo (single.exponentBits - 1) = 128 := by decide
  have fraction : single.fractionBits = 23 := rfl
  rw [Format.limit, top, fraction]
  norm_num

/-- The finite numbers that are too large for single precision. -/
theorem narrow_isInfinite_iff {x : Binary64} {s : Bool} {m : Nat} {q : Int}
    (h : x.read = .finite s m q) :
    (narrow x).isInfinite = true ↔ 2 ^ 128 - 2 ^ 103 ≤ (m : ℚ) * 2 ^ q := by
  have ratio : ((m * twoTo q.toNat : Nat) : ℚ) / (twoTo (-q).toNat : Nat) = m * 2 ^ q := by
    rw [Nat.cast_mul, mul_div_assoc, twoTo_div_twoTo]
  rw [narrow, h, ofReading, write, Format.round, isInfinite_ofPattern_iff (roundMagnitude_le ..),
    roundMagnitude_eq_infinity_iff (by decide) (twoTo_pos _), limit_single, ratio]

end RecordRows.Binary32
