import RecordRows.Proofs.Binary.Closeness

/-!
Scaling by powers of ten that are smaller than every number. Such a power is divided by in two
steps, with one rounding more. The greatest power of ten is rounded by a tenth of what a rounding
may change, and the roundings of the digits and of the first quotient do not both change as much as
they may (`quotient_within`). So the result is as close as with one step (`Scaled.within_or_small`).
-/
namespace RecordRows.Binary

open Format

/-! ## The greatest power -/

/-- The number nearest to the greatest power of ten. -/
def greatestRounded : ℚ := 5010420900022432 * 2 ^ (971 : Int)

theorem cast_twoTo (n : Nat) : (twoTo n : ℚ) = 2 ^ (n : Int) := by
  rw [twoTo_eq, Nat.cast_pow, Nat.cast_ofNat, zpow_natCast]

theorem Rounded.eq_greatestRounded {h : ℚ} (power : Rounded (10 ^ Numeral.greatestPower) h) :
    h = greatestRounded := by
  have read : (Numeral.power Numeral.greatestPower).read = .finite false 5010420900022432 971 := by
    decide +kernel
  refine power.unique ⟨_, power_rounds le_rfl, ?_⟩
  rw [read, Reading.value?, signed, if_neg (by decide), greatestRounded, Nat.cast_ofNat]

/-- Rounding changes the greatest power by less than a tenth of what it may. -/
theorem greatestRounded_within :
    Within (1 + 1 / (10 * 2 ^ 53)) greatestRounded (10 ^ Numeral.greatestPower) := by
  have above : 5010420900022432 * twoTo 971 * (10 * 2 ^ 53)
      ≤ (10 * 2 ^ 53 + 1) * tenTo Numeral.greatestPower := by decide +kernel
  have below : tenTo Numeral.greatestPower * (10 * 2 ^ 53)
      ≤ (10 * 2 ^ 53 + 1) * (5010420900022432 * twoTo 971) := by decide +kernel
  have close := Within.of_natCast (by decide) above below
  have factor : ((10 * 2 ^ 53 + 1 : Nat) : ℚ) / (10 * 2 ^ 53 : Nat) = 1 + 1 / (10 * 2 ^ 53) := by
    norm_num
  rw [factor, cast_tenTo, Nat.cast_mul, cast_twoTo, Nat.cast_ofNat] at close
  exact close

/-- That number in units of its power of two. -/
def greatestLeading : ℚ := 5010420900022432 / 2 ^ 52

theorem greatestRounded_eq : greatestRounded = greatestLeading * 2 ^ (1023 : Int) := by
  have split : (2 : ℚ) ^ (1023 : Int) = 2 ^ 52 * 2 ^ (971 : Int) := by
    rw [← zpow_natCast, ← zpow_add₀ two_ne_zero]
    rfl
  rw [greatestRounded, greatestLeading, split, ← mul_assoc, div_mul_cancel₀ _ (by norm_num)]

theorem one_le_greatestRounded : 1 ≤ greatestRounded := by
  have unit : (1 : ℚ) ≤ 2 ^ (1023 : Int) := one_le_zpow₀ one_le_two (by decide)
  rw [greatestRounded_eq]
  exact one_le_mul_of_one_le_of_one_le (by norm_num [greatestLeading]) unit

/-! ## The first quotient -/

/-- The error of a quotient, before the division. -/
theorem abs_mul_sub {v w h : ℚ} (positive : 0 < h) : |v * h - w| = |v - w / h| * h := by
  rw [← abs_of_pos positive, ← abs_mul, sub_mul, abs_of_pos positive,
    div_mul_cancel₀ _ positive.ne']

/-- The digits lie between `P` and its double, and the quotient begins with `S`. If both begin with
the same power the quotient is large, and if not it is small. In no case may both roundings change
as much as they can. -/
theorem errors_le {P S c w : ℚ} (reached : P ≤ c) (error : |w - c| ≤ P / 2 ^ 53)
    (low : greatestLeading * S ≤ w) (binade : S = P ∨ 2 * S ≤ P) :
    P + greatestLeading * S ≤ 18995 / 10000 * c := by
  obtain ⟨-, above⟩ := abs_le.mp error
  rw [greatestLeading] at *
  rcases binade with rfl | less
  · linarith
  · linarith

/-- The errors of the digits and of the first quotient together, when the quotient is not among the
least numbers. -/
theorem quotient_within {c : Nat} {w v : ℚ} (some : 3 ≤ c) (small : c < 2 ^ 64)
    (digits : Rounded c w) (quotient : Rounded (w / greatestRounded) v) :
    Within (1 + 19 / (10 * 2 ^ 53)) (v * greatestRounded) c := by
  have three : (3 : ℚ) ≤ c := by exact_mod_cast some
  have positive : (0 : ℚ) < c := by linarith
  obtain ⟨i, one, low, high⟩ := exists_binade (k := 0) (by rw [zpow_zero]; linarith : _ ≤ (c : ℚ))
  obtain ⟨error, reached⟩ := digits.error low high (by omega) (lt_limit_of_lt small)
  rw [zpow_add_one₀ two_ne_zero] at high
  have unit : (0 : ℚ) < 2 ^ i := by positivity
  obtain ⟨below, above⟩ := abs_le.mp error
  -- the quotient and its binade
  have hpos : (0 : ℚ) < greatestRounded := one_pos.trans_le one_le_greatestRounded
  have wpos : 0 < w := unit.trans_le reached
  have normal : (2 : ℚ) ^ (-1022 : Int) ≤ w / greatestRounded := by
    have double : (2 : ℚ) ^ (-1022 : Int) * 2 ^ (1023 : Int) = 2 := by
      rw [← zpow_add₀ two_ne_zero]
      norm_num
    rw [le_div_iff₀ hpos, greatestRounded_eq, mul_left_comm, double, greatestLeading]
    linarith
  have less : w / greatestRounded < double.limit :=
    (div_le_self wpos.le one_le_greatestRounded).trans_lt digits.bounds.2
  obtain ⟨j, least, low', high'⟩ := exists_binade normal
  obtain ⟨error', -⟩ := quotient.error low' high' least less
  have share : (2 : ℚ) ^ j * greatestRounded = greatestLeading * 2 ^ (j + 1023) := by
    rw [greatestRounded_eq, mul_left_comm, ← zpow_add₀ two_ne_zero]
  rw [le_div_iff₀ hpos, share] at low'
  have binade : (2 : ℚ) ^ (j + 1023) = 2 ^ i ∨ 2 * 2 ^ (j + 1023) ≤ (2 : ℚ) ^ i := by
    have less : j + 1023 < i + 1 := by
      by_contra more
      have more : (2 : ℚ) ^ (i + 1) ≤ 2 ^ (j + 1023) :=
        zpow_le_zpow_right₀ one_le_two (not_lt.mp more)
      rw [zpow_add_one₀ two_ne_zero] at more
      rw [greatestLeading] at low'
      linarith
    rcases Int.lt_or_eq_of_le (Int.lt_add_one_iff.mp less) with smaller | same
    · refine .inr ?_
      rw [← zpow_one_add₀ two_ne_zero]
      exact zpow_le_zpow_right₀ one_le_two (by omega)
    · exact .inl (by rw [same])
  have budget := errors_le low error low' binade
  have total : |v * greatestRounded - c| ≤ 18995 / (10000 * 2 ^ 53) * c := by
    have step := mul_le_mul_of_nonneg_right error' hpos.le
    rw [← abs_mul_sub hpos, div_mul_eq_mul_div, share] at step
    linarith [abs_sub_le (v * greatestRounded) w c]
  obtain ⟨_, _⟩ := abs_le.mp total
  refine .of_abs_sub_le total ?_ ?_
  · linarith
  · linarith

/-- With the digits one and two the quotient is among the least numbers. -/
theorem quotient_within_of_least {c : Nat} {w v : ℚ} (some : 0 < c) (few : c ≤ 2)
    (digits : Rounded c w) (quotient : Rounded (w / greatestRounded) v) :
    Within (1 + 3 / 2 ^ 53) (v * greatestRounded) c := by
  have one : (1 : ℚ) ≤ c := by exact_mod_cast some
  have two : (c : ℚ) ≤ 2 := by exact_mod_cast few
  obtain rfl := digits.eq_of_natCast some (few.trans (by decide))
  have hpos : (0 : ℚ) < greatestRounded := one_pos.trans_le one_le_greatestRounded
  have less : (c : ℚ) / greatestRounded < 2 ^ (-1021 : Int) := by
    have unit : (2 : ℚ) ^ (-1021 : Int) * 2 ^ (1023 : Int) = 4 := by
      rw [← zpow_add₀ two_ne_zero]
      norm_num
    rw [div_lt_iff₀ hpos, greatestRounded_eq, mul_left_comm, unit, greatestLeading]
    linarith
  have error := quotient.error_of_small (by positivity) less
  have share : (2 : ℚ) ^ (-1075 : Int) * greatestRounded = greatestLeading / 2 ^ 52 := by
    have unit : (2 : ℚ) ^ (-1075 : Int) * 2 ^ (1023 : Int) = 1 / 2 ^ 52 := by
      rw [← zpow_add₀ two_ne_zero]
      norm_num
    rw [greatestRounded_eq, mul_left_comm, unit, mul_one_div]
  have total : |v * greatestRounded - c| ≤ greatestLeading / 2 ^ 52 := by
    rw [abs_mul_sub hpos, ← share]
    exact mul_le_mul_of_nonneg_right error hpos.le
  rw [greatestLeading] at total
  obtain ⟨_, _⟩ := abs_le.mp total
  refine .of_abs_sub_le total ?_ ?_
  · linarith
  · linarith

/-! ## Scaling in two steps -/

/-- The second power is exact, so that the first quotient decides. -/
theorem Divided.within {c k : Nat} {w z ρ : ℚ} (h : Divided w k z)
    (large : Numeral.greatestPower < k) (less : k ≤ Numeral.greatestPower + 22) (positive : 0 ≤ ρ)
    (close : ∀ v, Rounded (w / greatestRounded) v → Within ρ (v * greatestRounded) c) :
    Within (ρ * (1 + 1 / (10 * 2 ^ 53))) z (c / 10 ^ k) := by
  have hpos : (0 : ℚ) < greatestRounded := one_pos.trans_le one_le_greatestRounded
  have tenth : (0 : ℚ) ≤ 1 + 1 / (10 * 2 ^ 53) := by norm_num
  cases h with
  | last small => omega
  | step _ power quotient rest =>
    rw [power.eq_greatestRounded] at quotient
    have first := close _ quotient
    have second := first.div positive (mul_nonneg quotient.bounds.1 hpos.le) (Nat.cast_nonneg c)
      hpos (by positivity) greatestRounded_within
    rw [mul_div_cancel_right₀ _ hpos.ne'] at second
    cases rest with
    | step again => exact absurd again (by have : Numeral.greatestPower = 308 := rfl; omega)
    | last _ power' =>
      rw [power'.eq_of_power (by omega : k - Numeral.greatestPower ≤ 22)]
      have same : Within 1 ((10 : ℚ) ^ (k - Numeral.greatestPower))
          (10 ^ (k - Numeral.greatestPower)) := ⟨(one_mul _).ge, (one_mul _).ge⟩
      have third := second.div (mul_nonneg positive tenth) quotient.bounds.1 (by positivity)
        (by positivity) (by positivity) same
      rwa [mul_one, div_div, ← pow_add, Nat.add_sub_cancel' large.le] at third

/-- A power that is smaller than every number costs no more than two roundings do, unless the number
is among the least ones. -/
theorem Scaled.within_of_small {c : Nat} {k : Int} {z : ℚ} (h : Scaled c k z) (some : 0 < c)
    (fits : c < 2 ^ 64) (small : k < -308) (least : -324 ≤ k) :
    Within (roundingFactor * roundingFactor) z (c * 10 ^ k) ∨
      (c : ℚ) * 10 ^ k < 2 ^ (-1023 : Int) ∧ Within (1 + 16 / (5 * 2 ^ 53)) z (c * 10 ^ k) := by
  obtain ⟨w, digits, rest⟩ := h
  rw [if_neg (by omega)] at rest
  have exponent : k = -(k.natAbs : Int) := by omega
  have greatest : Numeral.greatestPower = 308 := rfl
  have power : (c : ℚ) * 10 ^ k = c / 10 ^ k.natAbs := by
    rw [exponent, zpow_neg, zpow_natCast, ← div_eq_mul_inv, Int.natAbs_neg, Int.natAbs_natCast]
  rw [power]
  rcases Nat.lt_or_ge c 3 with few | many
  · refine .inr ⟨?_, ?_⟩
    · have two : (c : ℚ) ≤ 2 := by exact_mod_cast Nat.lt_succ_iff.mp few
      have unit : (2 : ℚ) ^ (-1023 : Int) * 2 ^ 1024 = 2 := by
        rw [← zpow_natCast, ← zpow_add₀ two_ne_zero]
        norm_num
      have large : (10 : ℚ) ^ (309 : Int) ≤ 10 ^ k.natAbs := by
        rw [← zpow_natCast]
        exact zpow_le_zpow_right₀ (by norm_num) (by omega)
      rw [div_lt_iff₀ (by positivity)]
      calc (c : ℚ) ≤ 2 := two
        _ = 2 ^ (-1023 : Int) * 2 ^ 1024 := unit.symm
        _ < 2 ^ (-1023 : Int) * 10 ^ k.natAbs :=
          mul_lt_mul_of_pos_left (two_pow_1024_lt.trans_le large) (by positivity)
    · have close := rest.within (by omega) (by omega) (by norm_num) fun v quotient =>
        quotient_within_of_least some (by omega) digits quotient
      exact close.mono (by norm_num) (by positivity) (by norm_num)
  · refine .inl ?_
    have close := rest.within (by omega) (by omega) (by norm_num) fun v quotient =>
      quotient_within many fits digits quotient
    exact close.mono (by norm_num) (by positivity) (by norm_num [roundingFactor])

/-! ## Places -/

/-- What is nearest to a small number has a small significand. -/
theorem Format.Nearest.significand_le {r : ℚ} {m : Nat} {q : Int} (h : double.Nearest r m q)
    (small : r ≤ 2 ^ (-1022 : Int)) : m ≤ 2 ^ 52 := by
  have first : double.Canonical (twoTo 52) (-1074) := ⟨by decide, by decide, .inr le_rfl⟩
  have value : (twoTo 52 : ℚ) * 2 ^ (-1074 : Int) = 2 ^ (-1022 : Int) := by
    rw [twoTo_mul_zpow]
    rfl
  have le := h.le_of_le' first (small.trans_eq value.symm)
  rw [← not_lt, ← first.pattern_lt_iff h.canonical, not_lt] at le
  exact (Nat.le_add_left _ _).trans (le.trans_eq (by decide))

theorem margin_of_small {m : Nat} (few : m ≤ 2 ^ 52) :
    ((1 + 16 / (5 * 2 ^ 53) : ℚ) - 1) * (2 * m + 1) < 2 * (2 : Nat) := by
  have few' : (m : ℚ) ≤ 2 ^ 52 := by exact_mod_cast few
  norm_num
  linarith

/-- What is nearest to a scaled number is at most two places behind what is nearest to the number
that is spelled, and the other way round. -/
theorem Scaled.two_mul_lt {c : Nat} {k : Int} {z : ℚ} (h : Scaled c k z) (some : 0 < c)
    (fits : c < 2 ^ 64) (least : -324 ≤ k) (greatest : k ≤ 308) :
    (∀ m q, double.Nearest (c * 10 ^ k) m q → 2 * z < (2 * m + 2 * (2 : Nat) + 1) * 2 ^ q) ∧
      ∀ n p, double.Nearest z n p →
        2 * (c * 10 ^ k) < (2 * n + 2 * (2 : Nat) + 1) * (2 : ℚ) ^ p := by
  have power : Numeral.greatestPower = 308 := rfl
  have two := mul_pos roundingFactor_pos roundingFactor_pos
  have within : Within (roundingFactor * roundingFactor) z (c * 10 ^ k) ∨
      (c : ℚ) * 10 ^ k < 2 ^ (-1023 : Int) ∧ Within (1 + 16 / (5 * 2 ^ 53)) z (c * 10 ^ k) := by
    rcases lt_or_ge k (-308) with small | near
    · exact h.within_of_small some fits small least
    · exact .inl (h.within some fits (by omega))
  rcases within with close | ⟨small, close⟩
  · exact ⟨fun m q nearest => nearest.two_mul_lt (by decide) two.le close.1
        (margin_of_two_roundings nearest.canonical.lt),
      fun n p nearest => nearest.two_mul_lt (by decide) two.le close.2
        (margin_of_two_roundings nearest.canonical.lt)⟩
  · have half : (2 : ℚ) ^ (-1022 : Int) = 2 * 2 ^ (-1023 : Int) := by
      rw [← zpow_one_add₀ two_ne_zero]
      rfl
    have unit : (0 : ℚ) < 2 ^ (-1023 : Int) := by positivity
    have less : z ≤ 2 ^ (-1022 : Int) := by
      have := close.1
      rw [half]
      linarith
    have less' : (c : ℚ) * 10 ^ k ≤ 2 ^ (-1022 : Int) := by
      rw [half]
      linarith
    exact ⟨fun m q nearest => nearest.two_mul_lt (by decide) (by norm_num) close.1
        (margin_of_small (nearest.significand_le less')),
      fun n p nearest => nearest.two_mul_lt (by decide) (by norm_num) close.2
        (margin_of_small (nearest.significand_le less))⟩

end RecordRows.Binary
