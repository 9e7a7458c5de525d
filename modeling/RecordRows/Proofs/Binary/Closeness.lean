import RecordRows.Proofs.Binary.Scaling

/-!
How far scaling leads astray. Every rounding changes a number by a small factor, and so scaling
leaves a number that is within two such factors of the one that is spelled (`Scaled.within`). The
numbers that are nearest to both are then at most two places apart (`Format.Nearest.pattern_le`).
-/
namespace RecordRows

open Binary Format

namespace Binary

/-! ## The nearest magnitude -/

/-- No magnitude of the format is nearer to `r` than `m * 2 ^ q`, which is a finite one. -/
structure Format.Nearest (f : Format) (r : ℚ) (m : Nat) (q : Int) : Prop where
  canonical : f.Canonical m q
  inside : f.pattern m q < f.infinity
  near : ∀ n p, f.Canonical n p → |(m : ℚ) * 2 ^ q - r| ≤ |(n : ℚ) * 2 ^ p - r|

namespace Format.Nearest

variable {f : Format} {r t : ℚ} {m n k : Nat} {q p : Int}

/-- A magnitude below a number lies in the lower half of the way to the next one. -/
theorem two_mul_le (hF : 0 < f.fractionBits) (h : f.Nearest r m q) :
    2 * r ≤ (2 * m + 1) * 2 ^ q := by
  have fills : m + 1 ≤ 2 * twoTo f.fractionBits := h.canonical.lt
  obtain ⟨n, p, next, place, value, -⟩ := exists_carried hF fills h.canonical.least_le
    (h.canonical.full.imp_right fun full => by omega)
  have greater : (m : ℚ) * 2 ^ q < n * 2 ^ p := by
    rw [← h.canonical.pattern_lt_iff next, place, pattern, pattern]
    omega
  have half := two_mul_le_of_abs_le greater (h.near n p next)
  rw [value] at half
  push_cast at half
  linarith

/-- A number that is nearest to something smaller comes no later. -/
theorem pattern_le (hm : f.Canonical m q) (h : f.Nearest t n p)
    (less : 2 * t < (2 * m + 2 * k + 1) * 2 ^ q) : f.pattern n p ≤ f.pattern m q + k := by
  by_contra later
  obtain ⟨n', p', previous, place⟩ := exists_canonical (f := f) (k := f.pattern n p - 1)
    (by have := h.inside; omega)
  have smaller : (n' : ℚ) * 2 ^ p' < n * 2 ^ p := by
    rw [← previous.pattern_lt_iff h.canonical]
    omega
  have half := le_two_mul_of_abs_le smaller (h.near n' p' previous)
  have low := hm.add_mul_le previous (k := k) (by omega)
  have high := hm.add_mul_le h.canonical (k := k + 1) (by omega)
  push_cast at low high
  linarith

/-- The limit is halfway between the last finite number and the number behind it. -/
theorem two_mul_limit_eq (he : 2 ≤ f.exponentBits) :
    ∃ g, f.Canonical (2 * twoTo f.fractionBits - 1) g ∧ f.Canonical (twoTo f.fractionBits) (g + 1) ∧
      f.pattern (2 * twoTo f.fractionBits - 1) g + 1 = f.infinity ∧
      f.pattern (twoTo f.fractionBits) (g + 1) = f.infinity ∧
      2 * f.limit = (2 * twoTo f.fractionBits - 1 : Nat) * 2 ^ g
        + twoTo f.fractionBits * 2 ^ (g + 1) := by
  have hF := twoTo_pos f.fractionBits
  obtain ⟨top, wide⟩ := infinity_eq he
  have least : f.leastExponent = 2 - twoTo (f.exponentBits - 1) - f.fractionBits := rfl
  have twice := f.two_mul_limit
  generalize twoTo (f.exponentBits - 1) = T at *
  refine ⟨T - 1 - f.fractionBits, ⟨by omega, by omega, .inr (by omega)⟩,
    ⟨by omega, by omega, .inr le_rfl⟩, ?_, ?_, ?_⟩
  · have steps : ((T : Int) - 1 - f.fractionBits - f.leastExponent).toNat = 2 * T - 3 := by omega
    rw [pattern, steps, top, Nat.add_assoc, Nat.sub_add_cancel (by omega), ← Nat.add_mul]
    congr 1
    omega
  · have steps : ((T : Int) - 1 - f.fractionBits + 1 - f.leastExponent).toNat = 2 * T - 2 := by
      omega
    rw [pattern, steps, top, ← Nat.add_one_mul]
    congr 1
    omega
  · rw [twice, Nat.cast_sub (by omega), Nat.cast_sub (by omega), zpow_add_one₀ two_ne_zero]
    push_cast
    ring

/-- What is nearest to something smaller is finite if there is room for it. -/
theorem lt_limit (he : 2 ≤ f.exponentBits) (hm : f.Canonical m q)
    (room : f.pattern m q + k + 1 ≤ f.infinity)
    (less : 2 * t < (2 * m + 2 * k + 1) * 2 ^ q) : t < f.limit := by
  obtain ⟨g, last, beyond, place, place', middle⟩ := two_mul_limit_eq he
  have low := hm.add_mul_le last (k := k) (by omega)
  have high := hm.add_mul_le beyond (k := k + 1) (by omega)
  rw [Nat.cast_add] at low high
  rw [Nat.cast_succ] at high
  linarith

/-- A magnitude is at most half a unit away from what it is nearest to. -/
theorem abs_sub_le (hF : 0 < f.fractionBits) (positive : 0 ≤ r) (h : f.Nearest r m q)
    (least : f.leastExponent ≤ p) (high : r < 2 * twoTo f.fractionBits * 2 ^ p)
    (full : p = f.leastExponent ∨ twoTo f.fractionBits * 2 ^ p ≤ r) :
    |(m : ℚ) * 2 ^ q - r| ≤ 2 ^ p / 2 := by
  have unit : (0 : ℚ) < 2 ^ p := by positivity
  have split := Nat.floor_le (div_nonneg positive unit.le)
  have next := Nat.lt_floor_add_one (r / 2 ^ p)
  have few : ⌊r / 2 ^ p⌋₊ < 2 * twoTo f.fractionBits := by
    rw [Nat.floor_lt (by positivity), div_lt_iff₀ unit]
    exact_mod_cast high
  have filled := full.imp_right fun full =>
    (Nat.le_floor (by rwa [le_div_iff₀ unit]) : twoTo f.fractionBits ≤ ⌊r / 2 ^ p⌋₊)
  rw [le_div_iff₀ unit] at split
  rw [div_lt_iff₀ unit] at next
  generalize ⌊r / 2 ^ p⌋₊ = a at *
  obtain ⟨n, e, above, -, value, -⟩ := exists_carried hF (m := a + 1) (q := p) few least
    (filled.imp_right fun full => by omega)
  have below := h.near a p ⟨few, least, filled⟩
  have behind := h.near n e above
  rw [value] at behind
  push_cast at behind
  rw [abs_of_nonpos (by linarith : (a : ℚ) * 2 ^ p - r ≤ 0)] at below
  rw [abs_of_nonneg (by linarith : (0 : ℚ) ≤ (a + 1) * 2 ^ p - r)] at behind
  linarith

/-- A number that is no greater than something is no greater than what is nearest to that. -/
theorem le_of_le (h : f.Nearest r m q) (hn : f.Canonical n p) (le : (n : ℚ) * 2 ^ p ≤ r) :
    (n : ℚ) * 2 ^ p ≤ m * 2 ^ q := by
  have nearest := h.near n p hn
  rw [abs_sub_comm ((n : ℚ) * 2 ^ p), abs_of_nonneg (sub_nonneg.mpr le)] at nearest
  linarith [neg_abs_le ((m : ℚ) * 2 ^ q - r)]

theorem le_of_le' (h : f.Nearest r m q) (hn : f.Canonical n p) (le : r ≤ n * 2 ^ p) :
    (m : ℚ) * 2 ^ q ≤ n * 2 ^ p := by
  have nearest := h.near n p hn
  rw [abs_of_nonneg (sub_nonneg.mpr le)] at nearest
  linarith [le_abs_self ((m : ℚ) * 2 ^ q - r)]

end Format.Nearest

end Binary

/-- The number that a magnitude below the limit is rounded to is the nearest one. -/
theorem Binary64.Rounds.nearest {y : Binary64} {s : Bool} {r : ℚ}
    (h : y.Rounds s (if s then -r else r)) (positive : 0 ≤ r) (small : r < double.limit) :
    ∃ m q, y.read = .finite s m q ∧ double.Nearest r m q := by
  obtain ⟨num, den, hd, rfl, -⟩ := exists_rounds positive small
  obtain ⟨m, q, canonical, place, inside, near⟩ := exists_nearest (by decide) (by decide) hd small
  refine ⟨m, q, ?_, canonical, inside, fun n p hn => (near n p hn).1⟩
  have bound : double.round s num den < 2 ^ 64 := double.round_lt s num den
  rw [(rounds_iff s hd small).mp h, Binary64.read, ofPattern, UInt64.toNat_ofNat_of_lt' bound,
    Format.round, place, read_pattern canonical inside]

namespace Binary

theorem Rounded.nearest {r v : ℚ} (h : Rounded r v) (positive : 0 ≤ r) (small : r < double.limit) :
    ∃ (m : Nat) (q : Int), v = m * 2 ^ q ∧ double.Nearest r m q := by
  obtain ⟨y, rounds, hv⟩ := h
  obtain ⟨m, q, read, nearest⟩ := rounds.nearest (s := false) positive small
  rw [read] at hv
  exact ⟨m, q, (Option.some_inj.mp hv).symm, nearest⟩

/-! ## Numbers that are close to each other -/

/-- Each of two numbers is at most `ρ` times the other. -/
def Within (ρ a b : ℚ) : Prop := a ≤ ρ * b ∧ b ≤ ρ * a

namespace Within

variable {ρ σ a b c d : ℚ}

theorem nonneg (hρ : 0 < ρ) (hb : 0 ≤ b) (h : Within ρ a b) : 0 ≤ a :=
  nonneg_of_mul_nonneg_right (hb.trans h.2) hρ

theorem mono (hρ : 0 < ρ) (hb : 0 ≤ b) (h : Within ρ a b) (le : ρ ≤ σ) : Within σ a b :=
  ⟨h.1.trans (mul_le_mul_of_nonneg_right le hb),
    h.2.trans (mul_le_mul_of_nonneg_right le (h.nonneg hρ hb))⟩

theorem mul (hρ : 0 ≤ ρ) (ha : 0 ≤ a) (hb : 0 ≤ b) (hc : 0 ≤ c) (hd : 0 ≤ d)
    (h : Within ρ a b) (h' : Within σ c d) : Within (ρ * σ) (a * c) (b * d) := by
  constructor
  · calc a * c ≤ ρ * b * (σ * d) := mul_le_mul h.1 h'.1 hc (by positivity)
      _ = ρ * σ * (b * d) := by ring
  · calc b * d ≤ ρ * a * (σ * c) := mul_le_mul h.2 h'.2 hd (by positivity)
      _ = ρ * σ * (a * c) := by ring

theorem inv (ha : 0 < a) (hb : 0 < b) (h : Within ρ a b) : Within ρ a⁻¹ b⁻¹ := by
  constructor
  · rw [← div_eq_mul_inv, le_div_iff₀ hb, inv_mul_le_iff₀ ha, mul_comm]
    exact h.2
  · rw [← div_eq_mul_inv, le_div_iff₀ ha, inv_mul_le_iff₀ hb, mul_comm]
    exact h.1

theorem div (hρ : 0 ≤ ρ) (ha : 0 ≤ a) (hb : 0 ≤ b) (hc : 0 < c) (hd : 0 < d)
    (h : Within ρ a b) (h' : Within σ c d) : Within (ρ * σ) (a / c) (b / d) := by
  rw [div_eq_mul_inv, div_eq_mul_inv]
  exact mul hρ ha hb (by positivity) (by positivity) h (h'.inv hc hd)

/-- Natural numbers are compared after multiplication. -/
theorem of_natCast {m n j k : Nat} (positive : 0 < k) (hm : m * k ≤ j * n) (hn : n * k ≤ j * m) :
    Within (j / k) m n := by
  have positive' : (0 : ℚ) < k := by exact_mod_cast positive
  constructor <;> rw [div_mul_eq_mul_div, le_div_iff₀ positive'] <;> assumption_mod_cast

/-- A difference that is a small part of both numbers. -/
theorem of_abs_sub_le {ε : ℚ} (h : |a - b| ≤ ε) (ha : ε ≤ (ρ - 1) * a) (hb : ε ≤ (ρ - 1) * b) :
    Within ρ a b := by
  obtain ⟨low, high⟩ := abs_le.mp h
  constructor <;> linarith

end Within

/-- The error of one rounding, by the power of two below what is rounded. -/
theorem Rounded.error {r v : ℚ} {e : Int} (h : Rounded r v) (low : 2 ^ e ≤ r)
    (high : r < 2 ^ (e + 1)) (normal : -1022 ≤ e) (small : r < double.limit) :
    |v - r| ≤ 2 ^ e / 2 ^ 53 ∧ 2 ^ e ≤ v := by
  have positive : 0 < r := lt_of_lt_of_le (by positivity) low
  obtain ⟨m, q, rfl, nearest⟩ := h.nearest positive.le small
  have unit : (twoTo 52 : ℚ) * 2 ^ (e - 52) = 2 ^ e := by
    rw [twoTo_mul_zpow]
    congr 1
    push_cast
    ring
  have first : double.Canonical (twoTo 52) (e - 52) :=
    ⟨by decide, by have : double.leastExponent = -1074 := rfl; omega, .inr le_rfl⟩
  have error := nearest.abs_sub_le (by decide) positive.le first.least_le
    (by
      rw [mul_assoc]
      refine high.trans_eq ?_
      rw [show (twoTo double.fractionBits : ℚ) * 2 ^ (e - 52) = 2 ^ e from unit,
        zpow_add_one₀ two_ne_zero, mul_comm])
    (.inr (unit.trans_le low))
  refine ⟨error.trans_eq ?_, unit ▸ nearest.le_of_le first (unit.trans_le low)⟩
  rw [zpow_sub₀ two_ne_zero]
  norm_num
  ring

/-- Among the least numbers the error is half of their unit. -/
theorem Rounded.error_of_small {r v : ℚ} (h : Rounded r v) (positive : 0 ≤ r)
    (low : r < 2 ^ (-1021 : Int)) : |v - r| ≤ 2 ^ (-1075 : Int) := by
  have small : r < double.limit := by
    calc r < 2 ^ (-1021 : Int) := low
      _ ≤ 2 ^ ((twoTo (double.exponentBits - 1) : Int) - 1) :=
        zpow_le_zpow_right₀ one_le_two (by decide)
      _ ≤ double.limit := double.le_limit
  obtain ⟨m, q, rfl, nearest⟩ := h.nearest positive small
  have unit : 2 * (twoTo 52 : ℚ) * 2 ^ (-1074 : Int) = 2 ^ (-1021 : Int) := by
    rw [mul_assoc, twoTo_mul_zpow, ← zpow_one_add₀ two_ne_zero]
    rfl
  have error := nearest.abs_sub_le (by decide) positive (p := -1074) (by decide)
    (low.trans_eq unit.symm) (.inl rfl)
  refine error.trans_eq ?_
  rw [show (-1074 : Int) = -1075 + 1 by decide, zpow_add_one₀ two_ne_zero]
  ring

/-- A number lies in a binade, which is not below a power of two that the number reaches. -/
theorem exists_binade {r : ℚ} {k : Int} (low : (2 : ℚ) ^ k ≤ r) :
    ∃ e, k ≤ e ∧ (2 : ℚ) ^ e ≤ r ∧ r < 2 ^ (e + 1) := by
  have positive : 0 < r := lt_of_lt_of_le (by positivity) low
  have reached := Int.zpow_log_le_self (b := 2) one_lt_two positive
  have next := Int.lt_zpow_succ_log_self (b := 2) one_lt_two r
  have least := (Int.zpow_le_iff_le_log (b := 2) (by norm_num) positive).mp low
  rw [Nat.cast_ofNat] at reached next
  exact ⟨_, least, reached, next⟩

/-- One rounding changes a number that is not too small by no more than this factor. -/
def roundingFactor : ℚ := 1 + 1 / 2 ^ 53

theorem Rounded.within {r v : ℚ} (h : Rounded r v) (normal : 2 ^ (-1022 : Int) ≤ r)
    (small : r < double.limit) : Within roundingFactor v r := by
  obtain ⟨e, least, low, high⟩ := exists_binade normal
  obtain ⟨error, reached⟩ := h.error low high least small
  refine .of_abs_sub_le error ?_ ?_ <;> rw [roundingFactor] <;> linarith

theorem roundingFactor_pos : 0 < roundingFactor := by norm_num [roundingFactor]

/-! ## Distances -/

/-- What is close to a number stays below the middle of later numbers, if the factor is small enough
for as many steps. -/
theorem Format.Nearest.two_mul_lt {f : Format} {r t ρ : ℚ} {m k : Nat} {q : Int}
    (hF : 0 < f.fractionBits) (h : f.Nearest r m q) (positive : 0 ≤ ρ) (close : t ≤ ρ * r)
    (margin : (ρ - 1) * (2 * m + 1) < 2 * k) : 2 * t < (2 * m + 2 * k + 1) * 2 ^ q := by
  have unit : (0 : ℚ) < 2 ^ q := by positivity
  have half := mul_le_mul_of_nonneg_left (h.two_mul_le hF) positive
  calc 2 * t ≤ ρ * (2 * r) := by linarith
    _ ≤ ρ * ((2 * m + 1) * 2 ^ q) := half
    _ = ((ρ - 1) * (2 * m + 1) + (2 * m + 1)) * 2 ^ q := by ring
    _ < (2 * m + 2 * k + 1) * 2 ^ q := by
      apply mul_lt_mul_of_pos_right _ unit
      linarith

/-- Two roundings move a number by two places at most. -/
theorem margin_of_two_roundings {m : Nat} (few : m < 2 ^ 53) :
    (roundingFactor * roundingFactor - 1) * (2 * m + 1) < 2 * (2 : Nat) := by
  have few' : (m : ℚ) + 1 ≤ 2 ^ 53 := by exact_mod_cast few
  calc (roundingFactor * roundingFactor - 1) * (2 * m + 1)
      ≤ (roundingFactor * roundingFactor - 1) * (2 * 2 ^ 53 - 1) := by
        apply mul_le_mul_of_nonneg_left (by linarith)
        norm_num [roundingFactor]
    _ < 2 * (2 : Nat) := by norm_num [roundingFactor]

/-! ## Scaling in one step -/

theorem Rounded.within_of_natCast {c : Nat} {w : ℚ} (h : Rounded c w) (some : 0 < c)
    (small : c < 2 ^ 64) : Within roundingFactor w c ∧ 1 ≤ w := by
  have one : (1 : ℚ) ≤ c := by exact_mod_cast some
  have normal : (2 : ℚ) ^ (-1022 : Int) ≤ 1 := zpow_le_one_of_nonpos₀ one_le_two (by decide)
  exact ⟨h.within (normal.trans one) (lt_limit_of_lt small), h.le value?_one one⟩

theorem Rounded.within_of_power {k : Nat} {p : ℚ} (h : Rounded (10 ^ k) p)
    (small : k ≤ Numeral.greatestPower) : Within roundingFactor p (10 ^ k) ∧ 1 ≤ p := by
  have one : (1 : ℚ) ≤ 10 ^ k := one_le_pow₀ (by norm_num)
  have normal : (2 : ℚ) ^ (-1022 : Int) ≤ 1 := zpow_le_one_of_nonpos₀ one_le_two (by decide)
  have less : (10 : ℚ) ^ k < double.limit := by
    rw [← cast_tenTo]
    exact tenTo_lt_limit small
  exact ⟨h.within (normal.trans one) less, h.le value?_one one⟩

/-- Scaling by a power that is no greater than the greatest one rounds twice. -/
theorem Scaled.within {c : Nat} {k : Int} {z : ℚ} (h : Scaled c k z) (some : 0 < c)
    (small : c < 2 ^ 64) (near : k.natAbs ≤ Numeral.greatestPower) :
    Within (roundingFactor * roundingFactor) z (c * 10 ^ k) := by
  have positive := roundingFactor_pos.le
  obtain ⟨w, digits, rest⟩ := h
  obtain ⟨close, one⟩ := digits.within_of_natCast some small
  split at rest
  · next up =>
    obtain ⟨p, power, rfl⟩ := rest
    obtain ⟨close', one'⟩ := power.within_of_power (by omega)
    have scaled := close.mul positive (by linarith) (by positivity) (by linarith)
      (by positivity) close'
    rwa [← zpow_natCast, Int.toNat_of_nonneg up] at scaled
  · next down =>
    cases rest with
    | last _ power =>
      obtain ⟨close', one'⟩ := power.within_of_power near
      have scaled := close.div positive (by linarith) (by positivity) (by linarith)
        (by positivity) close'
      have exponent : k = -(k.natAbs : Int) := by omega
      rwa [exponent, zpow_neg, zpow_natCast, ← div_eq_mul_inv]
    | step large => omega

end Binary

end RecordRows
