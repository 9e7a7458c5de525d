import Mathlib.Algebra.Order.Field.Power
import Mathlib.Data.Int.Log
import Mathlib.Data.Rat.Floor
import Mathlib.Tactic.GCongr
import Mathlib.Tactic.Ring
import Mathlib.Tactic.FieldSimp
import Mathlib.Tactic.Positivity
import RecordRows.Binary.Format

/-!
The numbers that a format can hold, as exact rationals. A finite pattern reads as its canonical
significand and exponent and is found again from them (`canonical_of_read`, `read_pattern`); patterns
of one sign are ordered as their values (`Canonical.pattern_lt_iff`); and rounding a number that the
format can hold gives its pattern (`Canonical.roundMagnitude_eq`).
-/
namespace RecordRows.Binary

theorem twoTo_eq (n : Nat) : twoTo n = 2 ^ n := rfl

theorem twoTo_pos (n : Nat) : 0 < twoTo n := Nat.two_pow_pos n

/-- A power of two is written as a quotient of which one side is one. -/
theorem twoTo_div_twoTo (q : Int) : (twoTo q.toNat : ℚ) / twoTo (-q).toNat = 2 ^ q := by
  simp only [twoTo_eq, Nat.cast_pow, Nat.cast_ofNat]
  rcases le_total 0 q with h | h
  · lift q to ℕ using h
    simp
  · obtain ⟨n, rfl⟩ : ∃ n : ℕ, q = -n := ⟨q.natAbs, by omega⟩
    simp

/-- Two sides of a comparison of `2 ^ e` with a quotient, over natural numbers. -/
theorem den_mul_twoTo_le_iff {num den : Nat} (hd : 0 < den) (e : Int) :
    den * twoTo e.toNat ≤ num * twoTo (-e).toNat ↔ (2 : ℚ) ^ e ≤ num / den := by
  have hd' : (0 : ℚ) < den := by exact_mod_cast hd
  have ht : (0 : ℚ) < twoTo (-e).toNat := by exact_mod_cast twoTo_pos _
  rw [← twoTo_div_twoTo, div_le_div_iff₀ ht hd']
  norm_cast
  rw [Nat.mul_comm den]

theorem log_eq {r : ℚ} {e : Int} (hl : (2 : ℚ) ^ e ≤ r) (hu : r < 2 ^ (e + 1)) :
    Int.log 2 r = e := by
  have hr : 0 < r := lt_of_lt_of_le (by positivity) hl
  have h₁ : e ≤ Int.log 2 r := (Int.zpow_le_iff_le_log (by norm_num) hr).mp (by exact_mod_cast hl)
  have h₂ : Int.log 2 r < e + 1 :=
    (Int.lt_zpow_iff_log_lt (by norm_num) hr).mp (by exact_mod_cast hu)
  omega

theorem floorLog2_eq_log {num den : Nat} (hn : 0 < num) (hd : 0 < den) :
    Format.floorLog2 num den = Int.log 2 ((num : ℚ) / den) := by
  have hd' : (0 : ℚ) < den := by exact_mod_cast hd
  have hnl : (2 : ℚ) ^ num.log2 ≤ num := by exact_mod_cast Nat.log2_self_le hn.ne'
  have hnu : (num : ℚ) < 2 ^ (num.log2 + 1) := by exact_mod_cast Nat.lt_log2_self
  have hdl : (2 : ℚ) ^ den.log2 ≤ den := by exact_mod_cast Nat.log2_self_le hd.ne'
  have hdu : (den : ℚ) < 2 ^ (den.log2 + 1) := by exact_mod_cast Nat.lt_log2_self
  have hlow : (2 : ℚ) ^ ((num.log2 : Int) - den.log2 - 1) ≤ num / den := by
    rw [le_div_iff₀ hd']
    calc (2 : ℚ) ^ ((num.log2 : Int) - den.log2 - 1) * den
        ≤ 2 ^ ((num.log2 : Int) - den.log2 - 1) * 2 ^ (den.log2 + 1) := by gcongr
      _ = 2 ^ num.log2 := by
        rw [← zpow_natCast, ← zpow_natCast, ← zpow_add₀ two_ne_zero]; congr 1; push_cast; ring
      _ ≤ num := hnl
  have hhigh : (num : ℚ) / den < 2 ^ ((num.log2 : Int) - den.log2 + 1) := by
    rw [div_lt_iff₀ hd']
    calc (num : ℚ) < 2 ^ (num.log2 + 1) := hnu
      _ = 2 ^ ((num.log2 : Int) - den.log2 + 1) * 2 ^ den.log2 := by
        rw [← zpow_natCast, ← zpow_natCast, ← zpow_add₀ two_ne_zero]; congr 1; push_cast; ring
      _ ≤ 2 ^ ((num.log2 : Int) - den.log2 + 1) * den := by gcongr
  simp only [Format.floorLog2]
  split
  · rename_i h
    exact (log_eq ((den_mul_twoTo_le_iff hd _).mp h) hhigh).symm
  · rename_i h
    refine (log_eq hlow ?_).symm
    rw [den_mul_twoTo_le_iff hd, not_le] at h
    simpa using h


namespace Format

variable {f : Format}

/-! ## Canonical significands -/

/-- A significand and an exponent as a pattern of the format holds them: the significand fills the
format unless the exponent is the least one. -/
structure Canonical (f : Format) (m : Nat) (q : Int) : Prop where
  lt : m < 2 * twoTo f.fractionBits
  least_le : f.leastExponent ≤ q
  full : q = f.leastExponent ∨ twoTo f.fractionBits ≤ m

/-- The pattern of the magnitude `m * 2 ^ q`. -/
def pattern (f : Format) (m : Nat) (q : Int) : Nat :=
  (q - f.leastExponent).toNat * twoTo f.fractionBits + m

theorem infinity_lt_signBit (f : Format) : f.infinity < f.signBit := by
  have he : f.topExponent < twoTo f.exponentBits := Nat.sub_lt (twoTo_pos _) one_pos
  calc f.infinity < twoTo f.exponentBits * twoTo f.fractionBits :=
        Nat.mul_lt_mul_of_pos_right he (twoTo_pos _)
    _ = f.signBit := by simp only [signBit, twoTo_eq, pow_add, Nat.mul_comm]

/-- A sign bit leaves the magnitude as it is. -/
theorem signed_mod {a : Nat} (h : a < f.signBit) (s : Bool) :
    ((if s then f.signBit else 0) + a) % f.signBit = a := by
  cases s <;> simp [Nat.mod_eq_of_lt h]

theorem signed_negative {a : Nat} (h : a < f.signBit) (s : Bool) :
    (((if s then f.signBit else 0) + a) / f.signBit % 2 == 1) = s := by
  have hpos : 0 < f.signBit := twoTo_pos _
  cases s
  · simp [Nat.div_eq_of_lt h]
  · simp [Nat.add_div_left _ hpos, Nat.div_eq_of_lt h]

/-- What a finite reading tells about its pattern. -/
theorem canonical_of_read {bits : Nat} {s : Bool} {m : Nat} {q : Int}
    (h : f.read bits = .finite s m q) :
    f.Canonical m q ∧ f.pattern m q = bits % f.signBit ∧ f.pattern m q < f.infinity
      ∧ s = (bits / f.signBit % 2 == 1) := by
  have hF := twoTo_pos f.fractionBits
  have hmod := Nat.mod_lt (bits % f.signBit) hF
  have hdiv := Nat.div_add_mod (bits % f.signBit) (twoTo f.fractionBits)
  have hlt : bits % f.signBit / twoTo f.fractionBits < twoTo f.exponentBits := by
    rw [Nat.div_lt_iff_lt_mul hF]
    calc bits % f.signBit < f.signBit := Nat.mod_lt _ (twoTo_pos _)
      _ = twoTo f.exponentBits * twoTo f.fractionBits := by
        simp only [signBit, twoTo_eq, pow_add, Nat.mul_comm]
  simp only [read] at h
  generalize bits % f.signBit = magnitude at *
  generalize hb : magnitude / twoTo f.fractionBits = biased at *
  split at h
  · split at h <;> cases h
  · rename_i htop
    have hinf : magnitude < f.infinity := by
      have : biased < f.topExponent := by simp only [topExponent] at htop ⊢; omega
      rw [← hb, Nat.div_lt_iff_lt_mul hF] at this
      exact this
    split at h
    · rename_i h0
      injection h with hs hm hq
      subst hs hm hq
      rw [h0, Nat.mul_zero, Nat.zero_add] at hdiv
      refine ⟨⟨by omega, le_rfl, .inl rfl⟩, ?_, ?_, rfl⟩ <;> simp [pattern] <;> omega
    · rename_i h0
      injection h with hs hm hq
      subst hs hm hq
      have hp : f.pattern (twoTo f.fractionBits + magnitude % twoTo f.fractionBits)
          (f.leastExponent + (biased - 1 : Nat)) = magnitude := by
        obtain ⟨k, rfl⟩ : ∃ k, biased = k + 1 := ⟨biased - 1, by omega⟩
        simp only [pattern, Nat.add_sub_cancel, add_sub_cancel_left, Int.toNat_natCast]
        rw [Nat.mul_add, Nat.mul_one, Nat.mul_comm] at hdiv
        omega
      exact ⟨⟨by omega, by omega, .inr (by omega)⟩, hp, by rw [hp]; exact hinf, rfl⟩

/-- Finite magnitudes are read back from their patterns, with either sign. -/
theorem read_pattern {m : Nat} {q : Int} (h : f.Canonical m q) (hinf : f.pattern m q < f.infinity)
    (s : Bool) : f.read ((if s then f.signBit else 0) + f.pattern m q) = .finite s m q := by
  have hF := twoTo_pos f.fractionBits
  have hsign := hinf.trans f.infinity_lt_signBit
  simp only [read, signed_mod hsign, signed_negative hsign]
  obtain ⟨k, hk⟩ : ∃ k : Nat, q = f.leastExponent + k :=
    ⟨(q - f.leastExponent).toNat, by have := h.least_le; omega⟩
  have hpk : f.pattern m q = k * twoTo f.fractionBits + m := by
    simp only [pattern, hk, add_sub_cancel_left, Int.toNat_natCast]
  by_cases hm : m < twoTo f.fractionBits
  · have hk0 : k = 0 := by
      rcases h.full with h | h
      · omega
      · omega
    subst hk0
    have htop : f.topExponent ≠ 0 := by
      intro h0
      simp [infinity, h0] at hinf
    rw [hpk, Nat.zero_mul, Nat.zero_add, Nat.div_eq_of_lt hm, Nat.mod_eq_of_lt hm]
    rw [if_neg htop.symm, if_pos rfl, hk]
    simp
  · obtain ⟨n, rfl⟩ : ∃ n, m = twoTo f.fractionBits + n := ⟨m - twoTo f.fractionBits, by omega⟩
    have hn : n < twoTo f.fractionBits := by have := h.lt; omega
    have hp : f.pattern (twoTo f.fractionBits + n) q = n + twoTo f.fractionBits * (k + 1) := by
      rw [hpk]; ring
    have hne : k + 1 ≠ f.topExponent := by
      intro he
      rw [hp, he, infinity, Nat.mul_comm] at hinf
      omega
    rw [hp, Nat.add_mul_div_left _ _ hF, Nat.add_mul_mod_self_left, Nat.div_eq_of_lt hn,
      Nat.mod_eq_of_lt hn, Nat.zero_add, if_neg hne, if_neg (Nat.succ_ne_zero k), hk]
    simp

/-! ## Order -/

/-- A greater exponent outweighs every significand. -/
theorem Canonical.lt_of_exponent_lt {m n : Nat} {q r : Int} (hm : f.Canonical m q)
    (hn : f.Canonical n r) (h : q < r) :
    f.pattern m q < f.pattern n r ∧ (m : ℚ) * 2 ^ q < n * 2 ^ r := by
  have hq := hm.least_le
  have hfull : twoTo f.fractionBits ≤ n := by
    rcases hn.full with hr | hr
    · omega
    · exact hr
  constructor
  · have hk : (q - f.leastExponent).toNat + 1 ≤ (r - f.leastExponent).toNat := by omega
    have hmul := Nat.mul_le_mul_right (twoTo f.fractionBits) hk
    have hlt := hm.lt
    simp only [pattern]
    rw [Nat.add_mul, Nat.one_mul] at hmul
    omega
  · have hlt : (m : ℚ) < 2 * twoTo f.fractionBits := by exact_mod_cast hm.lt
    have hle : (twoTo f.fractionBits : ℚ) ≤ n := by exact_mod_cast hfull
    have hpow : (2 : ℚ) * 2 ^ q ≤ 2 ^ r := by
      rw [← zpow_one_add₀ two_ne_zero]
      exact zpow_le_zpow_right₀ one_le_two (by omega)
    calc (m : ℚ) * 2 ^ q < 2 * twoTo f.fractionBits * 2 ^ q := by gcongr
      _ = twoTo f.fractionBits * (2 * 2 ^ q) := by ring
      _ ≤ n * 2 ^ r := by gcongr

/-- Patterns of one sign are ordered as their values. -/
theorem Canonical.pattern_lt_iff {m n : Nat} {q r : Int} (hm : f.Canonical m q)
    (hn : f.Canonical n r) : f.pattern m q < f.pattern n r ↔ (m : ℚ) * 2 ^ q < n * 2 ^ r := by
  rcases lt_trichotomy q r with h | rfl | h
  · have hlt := hm.lt_of_exponent_lt hn h
    exact iff_of_true hlt.1 hlt.2
  · rw [mul_lt_mul_iff_left₀ (by positivity), Nat.cast_lt]
    simp [pattern]
  · have hgt := hn.lt_of_exponent_lt hm h
    exact iff_of_false hgt.1.not_gt hgt.2.not_gt

/-- Infinity has the pattern that the first power of two out of range would have. -/
theorem infinity_eq_pattern (he : 0 < f.exponentBits) :
    ∃ q, f.Canonical (twoTo f.fractionBits) q ∧ f.infinity = f.pattern (twoTo f.fractionBits) q
      ∧ (twoTo f.fractionBits : ℚ) * 2 ^ q = 2 ^ twoTo (f.exponentBits - 1) := by
  obtain ⟨e, he⟩ : ∃ e, f.exponentBits = e + 1 := ⟨f.exponentBits - 1, by omega⟩
  have hF := twoTo_pos f.fractionBits
  have ht := twoTo_pos e
  have htop : f.topExponent = 2 * twoTo e - 1 := by
    simp only [topExponent, he, twoTo_eq, pow_succ']
  refine ⟨f.leastExponent + (2 * twoTo e - 2 : Nat), ⟨by omega, by omega, .inr le_rfl⟩, ?_, ?_⟩
  · simp only [pattern, infinity, htop, add_sub_cancel_left, Int.toNat_natCast]
    rw [← Nat.add_one_mul]
    congr 1
    omega
  · rw [he, Nat.add_sub_cancel, twoTo_eq f.fractionBits, Nat.cast_pow, Nat.cast_ofNat,
      ← zpow_natCast, ← zpow_natCast, ← zpow_add₀ two_ne_zero]
    congr 1
    simp only [leastExponent, he, Nat.add_sub_cancel]
    omega

theorem Canonical.pattern_lt_infinity_iff {m : Nat} {q : Int} (h : f.Canonical m q)
    (he : 0 < f.exponentBits) :
    f.pattern m q < f.infinity ↔ (m : ℚ) * 2 ^ q < 2 ^ twoTo (f.exponentBits - 1) := by
  obtain ⟨r, hr, hpattern, hvalue⟩ := infinity_eq_pattern he
  rw [hpattern, h.pattern_lt_iff hr, hvalue]

/-! ## Rounding what the format can hold -/

/-- The exponent of the unit in the last place of a number, as rounding chooses it. -/
def unit (f : Format) (r : ℚ) : Int := max f.leastExponent (Int.log 2 r - f.fractionBits)

theorem log_mul_zpow {m : Nat} (hm : 0 < m) (q : Int) :
    Int.log 2 ((m : ℚ) * 2 ^ q) = m.log2 + q := by
  have hl : (2 : ℚ) ^ m.log2 ≤ m := by exact_mod_cast Nat.log2_self_le hm.ne'
  have hu : (m : ℚ) < 2 ^ (m.log2 + 1) := by exact_mod_cast Nat.lt_log2_self
  apply log_eq
  · rw [zpow_add₀ two_ne_zero, zpow_natCast]
    gcongr
  · rw [show (m.log2 : Int) + q + 1 = (m.log2 + 1 : Nat) + q by push_cast; ring,
      zpow_add₀ two_ne_zero, zpow_natCast]
    gcongr

theorem Canonical.unit_eq {m : Nat} {q : Int} (h : f.Canonical m q) (hm : 0 < m) :
    f.unit (m * 2 ^ q) = q := by
  have hlog : m.log2 < f.fractionBits + 1 := by
    rw [Nat.log2_lt hm.ne', pow_succ']
    exact h.lt
  have hq := h.least_le
  rw [unit, log_mul_zpow hm]
  rcases h.full with hl | hf
  · omega
  · have : f.fractionBits ≤ m.log2 := (Nat.le_log2 hm.ne').mpr hf
    omega

/-- A multiple of its own unit is canonical. -/
theorem canonical_unit {r : ℚ} (hr : 0 < r) {m : Nat} (h : r = m * 2 ^ f.unit r) :
    f.Canonical m (f.unit r) := by
  have hpow : (0 : ℚ) < 2 ^ f.unit r := by positivity
  refine ⟨?_, le_max_left .., ?_⟩
  · have hlog : Int.log 2 r + 1 ≤ f.unit r + (f.fractionBits + 1 : Nat) := by
      simp only [unit]
      omega
    have hlt : (m : ℚ) * 2 ^ f.unit r < 2 ^ (f.fractionBits + 1) * 2 ^ f.unit r := by
      calc (m : ℚ) * 2 ^ f.unit r = r := h.symm
        _ < 2 ^ (Int.log 2 r + 1) := by exact_mod_cast Int.lt_zpow_succ_log_self one_lt_two r
        _ ≤ 2 ^ (f.unit r + (f.fractionBits + 1 : Nat)) := zpow_le_zpow_right₀ one_le_two hlog
        _ = 2 ^ (f.fractionBits + 1) * 2 ^ f.unit r := by
          rw [zpow_add₀ two_ne_zero, zpow_natCast, mul_comm]
    rw [mul_lt_mul_iff_left₀ hpow, pow_succ'] at hlt
    exact_mod_cast hlt
  · by_cases hl : f.unit r = f.leastExponent
    · exact .inl hl
    · have hlog : Int.log 2 r = (f.fractionBits : Int) + f.unit r := by
        simp only [unit] at hl ⊢
        omega
      have hle : (2 : ℚ) ^ f.fractionBits * 2 ^ f.unit r ≤ m * 2 ^ f.unit r := by
        calc (2 : ℚ) ^ f.fractionBits * 2 ^ f.unit r = 2 ^ Int.log 2 r := by
              rw [hlog, zpow_add₀ two_ne_zero, zpow_natCast]
          _ ≤ r := by exact_mod_cast Int.zpow_log_le_self one_lt_two hr
          _ = m * 2 ^ f.unit r := h
      rw [mul_le_mul_iff_left₀ hpow] at hle
      exact .inr (by exact_mod_cast hle)

theorem nearest_mul_self (m : Nat) {d : Nat} (hd : 0 < d) : nearest (m * d) d = m := by
  simp [nearest, Nat.mul_div_cancel _ hd, hd]

/-- Rounding changes nothing in a number that the format can hold. -/
theorem Canonical.roundMagnitude_eq {m : Nat} {q : Int} (h : f.Canonical m q) {num den : Nat}
    (hd : 0 < den) (hv : (num : ℚ) / den = m * 2 ^ q) :
    f.roundMagnitude num den = min f.infinity (f.pattern m q) := by
  have hd' : (0 : ℚ) < den := by exact_mod_cast hd
  rcases Nat.eq_zero_or_pos num with rfl | hn
  · have hm : m = 0 := by
      have hz : (m : ℚ) * 2 ^ q = 0 := by simp [← hv]
      exact_mod_cast (mul_eq_zero.mp hz).resolve_right (by positivity)
    have hq : q = f.leastExponent := h.full.resolve_right (by have := twoTo_pos f.fractionBits; omega)
    simp [roundMagnitude, pattern, hm, hq]
  · have hm : 0 < m := by
      rcases Nat.eq_zero_or_pos m with rfl | hm
      · simp [hn.ne', hd.ne'] at hv
      · exact hm
    have hunit : max f.leastExponent (floorLog2 num den - f.fractionBits) = q := by
      rw [floorLog2_eq_log hn hd, hv]
      exact h.unit_eq hm
    have hscaled : num * twoTo (-q).toNat = m * (den * twoTo q.toNat) := by
      have ht : (0 : ℚ) < twoTo (-q).toNat := by exact_mod_cast twoTo_pos _
      rw [← twoTo_div_twoTo, ← mul_div_assoc, div_eq_div_iff hd'.ne' ht.ne'] at hv
      have hn : num * twoTo (-q).toNat = m * twoTo q.toNat * den := by exact_mod_cast hv
      rw [hn]
      ring
    simp only [roundMagnitude, if_neg hn.ne', hunit, hscaled,
      nearest_mul_self m (Nat.mul_pos hd (twoTo_pos _)), pattern]

/-- Writing a finite reading writes the canonical form of its value. -/
theorem Canonical.write_eq {m : Nat} {q : Int} (h : f.Canonical m q)
    (hinf : f.pattern m q < f.infinity) (s : Bool) {n : Nat} {r : Int}
    (hv : (n : ℚ) * 2 ^ r = m * 2 ^ q) :
    f.write (.finite s n r) = (if s then f.signBit else 0) + f.pattern m q := by
  have hratio : ((n * twoTo r.toNat : Nat) : ℚ) / (twoTo (-r).toNat : Nat) = m * 2 ^ q := by
    rw [Nat.cast_mul, mul_div_assoc, twoTo_div_twoTo, hv]
  rw [write, round, h.roundMagnitude_eq (twoTo_pos _) hratio, Nat.min_eq_right hinf.le]

end Format

end RecordRows.Binary
