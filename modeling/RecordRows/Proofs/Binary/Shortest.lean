import RecordRows.Proofs.Binary.Conversion
import RecordRows.Proofs.Json.Number

/-!
What a float is written as. The search for a coarse decimal grid ends, and the point that it finds
rounds to the number (`shortest_spec`), so the number is the nearest one to the numeral that is
written (`Layout.numeral?_rounds`). The numeral has few digits, and its exponent is small
(`Layout.numeral?_bounded`).
-/
namespace RecordRows

open Binary Format

theorem Binary64.exists_read {x : Binary64} (finite : x.isFinite = true) :
    ∃ s m q, x.read = .finite s m q := by
  rw [Binary64.isFinite] at finite
  cases read : x.read with
  | finite s m q => exact ⟨s, m, q, rfl⟩
  | _ =>
    rw [read] at finite
    cases finite

namespace Binary

namespace Format

variable {f : Format} {m n : Nat} {q p : Int}

/-! ## Gaps between numbers -/

/-- From a pattern to a later one the values grow by at least one unit for each step. -/
theorem Canonical.add_mul_le (hm : f.Canonical m q) (hn : f.Canonical n p) {k : Nat}
    (later : f.pattern m q + k ≤ f.pattern n p) : ((m + k : Nat) : ℚ) * 2 ^ q ≤ n * 2 ^ p := by
  rcases lt_trichotomy q p with less | rfl | more
  · obtain ⟨d, rfl⟩ : ∃ d : Nat, p = q + d := ⟨(p - q).toNat, by omega⟩
    have least := hm.least_le
    have full : twoTo f.fractionBits ≤ n := hn.full.resolve_left (by omega)
    have steps : m + k ≤ d * twoTo f.fractionBits + n := by
      have far : (q + d - f.leastExponent).toNat = (q - f.leastExponent).toNat + d := by omega
      rw [pattern, pattern, far, Nat.add_mul] at later
      omega
    have doubled : m + k ≤ n * 2 ^ d := by
      calc m + k ≤ d * twoTo f.fractionBits + n := steps
        _ ≤ d * n + n := by gcongr
        _ = n * (d + 1) := by ring
        _ ≤ n * 2 ^ d := by
          gcongr
          exact Nat.lt_two_pow_self
    rw [zpow_add₀ two_ne_zero, zpow_natCast, mul_left_comm, mul_comm]
    gcongr
    exact_mod_cast doubled
  · have steps : m + k ≤ n := by
      rw [pattern, pattern] at later
      omega
    gcongr
  · have := (hn.lt_of_exponent_lt hm more).1
    omega

theorem zpow_eq_four_mul (q : Int) : (2 : ℚ) ^ q = 4 * 2 ^ (q - 2) := by
  rw [show q = q - 2 + 2 by ring, zpow_add₀ two_ne_zero, add_sub_cancel_right]
  ring

/-- The upper end of an interval is no farther than the middle of a number and a greater one. -/
theorem two_mul_high_le (hm : f.Canonical m q) (hn : f.Canonical n p)
    (less : (m : ℚ) * 2 ^ q < n * 2 ^ p) :
    2 * ((Interval.ofSignificand f m q).high * 2 ^ (q - 2)) ≤ (m : ℚ) * 2 ^ q + n * 2 ^ p := by
  have next := hm.add_mul_le hn (k := 1) ((hm.pattern_lt_iff hn).mpr less)
  rw [Nat.cast_succ, zpow_eq_four_mul q] at next
  rw [Interval.ofSignificand, zpow_eq_four_mul q]
  push_cast
  linarith

/-- The lower end of an interval is no farther than the middle of a number and a smaller one. -/
theorem le_two_mul_low (hm : f.Canonical m q) (hn : f.Canonical n p)
    (less : (n : ℚ) * 2 ^ p < m * 2 ^ q) :
    (n : ℚ) * 2 ^ p + m * 2 ^ q ≤ 2 * ((Interval.ofSignificand f m q).low * 2 ^ (q - 2)) := by
  have positive : (0 : ℚ) < 2 ^ (q - 2) := by positivity
  have some : 1 ≤ m := by
    rcases Nat.eq_zero_or_pos m with rfl | some
    · have : (0 : ℚ) ≤ n * 2 ^ p := by positivity
      rw [Nat.cast_zero, zero_mul] at less
      linarith
    · exact some
  have below : f.pattern n p < f.pattern m q := (hn.pattern_lt_iff hm).mpr less
  rcases lt_trichotomy p q with fine | rfl | coarse
  · -- the numbers below a binade have a smaller unit
    have full : twoTo f.fractionBits ≤ m := hm.full.resolve_left (by have := hn.least_le; omega)
    have finer : f.leastExponent < q := by have := hn.least_le; omega
    have bound : (n : ℚ) * 2 ^ p ≤ (4 * twoTo f.fractionBits - 2) * 2 ^ (q - 2) := by
      have last : f.Canonical (2 * twoTo f.fractionBits - 1) (q - 1) :=
        ⟨by have := twoTo_pos f.fractionBits; omega, by omega,
          .inr (by have := twoTo_pos f.fractionBits; omega)⟩
      have half : (2 : ℚ) ^ (q - 1) = 2 * 2 ^ (q - 2) := by
        rw [show q - 1 = q - 2 + 1 by ring, zpow_add_one₀ two_ne_zero, mul_comm]
      have top : f.pattern n p ≤ f.pattern (2 * twoTo f.fractionBits - 1) (q - 1) := by
        rcases eq_or_lt_of_le (show p ≤ q - 1 by omega) with rfl | finest
        · have := hn.lt
          rw [pattern, pattern]
          omega
        · exact (hn.lt_of_exponent_lt last finest).1.le
      have le := hn.add_mul_le last (k := 0) (by omega)
      have one : 1 ≤ 2 * twoTo f.fractionBits := by have := twoTo_pos f.fractionBits; omega
      rw [Nat.add_zero, Nat.cast_sub one, half] at le
      push_cast at le
      linarith
    rw [Interval.ofSignificand, zpow_eq_four_mul q]
    simp only
    split_ifs with edge
    · rw [Nat.cast_sub (by omega), edge.1]
      push_cast
      linarith
    · have above : twoTo f.fractionBits + 1 ≤ m :=
        Nat.lt_of_le_of_ne full fun same => edge ⟨same.symm, finer⟩
      have above' : (twoTo f.fractionBits : ℚ) + 1 ≤ m := by exact_mod_cast above
      have wide := mul_le_mul_of_nonneg_right above' positive.le
      rw [Nat.cast_sub (by omega)]
      push_cast
      linarith
  · have step : n + 1 ≤ m := by
      rw [pattern, pattern] at below
      omega
    have step' : (n : ℚ) + 1 ≤ m := by exact_mod_cast step
    have wide := mul_le_mul_of_nonneg_right step' positive.le
    rw [Interval.ofSignificand, zpow_eq_four_mul p]
    simp only
    split_ifs <;> rw [Nat.cast_sub (by omega)] <;> push_cast <;> linarith
  · have := (hm.lt_of_exponent_lt hn coarse).1
    omega

end Format

/-! ## Intervals -/

/-- A number between the ends of the interval, which belong to a closed one. -/
def Interval.Holds (i : Interval) (q : Int) (r : ℚ) : Prop :=
  if i.closed then (i.low : ℚ) * 2 ^ (q - 2) ≤ r ∧ r ≤ i.high * 2 ^ (q - 2)
  else (i.low : ℚ) * 2 ^ (q - 2) < r ∧ r < i.high * 2 ^ (q - 2)

theorem Interval.Holds.le {i : Interval} {q : Int} {r : ℚ} (h : i.Holds q r) :
    (i.low : ℚ) * 2 ^ (q - 2) ≤ r ∧ r ≤ i.high * 2 ^ (q - 2) := by
  unfold Holds at h
  split at h
  · exact h
  · exact ⟨h.1.le, h.2.le⟩

/-- A point above the middle of two numbers is nearer to the greater one. -/
theorem abs_sub_le_of_le_two_mul {v w x : ℚ} (less : v < w) (above : v + w ≤ 2 * x) :
    |w - x| ≤ |v - x| ∧ (|w - x| = |v - x| → v + w = 2 * x) := by
  rw [abs_of_neg (show v - x < 0 by linarith)]
  rcases abs_cases (w - x) with ⟨right, _⟩ | ⟨right, _⟩ <;> rw [right] <;>
    exact ⟨by linarith, fun _ => by linarith⟩

/-- A point below the middle of two numbers is nearer to the lesser one. -/
theorem abs_sub_le_of_two_mul_le {v w x : ℚ} (less : v < w) (below : 2 * x ≤ v + w) :
    |v - x| ≤ |w - x| ∧ (|v - x| = |w - x| → v + w = 2 * x) := by
  rw [abs_of_pos (show 0 < w - x by linarith)]
  rcases abs_cases (v - x) with ⟨left, _⟩ | ⟨left, _⟩ <;> rw [left] <;>
    exact ⟨by linarith, fun _ => by linarith⟩

/-- What the interval of a number holds is nearer to it than to every other number. -/
theorem Interval.Holds.near {f : Format} {m : Nat} {q : Int} (hm : f.Canonical m q) {r : ℚ}
    (held : (Interval.ofSignificand f m q).Holds q r) (n : Nat) (p : Int)
    (hn : f.Canonical n p) : |(m : ℚ) * 2 ^ q - r| ≤ |(n : ℚ) * 2 ^ p - r| ∧
      (|(m : ℚ) * 2 ^ q - r| = |(n : ℚ) * 2 ^ p - r| →
        (n : ℚ) * 2 ^ p = m * 2 ^ q ∨ m % 2 = 0) := by
  obtain ⟨low, high⟩ := held.le
  have strict (odd : m % 2 ≠ 0) : (Interval.ofSignificand f m q).low * (2 : ℚ) ^ (q - 2) < r ∧
      r < (Interval.ofSignificand f m q).high * 2 ^ (q - 2) := by
    rw [Interval.Holds, if_neg (by simpa [Interval.ofSignificand] using odd)] at held
    exact held
  rcases lt_trichotomy ((n : ℚ) * 2 ^ p) (m * 2 ^ q) with less | same | more
  · have middle := le_two_mul_low hm hn less
    obtain ⟨le, tie⟩ := abs_sub_le_of_le_two_mul less (by linarith : _ ≤ 2 * r)
    refine ⟨le, fun equal => .inr (by_contra fun odd => ?_)⟩
    linarith [tie equal, (strict odd).1]
  · exact ⟨by rw [same], fun _ => .inl same⟩
  · have middle := two_mul_high_le hm hn more
    obtain ⟨le, tie⟩ := abs_sub_le_of_two_mul_le more (by linarith : 2 * r ≤ _)
    refine ⟨le, fun equal => .inr (by_contra fun odd => ?_)⟩
    linarith [tie equal, (strict odd).2]

/-! ## Grids -/

theorem tenTo_pos (n : Nat) : 0 < tenTo n := Nat.pow_pos (by decide)

theorem cast_tenTo (n : Nat) : (tenTo n : ℚ) = 10 ^ n := Nat.cast_pow 10 n

/-- A power of ten is written as a quotient of which one side is one. -/
theorem tenTo_div_tenTo (p : Int) : (tenTo p.toNat : ℚ) / tenTo (-p).toNat = 10 ^ p := by
  rw [cast_tenTo, cast_tenTo]
  rcases le_total 0 p with h | h
  · lift p to ℕ using h
    simp
  · obtain ⟨n, rfl⟩ : ∃ n : ℕ, p = -n := ⟨p.natAbs, by omega⟩
    simp

/-- A multiple of a quarter unit in steps of a grid. -/
theorem mul_unit_div_step (a : Nat) (q p : Int) :
    ((a * (twoTo (q - 2).toNat * tenTo (-p).toNat) : Nat) : ℚ)
      / (twoTo (2 - q).toNat * tenTo p.toNat : Nat) = a * 2 ^ (q - 2) / 10 ^ p := by
  have below : (2 - q).toNat = (-(q - 2)).toNat := by rw [neg_sub]
  have two (n : Nat) : (twoTo n : ℚ) ≠ 0 := by exact_mod_cast (twoTo_pos n).ne'
  have ten (n : Nat) : (tenTo n : ℚ) ≠ 0 := by exact_mod_cast (tenTo_pos n).ne'
  have := two (-(q - 2)).toNat
  have := ten p.toNat
  have := ten (-p).toNat
  rw [← twoTo_div_twoTo, ← tenTo_div_tenTo, below]
  push_cast
  field_simp

theorem step_pos (q p : Int) : 0 < twoTo (2 - q).toNat * tenTo p.toNat :=
  Nat.mul_pos (twoTo_pos _) (tenTo_pos _)

/-- A multiple of a quarter unit compared with a point of a grid, over natural numbers. -/
theorem mul_unit_le_iff {a k : Nat} {q p : Int} :
    a * (twoTo (q - 2).toNat * tenTo (-p).toNat) ≤ k * (twoTo (2 - q).toNat * tenTo p.toNat)
      ↔ (a : ℚ) * 2 ^ (q - 2) ≤ k * 10 ^ p := by
  have step : (0 : ℚ) < (twoTo (2 - q).toNat * tenTo p.toNat : Nat) := by
    exact_mod_cast step_pos q p
  rw [← div_le_iff₀ (by positivity), ← mul_unit_div_step, div_le_iff₀ step]
  exact_mod_cast Iff.rfl

theorem le_mul_unit_iff {a k : Nat} {q p : Int} :
    k * (twoTo (2 - q).toNat * tenTo p.toNat) ≤ a * (twoTo (q - 2).toNat * tenTo (-p).toNat)
      ↔ (k : ℚ) * 10 ^ p ≤ a * 2 ^ (q - 2) := by
  have step : (0 : ℚ) < (twoTo (2 - q).toNat * tenTo p.toNat : Nat) := by
    exact_mod_cast step_pos q p
  rw [← le_div_iff₀ (by positivity), ← mul_unit_div_step, le_div_iff₀ step]
  exact_mod_cast Iff.rfl

/-- The test of the search, over the rational numbers. -/
theorem Interval.holds_iff (i : Interval) (q p : Int) (k : Nat) :
    (if i.closed then
        decide (i.low * (twoTo (q - 2).toNat * tenTo (-p).toNat)
            ≤ k * (twoTo (2 - q).toNat * tenTo p.toNat))
          && decide (k * (twoTo (2 - q).toNat * tenTo p.toNat)
            ≤ i.high * (twoTo (q - 2).toNat * tenTo (-p).toNat))
      else
        decide (i.low * (twoTo (q - 2).toNat * tenTo (-p).toNat)
            < k * (twoTo (2 - q).toNat * tenTo p.toNat))
          && decide (k * (twoTo (2 - q).toNat * tenTo p.toNat)
            < i.high * (twoTo (q - 2).toNat * tenTo (-p).toNat))) = true
      ↔ i.Holds q (k * 10 ^ p) := by
  unfold Holds
  split
  · rw [Bool.and_eq_true, decide_eq_true_eq, decide_eq_true_eq, mul_unit_le_iff, le_mul_unit_iff]
  · rw [Bool.and_eq_true, decide_eq_true_eq, decide_eq_true_eq, ← not_le, ← not_le,
      mul_unit_le_iff, le_mul_unit_iff, not_le, not_le]

/-- The nearest integer is the quotient or the integer behind it. -/
theorem Format.nearest_eq_or (num den : Nat) :
    nearest num den = num / den ∨ nearest num den = num / den + 1 := by
  simp only [nearest]
  split_ifs <;> omega

/-- A point that is found lies in the interval. -/
theorem Interval.gridPoint?_holds {i : Interval} {q p : Int} {k : Nat}
    (found : i.gridPoint? q p = some k) : i.Holds q (k * 10 ^ p) := by
  unfold gridPoint? at found
  simp only at found
  split at found
  · next below above =>
    rw [holds_iff] at below above
    cases found
    rcases nearest_eq_or (i.value * (twoTo (q - 2).toNat * tenTo (-p).toNat))
      (twoTo (2 - q).toNat * tenTo p.toNat) with same | next
    · rw [same]
      exact below
    · rw [next]
      exact above
  · next below _ =>
    cases found
    exact (holds_iff ..).mp below
  · next _ above =>
    cases found
    exact (holds_iff ..).mp above
  · cases found

/-- A grid that is finer than a quarter unit has a point in the interval. -/
theorem Interval.exists_gridPoint? {i : Interval} (low : i.low < i.value) (high : i.value < i.high)
    {q p : Int} (fine : (10 : ℚ) ^ p ≤ 2 ^ (q - 2)) : ∃ k, i.gridPoint? q p = some k := by
  have positive : (0 : ℚ) < 2 ^ (q - 2) := by positivity
  have low' : (i.low : ℚ) + 1 ≤ i.value := by exact_mod_cast low
  have high' : (i.value : ℚ) < i.high := by exact_mod_cast high
  have held : i.Holds q ((i.value * (twoTo (q - 2).toNat * tenTo (-p).toNat)
      / (twoTo (2 - q).toNat * tenTo p.toNat) : Nat) * 10 ^ p) := by
    have reached := Nat.div_mul_le_self (i.value * (twoTo (q - 2).toNat * tenTo (-p).toNat))
      (twoTo (2 - q).toNat * tenTo p.toNat)
    have passed := Nat.lt_mul_div_succ (i.value * (twoTo (q - 2).toNat * tenTo (-p).toNat))
      (step_pos q p)
    generalize i.value * (twoTo (q - 2).toNat * tenTo (-p).toNat)
      / (twoTo (2 - q).toNat * tenTo p.toNat) = k at reached passed ⊢
    rw [← not_le, Nat.mul_comm _ (k + 1), le_mul_unit_iff, not_le, Nat.cast_succ] at passed
    rw [le_mul_unit_iff] at reached
    have above : (i.low : ℚ) * 2 ^ (q - 2) < k * 10 ^ p := by
      have := mul_le_mul_of_nonneg_right low' positive.le
      linarith
    have below : (k : ℚ) * 10 ^ p < i.high * 2 ^ (q - 2) :=
      reached.trans_lt (mul_lt_mul_of_pos_right high' positive)
    unfold Holds
    split
    · exact ⟨above.le, below.le⟩
    · exact ⟨above, below⟩
  rw [← holds_iff] at held
  unfold gridPoint?
  simp only
  split
  · exact ⟨_, rfl⟩
  · exact ⟨_, rfl⟩
  · exact ⟨_, rfl⟩
  · next below _ => exact absurd (below.symm.trans held) (by decide)

/-! ## The search -/

/-- The search stops at the first grid with a point, if it comes to one. -/
theorem Interval.coarsest_spec {i : Interval} {q p : Int} {fuel k : Nat} (reached : k < fuel)
    {b : Nat} (found : i.gridPoint? q (p - k) = some b) :
    i.gridPoint? q (i.coarsest q p fuel).exponent = some (i.coarsest q p fuel).digits ∧
      p - k ≤ (i.coarsest q p fuel).exponent ∧
      ((i.coarsest q p fuel).exponent = p ∨
        i.gridPoint? q ((i.coarsest q p fuel).exponent + 1) = none) := by
  induction fuel generalizing p k with
  | zero => omega
  | succ fuel ih =>
    rw [coarsest]
    split
    · next here => exact ⟨here, by simp, .inl rfl⟩
    · next missing =>
      cases k with
      | zero =>
        rw [Nat.cast_zero, sub_zero, missing] at found
        cases found
      | succ k =>
        have later : p - 1 - k = p - (k + 1 : Nat) := by push_cast; ring
        obtain ⟨point, low, previous⟩ := ih (p := p - 1) (k := k) (by omega) (by rw [later, found])
        refine ⟨point, by omega, .inr ?_⟩
        rcases previous with first | previous
        · rw [first, sub_add_cancel, missing]
        · exact previous

theorem Interval.ofSignificand_inside {f : Format} {m : Nat} (some : 0 < m) (q : Int) :
    (ofSignificand f m q).low < (ofSignificand f m q).value ∧
      (ofSignificand f m q).value < (ofSignificand f m q).high := by
  unfold ofSignificand
  simp only
  split_ifs <;> omega

/-- A finite number with one unit more is no greater than the power of two behind all of them. -/
theorem add_one_mul_le {m : Nat} {q : Int} (hm : double.Canonical m q)
    (inside : double.pattern m q < double.infinity) : ((m : ℚ) + 1) * 2 ^ q ≤ 2 ^ 1024 := by
  obtain ⟨r, top, place, value⟩ := infinity_eq_pattern (f := double) (by decide)
  have le := hm.add_mul_le top (k := 1) (by omega)
  rw [value, Nat.cast_succ] at le
  exact le

theorem two_pow_1024_le : (2 : ℚ) ^ 1024 ≤ 341 ^ 8 * 10 ^ 288 := by
  have root : (2 : ℚ) ^ 128 ≤ 341 * 10 ^ 36 := by norm_num
  calc (2 : ℚ) ^ 1024 = (2 ^ 128) ^ 8 := by rw [← pow_mul]
    _ ≤ (341 * 10 ^ 36) ^ 8 := pow_le_pow_left₀ (by positivity) root 8
    _ = 341 ^ 8 * 10 ^ 288 := by rw [mul_pow, ← pow_mul]

theorem two_pow_1024_lt : (2 : ℚ) ^ 1024 < 10 ^ (309 : Int) := by
  rw [zpow_ofNat]
  calc (2 : ℚ) ^ 1024 ≤ 341 ^ 8 * 10 ^ 288 := two_pow_1024_le
    _ < 10 ^ 21 * 10 ^ 288 := mul_lt_mul_of_pos_right (by norm_num) (by positivity)
    _ = 10 ^ 309 := by rw [← pow_add]

theorem le_quarter_of_least : (10 : ℚ) ^ (-324 : Int) ≤ 2 ^ (-1076 : Int) := by
  rw [zpow_neg, zpow_neg, zpow_ofNat, zpow_ofNat]
  apply inv_anti₀ (by positivity)
  calc (2 : ℚ) ^ 1076 = 2 ^ 1024 * 2 ^ 52 := by rw [← pow_add]
    _ ≤ 341 ^ 8 * 10 ^ 288 * 2 ^ 52 := mul_le_mul_of_nonneg_right two_pow_1024_le (by positivity)
    _ = 341 ^ 8 * 2 ^ 52 * 10 ^ 288 := mul_right_comm _ _ _
    _ ≤ 10 ^ 36 * 10 ^ 288 := mul_le_mul_of_nonneg_right (by norm_num) (by positivity)
    _ = 10 ^ 324 := by rw [← pow_add]

/-- The shortest decimal rounds to the number, and it is neither long nor far from one. -/
theorem shortest_spec {m : Nat} {q : Int} (hm : double.Canonical m q) (some : 0 < m)
    (inside : double.pattern m q < double.infinity) :
    (Interval.ofSignificand double m q).Holds q
        ((shortest double m q).digits * 10 ^ (shortest double m q).exponent) ∧
      -324 ≤ (shortest double m q).exponent ∧ (shortest double m q).exponent ≤ 308 ∧
      (shortest double m q).digits < 2 ^ 59 := by
  have positive := shortest_pos double some q
  obtain ⟨low, high⟩ := Interval.ofSignificand_inside (f := double) some q
  have finest : (10 : ℚ) ^ (-324 : Int) ≤ 2 ^ (q - 2) := by
    have least : -1074 ≤ q := hm.least_le
    calc (10 : ℚ) ^ (-324 : Int) ≤ 2 ^ (-1076 : Int) := le_quarter_of_least
      _ ≤ 2 ^ (q - 2) := zpow_le_zpow_right₀ one_le_two (by omega)
  obtain ⟨b, found⟩ := Interval.exists_gridPoint? low high (p := -324) finest
  obtain ⟨point, least, previous⟩ :=
    Interval.coarsest_spec (p := 310) (k := 634) (by decide : 634 < 700) found
  rw [← shortest] at point least previous
  generalize shortest double m q = d at point least previous positive ⊢
  have held := Interval.gridPoint?_holds point
  have top := held.le.2
  have ends : ((Interval.ofSignificand double m q).high : ℚ) = 4 * m + 2 := by
    simp [Interval.ofSignificand]
  have unit : (0 : ℚ) < 10 ^ d.exponent := by positivity
  have quarter : (0 : ℚ) < 2 ^ (q - 2) := by positivity
  rw [ends] at top
  have greatest : d.exponent ≤ 308 := by
    have bound := add_one_mul_le hm inside
    rw [zpow_eq_four_mul] at bound
    have one : (1 : ℚ) ≤ d.digits := by exact_mod_cast positive
    have first := mul_le_mul_of_nonneg_right one unit.le
    have less : (10 : ℚ) ^ d.exponent < 10 ^ (309 : Int) := by
      calc (10 : ℚ) ^ d.exponent ≤ (m + 1) * (4 * 2 ^ (q - 2)) := by linarith
        _ ≤ 2 ^ 1024 := bound
        _ < 10 ^ (309 : Int) := two_pow_1024_lt
    have := (zpow_lt_zpow_iff_right₀ (by norm_num)).mp less
    omega
  refine ⟨held, by omega, greatest, ?_⟩
  have missing := previous.resolve_left (by omega)
  have coarse : (2 : ℚ) ^ (q - 2) < 10 ^ (d.exponent + 1) := by
    by_contra fine
    obtain ⟨k, found⟩ := Interval.exists_gridPoint? low high (not_lt.mp fine)
    rw [missing] at found
    cases found
  rw [zpow_add_one₀ (by norm_num)] at coarse
  have few : (m : ℚ) < 2 ^ 53 := by exact_mod_cast hm.lt
  have less : (d.digits : ℚ) * 10 ^ d.exponent < 2 ^ 59 * 10 ^ d.exponent := by
    calc (d.digits : ℚ) * 10 ^ d.exponent ≤ (4 * m + 2) * 2 ^ (q - 2) := top
      _ < (4 * m + 2) * (10 ^ d.exponent * 10) := by gcongr
      _ = (40 * m + 20) * 10 ^ d.exponent := by ring
      _ ≤ 2 ^ 59 * 10 ^ d.exponent := by
        gcongr
        linarith
  exact_mod_cast lt_of_mul_lt_mul_right less unit.le

/-! ## Numerals -/

namespace Numeral

/-- The integer that the digits spell, without the point. -/
def significand (n : Numeral) : Nat := natOfDigits (n.whole ++ n.fraction)

/-- The integer that the exponent spells. -/
def exponentValue (n : Numeral) : Int :=
  match n.exponent with
  | none => 0
  | some e => if e.sign = .minus then -(natOfDigits e.digits : Int) else natOfDigits e.digits

/-- The exponent of the last digit. -/
def scale (n : Numeral) : Int := n.exponentValue - n.fraction.length

def magnitude (n : Numeral) : ℚ := n.significand * 10 ^ n.scale

/-- The number that a numeral spells. -/
def value (n : Numeral) : ℚ := if n.negative then -n.magnitude else n.magnitude

/-- A numeral with few digits, the last of them not far from the point. -/
structure Short (n : Numeral) : Prop where
  significand_lt : n.significand < 2 ^ 59
  exponentValue_lt : n.exponentValue.natAbs < 2 ^ 31
  le_scale : -324 ≤ n.scale
  scale_le : n.scale ≤ 308

theorem natOfDigits_append_zeros (ds : List Char) (k : Nat) :
    natOfDigits (ds ++ zeros k) = natOfDigits ds * 10 ^ k := by
  induction k with
  | zero => simp [zeros]
  | succ k ih =>
    rw [zeros, List.replicate_succ', ← List.append_assoc, natOfDigits, List.foldl_append,
      ← natOfDigits, ← zeros, ih, pow_succ]
    simp only [List.foldl_cons, List.foldl_nil]
    rw [show digitValue '0' = 0 from rfl]
    ring

theorem natOfDigits_zeros_append (k : Nat) (ds : List Char) :
    natOfDigits (zeros k ++ ds) = natOfDigits ds := by
  induction k with
  | zero => rfl
  | succ k ih =>
    rw [← ih]
    rfl

end Numeral

open Numeral

/-- However a decimal is laid out, the numeral spells it, if need be with more zeros. -/
theorem Layout.numeral_spec (l : Layout) (s : Bool) (d : Decimal) :
    (l.numeral s d).negative = s ∧
      ((l.numeral s d).exponentValue = 0 ∨
        (l.numeral s d).exponentValue = (digits d.digits).length - 1 + d.exponent) ∧ ∃ j : Nat,
      (l.numeral s d).significand = d.digits * 10 ^ j ∧ (l.numeral s d).scale = d.exponent - j ∧
      (j ≠ 0 → d.exponent - j = -1 ∧ d.digits * 10 ^ j < 10 ^ (l.greatestFixed + 2).toNat) := by
  have spelled := natOfDigits_digits d.digits
  have length := List.length_pos_of_ne_nil (digits_ne_nil d.digits)
  unfold numeral
  simp only
  split
  · next fixed =>
    split
    · next whole =>
      refine ⟨rfl, .inl rfl, d.exponent.toNat + 1, ?_, ?_, fun _ => ⟨by omega, ?_⟩⟩
      · rw [significand, List.append_assoc]
        simp only
        rw [show zeros d.exponent.toNat ++ ['0'] = zeros (d.exponent.toNat + 1) from
          List.replicate_succ'.symm, natOfDigits_append_zeros, spelled]
      · simp only [scale, exponentValue, List.length_singleton]
        omega
      · have few : d.digits < 10 ^ (digits d.digits).length :=
          (Nat.length_toDigits_le_iff (by decide) length).mp le_rfl
        calc d.digits * 10 ^ (d.exponent.toNat + 1)
            < 10 ^ (digits d.digits).length * 10 ^ (d.exponent.toNat + 1) := by gcongr
          _ = 10 ^ ((digits d.digits).length + (d.exponent.toNat + 1)) := (pow_add ..).symm
          _ ≤ 10 ^ (l.greatestFixed + 2).toNat := Nat.pow_le_pow_right (by decide) (by omega)
    · next fractional =>
      split
      · refine ⟨rfl, .inl rfl, 0, ?_, ?_, fun h => absurd rfl h⟩
        · rw [significand]
          simp only
          rw [List.take_append_drop, spelled, pow_zero, Nat.mul_one]
        · simp only [scale, exponentValue, List.length_drop]
          omega
      · refine ⟨rfl, .inl rfl, 0, ?_, ?_, fun h => absurd rfl h⟩
        · rw [significand]
          simp only
          rw [← List.append_assoc, show ['0'] ++ zeros _ = zeros (_ + 1) from rfl,
            natOfDigits_zeros_append, spelled, pow_zero, Nat.mul_one]
        · simp only [scale, exponentValue, List.length_append, zeros, List.length_replicate]
          omega
  · have sign (e : Int) : (if e < 0 then ExponentSign.minus
        else if l.plusSign = true then .plus else .none) = .minus ↔ e < 0 := by
      split_ifs <;> simp_all
    refine ⟨rfl, .inr ?_, 0, ?_, ?_, fun h => absurd rfl h⟩
    · simp only [exponentValue, natOfDigits_zeros_append, natOfDigits_digits, sign]
      split <;> omega
    · rw [significand]
      simp only
      rw [List.take_append_drop, spelled, pow_zero, Nat.mul_one]
    · simp only [scale, exponentValue, natOfDigits_zeros_append, natOfDigits_digits,
        List.length_drop, sign]
      split <;> omega

theorem Layout.magnitude_numeral (l : Layout) (s : Bool) (d : Decimal) :
    (l.numeral s d).magnitude = d.digits * 10 ^ d.exponent := by
  obtain ⟨-, -, j, digits, last, -⟩ := l.numeral_spec s d
  rw [magnitude, digits, last, zpow_sub₀ (by norm_num), zpow_natCast]
  push_cast
  field_simp

theorem Layout.short_numeral {l : Layout} (fixed : l.greatestFixed ≤ 15) {s : Bool} {d : Decimal}
    (few : d.digits < 2 ^ 59) (least : -324 ≤ d.exponent) (greatest : d.exponent ≤ 308) :
    (l.numeral s d).Short := by
  obtain ⟨-, exponent, j, digits, last, long⟩ := l.numeral_spec s d
  have length : (Numeral.digits d.digits).length ≤ 18 :=
    (Nat.length_toDigits_le_iff (by decide) (by decide)).mpr (few.trans (by decide))
  have near : (l.numeral s d).exponentValue.natAbs < 2 ^ 31 := by omega
  rcases Nat.eq_zero_or_pos j with rfl | more
  · exact ⟨by rw [digits, pow_zero, Nat.mul_one]; exact few, near, by omega, by omega⟩
  · obtain ⟨place, less⟩ := long more.ne'
    refine ⟨?_, near, by omega, by omega⟩
    calc (l.numeral s d).significand = d.digits * 10 ^ j := digits
      _ < 10 ^ (l.greatestFixed + 2).toNat := less
      _ ≤ 10 ^ 17 := Nat.pow_le_pow_right (by decide) (by omega)
      _ < 2 ^ 59 := by decide

/-- A finite number is written as a short numeral to which no number is nearer. -/
theorem Layout.numeral?_spec {l : Layout} (fixed : l.greatestFixed ≤ 15) {x : Binary64} {s : Bool}
    {m : Nat} {q : Int} (read : x.read = .finite s m q) :
    ∃ n, l.numeral? x = some n ∧ n.negative = s ∧ n.Short ∧ (n.significand = 0 ↔ m = 0) ∧
      ∀ k p, double.Canonical k p →
        |(m : ℚ) * 2 ^ q - n.magnitude| ≤ |(k : ℚ) * 2 ^ p - n.magnitude| ∧
        (|(m : ℚ) * 2 ^ q - n.magnitude| = |(k : ℚ) * 2 ^ p - n.magnitude| →
          (k : ℚ) * 2 ^ p = m * 2 ^ q ∨ m % 2 = 0) := by
  obtain ⟨canonical, -, inside, -⟩ := canonical_of_read read
  rw [numeral?, read]
  simp only
  rcases Nat.eq_zero_or_pos m with rfl | some
  · rw [if_pos rfl]
    have digits : significand ⟨s, ['0'], ['0'], none⟩ = 0 := rfl
    have last : scale ⟨s, ['0'], ['0'], none⟩ = -1 := rfl
    have exponent : exponentValue ⟨s, ['0'], ['0'], none⟩ = 0 := rfl
    refine ⟨_, rfl, rfl, ⟨by omega, by omega, by omega, by omega⟩, by simp [digits],
      fun k p _ => ?_⟩
    rw [magnitude, digits, Nat.cast_zero, zero_mul, zero_mul, sub_zero, abs_zero]
    exact ⟨abs_nonneg _, fun _ => .inr rfl⟩
  · rw [if_neg some.ne']
    obtain ⟨held, least, greatest, few⟩ := shortest_spec canonical some inside
    have positive := shortest_pos double some q
    obtain ⟨negative, -, j, digits, -⟩ := l.numeral_spec s (shortest double m q)
    refine ⟨_, rfl, negative, short_numeral fixed few least greatest, ?_, ?_⟩
    · rw [digits]
      simp [positive.ne', some.ne']
    · rw [l.magnitude_numeral]
      exact held.near canonical

/-- A finite number is the nearest one to the numeral that is written. -/
theorem Layout.numeral?_rounds {l : Layout} (fixed : l.greatestFixed ≤ 15) {x : Binary64}
    (finite : x.isFinite = true) :
    ∃ n, l.numeral? x = some n ∧ n.negative = x.read.negative ∧
      x.Rounds x.read.negative n.value := by
  obtain ⟨s, m, q, read⟩ := Binary64.exists_read finite
  obtain ⟨n, written, negative, -, -, near⟩ := numeral?_spec fixed read
  have positive : 0 ≤ n.magnitude := by
    rw [magnitude]
    positivity
  unfold Binary64.Rounds
  rw [read]
  refine ⟨n, written, negative, ?_, rfl⟩
  rw [value, negative]
  exact isNearest_of_near positive near

end Binary

end RecordRows
