import RecordRows.Proofs.Binary.SmallScaling

/-!
What becomes of a number that is written and read again. Its numeral is always read, as a number
that is at most two places away (`Layout.exists_reread`). Only behind the two greatest numbers there
is no room for this argument, but it is known what is written for them.
-/
namespace RecordRows

open Binary Format

/-! ## The greatest numbers -/

namespace Binary

/-- The two greatest numbers, for which there is no room behind. -/
theorem Format.Canonical.eq_of_last {m : Nat} {q : Int} (h : double.Canonical m q)
    (inside : double.pattern m q < double.infinity)
    (last : double.infinity ≤ double.pattern m q + 2) :
    q = 971 ∧ (m = 9007199254740991 ∨ m = 9007199254740990) := by
  have few : m < 2 * 2 ^ 52 := h.lt
  have least : -1074 ≤ q := h.least_le
  have full : q = -1074 ∨ 2 ^ 52 ≤ m := h.full
  have top : double.infinity = 2047 * 2 ^ 52 := by decide
  have place : double.pattern m q = (q + 1074).toNat * 2 ^ 52 + m := rfl
  omega

/-- The decimals of the two greatest numbers, and that they are scaled. -/
theorem shortest_last : (shortest double 9007199254740991 971 = ⟨17976931348623157, 292⟩ ∧
      (Numeral.scale? 17976931348623157 292).isSome = true) ∧
    shortest double 9007199254740990 971 = ⟨17976931348623155, 292⟩ ∧
      (Numeral.scale? 17976931348623155 292).isSome = true := by
  decide +kernel

/-- The two greatest numbers are read from what is written for them, if no digits are added. -/
theorem Layout.toBinary64?_numeral_last {l : Layout} (fixed : l.greatestFixed ≤ 15) (s : Bool)
    {m : Nat} (last : m = 9007199254740991 ∨ m = 9007199254740990)
    (up : 0 ≤ (l.numeral s (shortest double m 971)).scale) :
    ((l.numeral s (shortest double m 971)).toBinary64?).isSome = true := by
  have readable : (Numeral.scale? (shortest double m 971).digits 292).isSome = true ∧
      (shortest double m 971).digits < 2 ^ 59 ∧ (shortest double m 971).exponent = 292 := by
    obtain ⟨⟨first, scaled⟩, second, scaled'⟩ := shortest_last
    rcases last with rfl | rfl
    · rw [first]
      exact ⟨scaled, by decide, rfl⟩
    · rw [second]
      exact ⟨scaled', by decide, rfl⟩
  generalize shortest double m 971 = d at *
  obtain ⟨isSome, few, exponent⟩ := readable
  have short : (l.numeral s d).Short := short_numeral fixed few (by omega) (by omega)
  obtain ⟨-, -, j, digits, place, long⟩ := l.numeral_spec s d
  have plain : j = 0 := by
    by_contra more
    have := (long more).1
    omega
  rw [plain, pow_zero, Nat.mul_one] at digits
  rw [plain, exponent] at place
  rw [Numeral.toBinary64?_eq (short.significand_lt.trans (by decide)) short.exponentValue_lt,
    digits, place, Option.isSome_map]
  exact isSome

/-- Zero is nearest to itself. -/
theorem Format.Nearest.pattern_eq_zero {f : Format} {m : Nat} {q : Int} (h : f.Nearest 0 m q) :
    f.pattern m q = 0 := by
  have zero : f.Canonical 0 f.leastExponent :=
    ⟨by have := twoTo_pos f.fractionBits; omega, le_rfl, .inl rfl⟩
  have le := h.le_of_le' zero (by rw [Nat.cast_zero, zero_mul])
  rw [← not_lt, ← zero.pattern_lt_iff h.canonical, zero.pattern_eq_zero_iff.mpr rfl] at le
  omega

/-- What is written for a finite number is read as a number that is at most two places away. -/
theorem Layout.exists_reread {l : Layout} (fixed : l.greatestFixed ≤ 15) {x : Binary64} {s : Bool}
    {m : Nat} {q : Int} (read : x.read = .finite s m q) :
    ∃ n z y k p, l.numeral? x = some n ∧ n.negative = s ∧ Scaled n.significand n.scale z ∧
      0 ≤ z ∧ z < double.limit ∧ n.toBinary64? = some y ∧ y.Rounds s (if s then -z else z) ∧
      y.read = .finite s k p ∧ double.pattern k p ≤ double.pattern m q + 2 ∧
      double.pattern m q ≤ double.pattern k p + 2 := by
  obtain ⟨canonical, -, inside, -⟩ := canonical_of_read read
  obtain ⟨n, written, rfl, short, zero, near⟩ := numeral?_spec fixed read
  obtain ⟨z, scaled, positive, below, finite, infinite⟩ := Numeral.toBinary64?_spec short
  have close (some : 0 < n.significand) := scaled.two_mul_lt some
    (short.significand_lt.trans (by decide)) short.le_scale short.scale_le
  have nearest : double.Nearest (n.significand * 10 ^ n.scale) m q :=
    ⟨canonical, inside, fun k p hk => (near k p hk).1⟩
  have less : z < double.limit := by
    by_contra beyond
    rw [not_lt] at beyond
    have up : 0 ≤ n.scale := by
      by_contra down
      exact absurd (below (not_le.mp down)) (not_lt.mpr beyond)
    have some : 0 < n.significand := by
      rcases Nat.eq_zero_or_pos n.significand with none | some
      · rw [none] at scaled
        rw [scaled.eq_zero] at beyond
        exact absurd double.limit_pos (not_lt.mpr beyond)
      · exact some
    rcases Nat.lt_or_ge (double.pattern m q + 2) double.infinity with room | last
    · have less := ((close some).1 m q nearest)
      exact absurd (Nearest.lt_limit (by decide) canonical room less) (not_lt.mpr beyond)
    · -- there is no room behind the two greatest numbers, but their numerals are known
      obtain ⟨rfl, greatest⟩ := canonical.eq_of_last inside last
      have same : n = l.numeral n.negative (shortest double m 971) := by
        rw [numeral?, read] at written
        simp only [if_neg (show m ≠ 0 by omega), Option.some_inj] at written
        exact written.symm
      rw [same] at up
      have readable := toBinary64?_numeral_last fixed n.negative greatest up
      rw [← same, infinite beyond] at readable
      cases readable
  obtain ⟨y, found, rounds⟩ := finite less
  obtain ⟨k, p, read', nearest'⟩ := rounds.nearest positive less
  refine ⟨n, z, y, k, p, written, rfl, scaled, positive, less, found, rounds, read', ?_⟩
  rcases Nat.eq_zero_or_pos n.significand with none | some
  · rw [none] at scaled
    rw [scaled.eq_zero] at nearest'
    rw [nearest'.pattern_eq_zero, canonical.pattern_eq_zero_iff.mpr (zero.mp none)]
    exact ⟨Nat.zero_le _, Nat.zero_le _⟩
  · exact ⟨nearest'.pattern_le canonical ((close some).1 m q nearest),
      nearest.pattern_le nearest'.canonical ((close some).2 k p nearest')⟩

/-- `v` is what scaling leaves of a numeral, with its sign. -/
def Numeral.Leaves (n : Numeral) (v : ℚ) : Prop :=
  ∃ z, Scaled n.significand n.scale z ∧ v = if n.negative then -z else z

theorem Numeral.Leaves.unique {n : Numeral} {v w : ℚ} (hv : n.Leaves v) (hw : n.Leaves w) :
    v = w := by
  obtain ⟨z, scaled, rfl⟩ := hv
  obtain ⟨z', scaled', rfl⟩ := hw
  rw [scaled.unique scaled']

/-- Of a numeral with small digits and a small power scaling leaves what is spelled. -/
theorem Numeral.Leaves.eq_value {n : Numeral} {v : ℚ} (h : n.Leaves v)
    (digits : n.significand ≤ 2 ^ 53) (power : n.scale.natAbs ≤ 22) : v = n.value := by
  obtain ⟨z, scaled, rfl⟩ := h
  have same : z = n.magnitude := by
    rw [Numeral.magnitude]
    rcases Nat.eq_zero_or_pos n.significand with none | some
    · rw [none] at scaled ⊢
      rw [scaled.eq_zero, Nat.cast_zero, zero_mul]
    · exact scaled.eq_of_small some digits power
  rw [same, Numeral.value]

end Binary

theorem Binary64.bits_eq {x : Binary64} {s : Bool} {m : Nat} {q : Int}
    (read : x.read = .finite s m q) :
    x.bits.toNat = (if s then double.signBit else 0) + double.pattern m q := by
  obtain ⟨canonical, -, inside, -⟩ := canonical_of_read read
  have bound : x.bits.toNat < 2 * double.signBit := x.bits.toNat_lt
  have number : double.read x.bits.toNat = .finite s m q := read
  have written := write_read bound (by rw [number]; simp)
  rw [number, canonical.write_eq inside s rfl] at written
  exact written.symm

end RecordRows
