import RecordRows.Binary.Number
import RecordRows.Proofs.Binary.Canonical

/-!
Widening single precision to double precision and narrowing it again. What a format writes it reads
back (`write_read`), a wider format holds every number of a narrower one (`exists_wider`), and so the
way there and back keeps every number and makes one NaN of all (`narrow_widen`). No operation of the
library makes another NaN (`quiet_narrow`, `quiet_ofInt`).
-/
namespace RecordRows

namespace Binary.Format

variable {f g : Format}

/-! ## Reading back what is written -/

/-- A pattern that is not that of a NaN is written as it was read. -/
theorem write_read {bits : Nat} (hb : bits < 2 * f.signBit) (hn : f.read bits ≠ .nan) :
    f.write (f.read bits) = bits := by
  have hs : (if bits / f.signBit % 2 == 1 then f.signBit else 0) + bits % f.signBit = bits := by
    have hdiv : bits / f.signBit < 2 := Nat.div_lt_of_lt_mul (by rwa [Nat.mul_comm])
    have hmod := Nat.div_add_mod bits f.signBit
    obtain h | h : bits / f.signBit = 0 ∨ bits / f.signBit = 1 := by
      generalize bits / f.signBit = k at hdiv
      omega
    · simp only [h] at hmod ⊢
      simpa using hmod
    · simp only [h] at hmod ⊢
      simpa using hmod
  cases hr : f.read bits with
  | nan => exact absurd hr hn
  | infinite s =>
    have hmag : bits % f.signBit = f.infinity ∧ s = (bits / f.signBit % 2 == 1) := by
      simp only [read] at hr
      split at hr
      · rename_i htop
        split at hr
        · rename_i hfraction
          injection hr with hr
          have := Nat.div_add_mod (bits % f.signBit) (twoTo f.fractionBits)
          rw [htop, hfraction, Nat.mul_comm] at this
          exact ⟨this.symm, hr.symm⟩
        · cases hr
      · split at hr <;> cases hr
    rw [write, hmag.2, ← hmag.1]
    exact hs
  | finite s m q =>
    obtain ⟨hc, hpattern, hinf, hsign⟩ := canonical_of_read hr
    rw [hc.write_eq hinf s rfl, hpattern, hsign]
    exact hs

theorem read_write_infinite (s : Bool) : f.read (f.write (.infinite s)) = .infinite s := by
  have hsign := f.infinity_lt_signBit
  have hF := twoTo_pos f.fractionBits
  have htop : f.infinity / twoTo f.fractionBits = f.topExponent := Nat.mul_div_cancel _ hF
  have hfraction : f.infinity % twoTo f.fractionBits = 0 := Nat.mul_mod_left ..
  simp only [read, write, signed_mod hsign, signed_negative hsign, htop, hfraction, if_true]

/-! ## Into a wider format -/

/-- Every finite number of a format is one of each format with as many digits and exponents. -/
theorem Canonical.exists_wider (hF : f.fractionBits ≤ g.fractionBits)
    (hE : f.exponentBits ≤ g.exponentBits) (he : 0 < f.exponentBits) {m : Nat} {q : Int}
    (h : f.Canonical m q) (hinf : f.pattern m q < f.infinity) :
    ∃ n r, g.Canonical n r ∧ g.pattern n r < g.infinity ∧ (n : ℚ) * 2 ^ r = m * 2 ^ q := by
  have hpow : twoTo (f.exponentBits - 1) ≤ twoTo (g.exponentBits - 1) :=
    Nat.pow_le_pow_right two_pos (by omega)
  have hbound : (m : ℚ) * 2 ^ q < 2 ^ twoTo (g.exponentBits - 1) :=
    ((h.pattern_lt_infinity_iff he).mp hinf).trans_le (pow_le_pow_right₀ one_le_two hpow)
  rcases Nat.eq_zero_or_pos m with rfl | hm
  · have hc : g.Canonical 0 g.leastExponent :=
      ⟨by have := twoTo_pos g.fractionBits; omega, le_rfl, .inl rfl⟩
    refine ⟨0, g.leastExponent, hc, ?_, by simp⟩
    rw [hc.pattern_lt_infinity_iff (by omega)]
    simp
  · have hv : (0 : ℚ) < m * 2 ^ q := by positivity
    have hleast : g.leastExponent ≤ f.leastExponent := by simp only [leastExponent]; omega
    have hunit : g.unit (m * 2 ^ q) ≤ q := by
      have hlog : m.log2 < f.fractionBits + 1 := by
        rw [Nat.log2_lt hm.ne', pow_succ']
        exact h.lt
      have := h.least_le
      rw [unit, log_mul_zpow hm]
      omega
    have hn : (m : ℚ) * 2 ^ q
        = (m * 2 ^ (q - g.unit (m * 2 ^ q)).toNat : Nat) * 2 ^ g.unit (m * 2 ^ q) := by
      rw [Nat.cast_mul, Nat.cast_pow, Nat.cast_ofNat, mul_assoc, ← zpow_natCast,
        ← zpow_add₀ two_ne_zero, Int.toNat_of_nonneg (by omega), sub_add_cancel]
    have hc := canonical_unit hv hn
    refine ⟨_, _, hc, ?_, hn.symm⟩
    rw [hc.pattern_lt_infinity_iff (by omega), ← hn]
    exact hbound

/-! ## Writing stays in range -/

theorem roundMagnitude_le (num den : Nat) : f.roundMagnitude num den ≤ f.infinity := by
  simp only [roundMagnitude]
  split
  · exact Nat.zero_le _
  · exact Nat.min_le_left ..

theorem write_lt (f : Format) (r : Reading) : f.write r < 2 * f.signBit := by
  have hinf := f.infinity_lt_signBit
  cases r with
  | nan =>
    have hquiet : twoTo (f.fractionBits - 1) ≤ f.signBit :=
      Nat.pow_le_pow_right two_pos (by omega)
    simp only [write]
    omega
  | infinite s => cases s <;> simp [write] <;> omega
  | finite s m q =>
    have := roundMagnitude_le (f := f) (m * twoTo q.toNat) (twoTo (-q).toNat)
    cases s <;> simp [write, round] <;> omega

/-- Neither rounding nor an infinity makes a NaN. -/
theorem read_signed_ne_nan (f : Format) {a : Nat} (ha : a ≤ f.infinity) (s : Bool) :
    f.read ((if s then f.signBit else 0) + a) ≠ .nan := by
  have hF := twoTo_pos f.fractionBits
  have hsign := ha.trans_lt f.infinity_lt_signBit
  simp only [read, signed_mod hsign, signed_negative hsign]
  split
  · rename_i htop
    have hfraction : a % twoTo f.fractionBits = 0 := by
      have := Nat.div_add_mod a (twoTo f.fractionBits)
      rw [htop, Nat.mul_comm] at this
      simp only [infinity] at ha
      omega
    simp [hfraction]
  · split <;> simp

end Binary.Format

open Binary Format

theorem Binary64.read_ofReading (r : Reading) :
    (Binary64.ofReading r).read = double.read (double.write r) := by
  have h : double.write r < 2 ^ 64 := double.write_lt r
  rw [Binary64.read, Binary64.ofReading, Binary64.ofPattern, UInt64.toNat_ofNat_of_lt' h]

namespace Binary32

theorem ofReading_read {x : Binary32} (h : x.isNaN = false) : ofReading x.read = x := by
  have hb : x.bits.toNat < 2 * single.signBit := x.bits.toNat_lt
  have hn : single.read x.bits.toNat ≠ .nan := by
    simpa [isNaN, read] using h
  rw [ofReading, read, write_read hb hn, ofPattern, UInt32.ofNat_toNat]

theorem read_widen_nan {x : Binary32} (h : x.read = .nan) : x.widen.read = .nan := by
  rw [widen, h]
  decide

theorem read_widen_infinite {x : Binary32} {s : Bool} (h : x.read = .infinite s) :
    x.widen.read = .infinite s := by
  rw [widen, h, Binary64.read_ofReading, read_write_infinite]

/-- Widening keeps the value of a finite number. -/
theorem read_widen_finite {x : Binary32} {s : Bool} {m : Nat} {q : Int}
    (h : x.read = .finite s m q) :
    ∃ n r, x.widen.read = .finite s n r ∧ (n : ℚ) * 2 ^ r = m * 2 ^ q := by
  obtain ⟨hc, -, hinf, -⟩ := canonical_of_read h
  obtain ⟨n, r, hcw, hinfw, hv⟩ :=
    hc.exists_wider (g := double) (by decide) (by decide) (by decide) hinf
  refine ⟨n, r, ?_, hv⟩
  rw [widen, h, Binary64.read_ofReading, hcw.write_eq hinfw s hv.symm, read_pattern hcw hinfw s]

theorem isFinite_widen (x : Binary32) : x.widen.isFinite = x.read.isFinite := by
  cases h : x.read with
  | nan => rw [Binary64.isFinite, read_widen_nan h]
  | infinite s => rw [Binary64.isFinite, read_widen_infinite h]
  | finite s m q =>
    obtain ⟨n, r, hr, -⟩ := read_widen_finite h
    rw [Binary64.isFinite, hr]
    rfl

/-- Widening a number and narrowing it again loses nothing but the payload of a NaN. -/
theorem narrow_widen (x : Binary32) : narrow x.widen = ofReading x.read := by
  cases h : x.read with
  | nan => rw [narrow, read_widen_nan h]
  | infinite s => rw [narrow, read_widen_infinite h]
  | finite s m q =>
    obtain ⟨hc, -, hinf, -⟩ := canonical_of_read h
    obtain ⟨n, r, hr, hv⟩ := read_widen_finite h
    rw [narrow, hr, ofReading, ofReading, hc.write_eq hinf s hv, hc.write_eq hinf s rfl]

end Binary32

/-! ## NaNs -/

/-- All NaNs count as one number. -/
def Binary32.Alike (x y : Binary32) : Prop := x = y ∨ x.isNaN = true ∧ y.isNaN = true

def Binary64.Alike (x y : Binary64) : Prop := x = y ∨ x.isNaN = true ∧ y.isNaN = true

/-- The same number; of a NaN, the one without payload. -/
def Binary32.quiet (x : Binary32) : Binary32 := .ofReading x.read

namespace Binary32

theorem quiet_alike (x : Binary32) : x.quiet.Alike x := by
  cases h : x.isNaN with
  | false => exact .inl (ofReading_read h)
  | true =>
    refine .inr ⟨?_, h⟩
    have hr : x.read = .nan := by simpa [isNaN] using h
    rw [quiet, hr]
    decide

theorem read_ofPattern_signed {a : Nat} (ha : a ≤ single.infinity) (s : Bool) :
    (ofPattern ((if s then single.signBit else 0) + a)).read
      = single.read ((if s then single.signBit else 0) + a) := by
  have h : (if s then single.signBit else 0) + a < 2 ^ 32 := by
    have hbound : single.infinity < 2 ^ 31 := by decide
    have hsign : single.signBit = 2 ^ 31 := by decide
    cases s <;> simp <;> omega
  rw [read, ofPattern, UInt32.toNat_ofNat_of_lt' h]

theorem quiet_ofPattern_signed {a : Nat} (ha : a ≤ single.infinity) (s : Bool) :
    (ofPattern ((if s then single.signBit else 0) + a)).quiet
      = ofPattern ((if s then single.signBit else 0) + a) := by
  apply ofReading_read
  have := read_signed_ne_nan single ha s
  rw [← read_ofPattern_signed ha] at this
  simpa [isNaN] using this

theorem quiet_ofInt (n : Int) : (ofInt n).quiet = ofInt n :=
  quiet_ofPattern_signed (roundMagnitude_le ..) _

theorem quiet_narrow (x : Binary64) : (narrow x).quiet = narrow x := by
  rw [narrow]
  cases x.read with
  | nan => decide
  | infinite s => exact quiet_ofPattern_signed le_rfl s
  | finite s m q => exact quiet_ofPattern_signed (roundMagnitude_le ..) s

/-- The check on the range never refuses a widened number. -/
theorem narrow_widen_isFinite (x : Binary32) :
    (x.widen.isFinite && (narrow x.widen).isInfinite) = false := by
  rw [isFinite_widen, narrow_widen]
  cases h : x.read with
  | nan => rfl
  | infinite s => rfl
  | finite s m q =>
    have hn : x.isNaN = false := by simp [isNaN, h]
    rw [← h, ofReading_read hn]
    simp [isInfinite, h]

end Binary32

end RecordRows
