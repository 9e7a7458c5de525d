import RecordRows.Proofs.Binary.Overflow
import RecordRows.Proofs.Binary.Value

/-!
Rounding gives the nearest number, ties to even. Below the limit of a format a rounded quotient is
nearer to the quotient than any other number of the format, or as near and even
(`round_isNearest`). No second number is like that (`IsNearest.value_eq`), so the pattern is known
from it and the sign (`round_eq_iff`), and rounding keeps the order (`IsNearest.mono`).
-/
namespace RecordRows.Binary.Format

variable {f : Format}

/-! ## The nearest integer -/

/-- The nearest integer is at most half a unit away, and even if it is that far away. -/
theorem abs_nearest_sub {a b : Nat} (hb : 0 < b) :
    |(nearest a b : ℚ) - a / b| ≤ 1 / 2 ∧
      (|(nearest a b : ℚ) - a / b| = 1 / 2 → nearest a b % 2 = 0) := by
  have hb' : (0 : ℚ) < b := by exact_mod_cast hb
  have split : b * (a / b) + a % b = a := Nat.div_add_mod a b
  have rest : a % b < b := Nat.mod_lt a hb
  have quotient : (a : ℚ) / b = (a / b : Nat) + ((a % b : Nat) : ℚ) / b := by
    rw [div_eq_iff hb'.ne', add_mul, div_mul_cancel₀ _ hb'.ne']
    exact_mod_cast split.symm.trans (by rw [Nat.mul_comm])
  have below (h : 2 * (a % b) < b) : ((a % b : Nat) : ℚ) / b < 1 / 2 := by
    rw [div_lt_div_iff₀ hb' two_pos, one_mul, mul_comm]
    exact_mod_cast h
  have above (h : b < 2 * (a % b)) : 1 / 2 < ((a % b : Nat) : ℚ) / b := by
    rw [div_lt_div_iff₀ two_pos hb', one_mul, mul_comm]
    exact_mod_cast h
  have nonnegative : (0 : ℚ) ≤ ((a % b : Nat) : ℚ) / b := by positivity
  have less : ((a % b : Nat) : ℚ) / b < 1 := by
    rw [div_lt_one hb']
    exact_mod_cast rest
  rw [quotient]
  simp only [nearest]
  split
  · next near =>
    have := below near
    rw [sub_add_cancel_left, abs_neg, abs_of_nonneg nonnegative]
    exact ⟨this.le, fun h => absurd h this.ne⟩
  split
  · next far =>
    have := above far
    rw [Nat.cast_add_one, add_sub_add_left_eq_sub, abs_of_nonneg (by linarith)]
    exact ⟨by linarith, fun h => absurd h (by linarith)⟩
  · next other tie =>
    have half : ((a % b : Nat) : ℚ) / b = 1 / 2 := by
      rw [div_eq_div_iff hb'.ne' two_ne_zero, one_mul, mul_comm]
      exact_mod_cast (show 2 * (a % b) = b by omega)
    rw [half]
    rcases Nat.mod_two_eq_zero_or_one (a / b) with even | odd
    · rw [even, Nat.add_zero]
      norm_num
      exact even
    · rw [odd, Nat.cast_add_one]
      norm_num
      omega

/-- No integer is nearer, and one that is as near only if the nearest one is even. -/
theorem nearest_spec {a b : Nat} (hb : 0 < b) (k : Nat) :
    |(nearest a b : ℚ) - a / b| ≤ |(k : ℚ) - a / b| ∧
      (|(nearest a b : ℚ) - a / b| = |(k : ℚ) - a / b| → k = nearest a b ∨ nearest a b % 2 = 0) := by
  obtain ⟨half, even⟩ := abs_nearest_sub (a := a) hb
  by_cases same : k = nearest a b
  · rw [same]
    exact ⟨le_rfl, fun _ => .inl rfl⟩
  · have apart : (1 : ℚ) ≤ |(nearest a b : ℚ) - k| := by
      have distinct : (nearest a b : Int) - k ≠ 0 := by omega
      exact_mod_cast Int.one_le_abs distinct
    have triangle := abs_sub_le (nearest a b : ℚ) (a / b) k
    rw [abs_sub_comm (a / b : ℚ) k] at triangle
    exact ⟨by linarith, fun equal => .inr (even (by linarith))⟩

/-! ## Magnitudes -/

/-- Of the multiples of the unit the nearest one is nearer than every number of the format. -/
theorem nearest_unit_spec {r : ℚ} {q : Int} {a b : Nat} (hb : 0 < b) (hr : (a : ℚ) / b * 2 ^ q = r)
    (least : f.leastExponent ≤ q) (full : q = f.leastExponent ∨ twoTo f.fractionBits * 2 ^ q ≤ r)
    {n : Nat} {p : Int} (hn : f.Canonical n p) :
    |(nearest a b : ℚ) * 2 ^ q - r| ≤ |(n : ℚ) * 2 ^ p - r| ∧
      (|(nearest a b : ℚ) * 2 ^ q - r| = |(n : ℚ) * 2 ^ p - r| →
        (n : ℚ) * 2 ^ p = nearest a b * 2 ^ q ∨ nearest a b % 2 = 0) := by
  have unit : (0 : ℚ) < 2 ^ q := by positivity
  have distance (k : ℚ) : |k * 2 ^ q - r| = |k - a / b| * 2 ^ q := by
    rw [← hr, ← sub_mul, abs_mul, abs_of_pos unit]
  rcases le_or_gt q p with coarse | fine
  · -- a coarser number is a multiple of the unit
    have multiple : (n : ℚ) * 2 ^ p = (n * 2 ^ (p - q).toNat : Nat) * 2 ^ q := by
      rw [Nat.cast_mul, Nat.cast_pow, Nat.cast_ofNat, mul_assoc, ← zpow_natCast,
        ← zpow_add₀ two_ne_zero, Int.toNat_of_nonneg (by omega), sub_add_cancel]
    obtain ⟨le, tie⟩ := nearest_spec (a := a) hb (n * 2 ^ (p - q).toNat)
    rw [multiple, distance, distance]
    refine ⟨mul_le_mul_of_nonneg_right le unit.le, fun equal => ?_⟩
    exact (tie (mul_right_cancel₀ unit.ne' equal)).imp_left fun same => by rw [same]
  · -- a finer number lies below all numbers with this unit
    have reached : twoTo f.fractionBits * 2 ^ q ≤ r :=
      full.resolve_left (by have := hn.least_le; omega)
    have first : f.Canonical (twoTo f.fractionBits) q :=
      ⟨by have := twoTo_pos f.fractionBits; omega, least, .inr le_rfl⟩
    have less := (hn.lt_of_exponent_lt first fine).2
    have le := mul_le_mul_of_nonneg_right (nearest_spec (a := a) hb (twoTo f.fractionBits)).1 unit.le
    rw [← distance, ← distance, abs_of_nonpos (sub_nonpos.mpr reached)] at le
    rw [abs_of_nonpos (sub_nonpos.mpr (less.le.trans reached) : (n : ℚ) * 2 ^ p - r ≤ 0)]
    exact ⟨by linarith, fun equal => absurd equal (by linarith)⟩

/-- A significand that fills the format once more is carried into the exponent. -/
theorem exists_carried (hF : 0 < f.fractionBits) {m : Nat} {q : Int}
    (le : m ≤ 2 * twoTo f.fractionBits) (least : f.leastExponent ≤ q)
    (full : q = f.leastExponent ∨ twoTo f.fractionBits ≤ m) :
    ∃ n p, f.Canonical n p ∧ f.pattern n p = f.pattern m q ∧ (n : ℚ) * 2 ^ p = m * 2 ^ q ∧
      (m % 2 = 0 → n % 2 = 0) := by
  rcases Nat.lt_or_eq_of_le le with less | rfl
  · exact ⟨m, q, ⟨less, least, full⟩, rfl, rfl, id⟩
  · have positive := twoTo_pos f.fractionBits
    refine ⟨twoTo f.fractionBits, q + 1, ⟨by omega, by omega, .inr le_rfl⟩, ?_, ?_, fun _ => ?_⟩
    · have next : (q + 1 - f.leastExponent).toNat = (q - f.leastExponent).toNat + 1 := by omega
      simp only [pattern, next]
      ring
    · rw [zpow_add_one₀ two_ne_zero]
      push_cast
      ring
    · obtain ⟨F, hF⟩ : ∃ F, f.fractionBits = F + 1 := ⟨f.fractionBits - 1, by omega⟩
      rw [hF, twoTo_eq, pow_succ']
      exact Nat.mul_mod_right ..

/-- Below the limit a magnitude is rounded to the nearest one of the format. -/
theorem exists_nearest (hF : 0 < f.fractionBits) (he : 2 ≤ f.exponentBits) {num den : Nat}
    (hd : 0 < den) (small : (num : ℚ) / den < f.limit) :
    ∃ m q, f.Canonical m q ∧ f.roundMagnitude num den = f.pattern m q ∧
      f.pattern m q < f.infinity ∧ ∀ n p, f.Canonical n p →
        |(m : ℚ) * 2 ^ q - num / den| ≤ |(n : ℚ) * 2 ^ p - num / den| ∧
        (|(m : ℚ) * 2 ^ q - num / den| = |(n : ℚ) * 2 ^ p - num / den| →
          (n : ℚ) * 2 ^ p = m * 2 ^ q ∨ m % 2 = 0) := by
  have finite : f.roundMagnitude num den < f.infinity :=
    lt_of_le_of_ne (roundMagnitude_le ..)
      fun top => absurd ((roundMagnitude_eq_infinity_iff he hd).mp top) (not_le.mpr small)
  rcases Nat.eq_zero_or_pos num with rfl | hn
  · have zero : f.Canonical 0 f.leastExponent :=
      ⟨by have := twoTo_pos f.fractionBits; omega, le_rfl, .inl rfl⟩
    have place : f.roundMagnitude 0 den = f.pattern 0 f.leastExponent := by
      simp [roundMagnitude, pattern]
    refine ⟨0, _, zero, place, place ▸ finite, fun n p _ => ⟨?_, fun _ => .inr rfl⟩⟩
    rw [Nat.cast_zero, zero_mul, zero_div, sub_zero, abs_zero]
    exact abs_nonneg _
  · have hr : (0 : ℚ) < num / den := by
      have hn' : (0 : ℚ) < num := by exact_mod_cast hn
      have hd' : (0 : ℚ) < den := by exact_mod_cast hd
      positivity
    have above := Int.zpow_log_le_self (b := 2) one_lt_two hr
    have below := Int.lt_zpow_succ_log_self (b := 2) one_lt_two ((num : ℚ) / den)
    have value := floorLog2_eq_log hn hd
    simp only [roundMagnitude, if_neg hn.ne', value] at finite ⊢
    generalize hlog : Int.log 2 ((num : ℚ) / den) = log at *
    generalize hq : max f.leastExponent (log - f.fractionBits) = q at *
    have least : f.leastExponent ≤ q := by omega
    have unit : q = f.leastExponent ∨ q ≤ log - f.fractionBits := by omega
    have full := unit.imp_right fun fine => twoTo_mul_unit_le fine above
    have low := unit.imp_right fun fine => le_nearest_scaled hd fine above
    have high := nearest_scaled_le (f := f) (q := q) hd (by omega) below
    have near (n : Nat) (p : Int) (hn : f.Canonical n p) := nearest_unit_spec
      (Nat.mul_pos hd (twoTo_pos _)) (scaled_div_mul hd q) least full hn
    obtain ⟨m, p, canonical, place, same, even⟩ := exists_carried hF high least low
    have inside : f.pattern (nearest (num * twoTo (-q).toNat) (den * twoTo q.toNat)) q
        < f.infinity := (min_lt_iff.mp finite).resolve_left (lt_irrefl _)
    refine ⟨m, p, canonical, ?_, place ▸ inside, fun n r hn => ?_⟩
    · rw [place]
      exact min_eq_right inside.le
    · obtain ⟨le, tie⟩ := near n r hn
      rw [same]
      exact ⟨le, fun equal => (tie equal).imp_right even⟩

/-! ## Numbers with their sign -/

/-- No number of the format is nearer to `x` than the reading, and if another one is as near, the
reading is even. -/
def IsNearest (f : Format) (x : ℚ) (r : Reading) : Prop :=
  ∃ v, r.value? = some v ∧ ∀ bits w, (f.read bits).value? = some w →
    |v - x| ≤ |w - x| ∧ (|v - x| = |w - x| → w = v ∨ r.IsEven)

/-- A number of the other sign is no nearer than zero. -/
theorem le_abs_neg_sub {a r : ℚ} (ha : 0 ≤ a) (hr : 0 ≤ r) (s : Bool) :
    |(if s then a else -a) - if s then -r else r| = a + r := by
  cases s
  · rw [if_neg (by decide), if_neg (by decide), abs_of_nonpos (by linarith)]
    ring
  · rw [if_pos rfl, if_pos rfl, sub_neg_eq_add, abs_of_nonneg (by linarith)]

/-- The nearest magnitude is the nearest number of its sign. -/
theorem isNearest_of_near {r : ℚ} (hr : 0 ≤ r) {s : Bool} {m : Nat} {q : Int}
    (near : ∀ n p, f.Canonical n p → |(m : ℚ) * 2 ^ q - r| ≤ |(n : ℚ) * 2 ^ p - r| ∧
      (|(m : ℚ) * 2 ^ q - r| = |(n : ℚ) * 2 ^ p - r| → (n : ℚ) * 2 ^ p = m * 2 ^ q ∨ m % 2 = 0)) :
    f.IsNearest (if s then -r else r) (.finite s m q) := by
  have distance (n : Nat) (p : Int) :
      |signed s n p - if s then -r else r| = |(n : ℚ) * 2 ^ p - r| := by
    cases s
    · rfl
    · rw [signed, if_pos rfl, if_pos rfl, neg_sub_neg, abs_sub_comm]
  refine ⟨signed s m q, rfl, fun bits w other => ?_⟩
  obtain ⟨t, n, p, number, rfl⟩ := Reading.value?_eq_some_iff.mp other
  have hn := (canonical_of_read number).1
  rw [distance]
  by_cases same : t = s
  · subst same
    obtain ⟨le, tie⟩ := near n p hn
    rw [distance]
    refine ⟨le, fun equal => (tie equal).imp_left fun value => ?_⟩
    rw [signed, signed, value]
  · have positive : (0 : ℚ) ≤ n * 2 ^ p := by positivity
    have opposite : signed t n p = if s then (n : ℚ) * 2 ^ p else -(n * 2 ^ p) := by
      cases s <;> cases t <;> simp_all [signed]
    have zero : f.Canonical 0 f.leastExponent :=
      ⟨by have := twoTo_pos f.fractionBits; omega, le_rfl, .inl rfl⟩
    obtain ⟨le, tie⟩ := near 0 _ zero
    rw [Nat.cast_zero, zero_mul, zero_sub, abs_neg, abs_of_nonneg hr] at le tie
    rw [opposite, le_abs_neg_sub positive hr]
    refine ⟨by linarith, fun equal => ?_⟩
    -- both numbers are zero, or the reading is even
    have nothing : (n : ℚ) * 2 ^ p = 0 := by linarith
    refine (tie (by linarith)).imp_left fun value => ?_
    cases s <;> simp [signed, nothing, ← value]

/-- Below the limit a quotient is rounded to the nearest number, with the same sign. -/
theorem round_isNearest (hF : 0 < f.fractionBits) (he : 2 ≤ f.exponentBits) (s : Bool)
    {num den : Nat} (hd : 0 < den) (small : (num : ℚ) / den < f.limit) :
    ∃ m q, f.read (f.round s num den) = .finite s m q ∧
      f.IsNearest (if s then -(num / den) else num / den) (f.read (f.round s num den)) := by
  obtain ⟨m, q, canonical, place, inside, near⟩ := exists_nearest hF he hd small
  have read : f.read (f.round s num den) = .finite s m q := by
    rw [round, place, read_pattern canonical inside]
  refine ⟨m, q, read, ?_⟩
  rw [read]
  exact isNearest_of_near (by positivity) near

/-! ## Only one number is nearest -/

/-- A point that is no farther from the lesser of two numbers lies below their middle. -/
theorem two_mul_le_of_abs_le {v w x : ℚ} (less : v < w) (near : |v - x| ≤ |w - x|) :
    2 * x ≤ v + w := by
  rcases abs_cases (v - x) with ⟨left, _⟩ | ⟨left, _⟩ <;>
    rcases abs_cases (w - x) with ⟨right, _⟩ | ⟨right, _⟩ <;> linarith

theorem le_two_mul_of_abs_le {v w x : ℚ} (less : v < w) (near : |w - x| ≤ |v - x|) :
    v + w ≤ 2 * x := by
  rcases abs_cases (v - x) with ⟨left, _⟩ | ⟨left, _⟩ <;>
    rcases abs_cases (w - x) with ⟨right, _⟩ | ⟨right, _⟩ <;> linarith

variable {x y v w : ℚ} {a b : Nat}

/-- Of two even numbers that are as near one would have a number between them that is nearer. -/
theorem IsNearest.not_less (hF : 0 < f.fractionBits) (ha : f.IsNearest x (f.read a))
    (hb : f.IsNearest x (f.read b)) (hv : (f.read a).value? = some v)
    (hw : (f.read b).value? = some w) : ¬ v < w := by
  intro less
  obtain ⟨v', hv', nearA⟩ := ha
  obtain ⟨w', hw', nearB⟩ := hb
  obtain rfl : v' = v := Option.some_inj.mp (hv'.symm.trans hv)
  obtain rfl : w' = w := Option.some_inj.mp (hw'.symm.trans hw)
  have equal : |v' - x| = |w' - x| := le_antisymm (nearA b w' hw).1 (nearB a v' hv).1
  have evenA := ((nearA b w' hw).2 equal).resolve_left less.ne'
  have evenB := ((nearB a v' hv).2 equal.symm).resolve_left less.ne
  obtain ⟨s, m, q, readA, rfl⟩ := Reading.value?_eq_some_iff.mp hv
  obtain ⟨t, n, p, readB, rfl⟩ := Reading.value?_eq_some_iff.mp hw
  obtain ⟨canonicalA, -, insideA, -⟩ := canonical_of_read readA
  obtain ⟨canonicalB, -, insideB, -⟩ := canonical_of_read readB
  rw [readA, Reading.IsEven, ← ordinal_even_iff (s := s) (q := q) hF] at evenA
  rw [readB, Reading.IsEven, ← ordinal_even_iff (s := t) (q := p) hF] at evenB
  rw [← ordinal_natAbs s] at insideA
  rw [← ordinal_natAbs t] at insideB
  have order := (canonicalA.ordinal_lt_iff canonicalB).mpr less
  obtain ⟨u, k, e, bits, canonical, read, place⟩ :=
    exists_ordinal (f := f) (k := f.ordinal s m q + 1) (by omega)
  have after := (canonicalA.ordinal_lt_iff canonical (s := s) (t := u)).mp (by omega)
  have before := (canonical.ordinal_lt_iff canonicalB (s := u) (t := t)).mp (by omega)
  have value : (f.read bits).value? = some (signed u k e) := by rw [read]; rfl
  have below := two_mul_le_of_abs_le after (nearA bits _ value).1
  have above := le_two_mul_of_abs_le before (nearB bits _ value).1
  linarith

theorem IsNearest.value_eq (hF : 0 < f.fractionBits) (ha : f.IsNearest x (f.read a))
    (hb : f.IsNearest x (f.read b)) (hv : (f.read a).value? = some v)
    (hw : (f.read b).value? = some w) : v = w :=
  le_antisymm (not_lt.mp (hb.not_less hF ha hw hv)) (not_lt.mp (ha.not_less hF hb hv hw))

/-- Rounding keeps the order. -/
theorem IsNearest.mono (hF : 0 < f.fractionBits) (ha : f.IsNearest x (f.read a))
    (hb : f.IsNearest y (f.read b)) (hv : (f.read a).value? = some v)
    (hw : (f.read b).value? = some w) (le : x ≤ y) : v ≤ w := by
  by_contra more
  rw [not_le] at more
  obtain ⟨v', hv', nearA⟩ := id ha
  obtain ⟨w', hw', nearB⟩ := id hb
  obtain rfl : v' = v := Option.some_inj.mp (hv'.symm.trans hv)
  obtain rfl : w' = w := Option.some_inj.mp (hw'.symm.trans hw)
  have above := le_two_mul_of_abs_le more (nearA b _ hw).1
  have below := two_mul_le_of_abs_le more (nearB a _ hv).1
  obtain rfl : x = y := by linarith
  exact more.ne' (ha.value_eq hF hb hv hw)

theorem IsNearest.atMost (hF : 0 < f.fractionBits) (ha : f.IsNearest x (f.read a))
    (hb : f.IsNearest y (f.read b)) (le : x ≤ y) : (f.read a).AtMost (f.read b) := by
  obtain ⟨v, hv, -⟩ := id ha
  obtain ⟨w, hw, -⟩ := id hb
  exact (Reading.atMost_iff_of_value hv hw).mpr (ha.mono hF hb hv hw le)

/-- A pattern is known from its value and its sign. -/
theorem eq_of_value (hb : b < 2 * f.signBit) (ha : a < 2 * f.signBit)
    (hv : (f.read a).value? = some v) (hw : (f.read b).value? = some v)
    (sign : (f.read a).negative = (f.read b).negative) : a = b := by
  obtain ⟨s, m, q, readA, rfl⟩ := Reading.value?_eq_some_iff.mp hv
  obtain ⟨t, n, p, readB, value⟩ := Reading.value?_eq_some_iff.mp hw
  obtain ⟨canonical, -, inside, -⟩ := canonical_of_read readA
  obtain rfl : s = t := by rw [readA, readB] at sign; exact sign
  have same : (n : ℚ) * 2 ^ p = m * 2 ^ q := by
    rw [← abs_signed s, ← abs_signed s m, value]
  calc a = f.write (f.read a) := (write_read ha (by simp [readA])).symm
    _ = f.write (f.read b) := by
      rw [readA, readB, canonical.write_eq inside s rfl, canonical.write_eq inside s same]
    _ = b := write_read hb (by simp [readB])

theorem round_lt (f : Format) (s : Bool) (num den : Nat) : f.round s num den < 2 * f.signBit := by
  have magnitude := roundMagnitude_le (f := f) num den
  have top := f.infinity_lt_signBit
  cases s <;> simp [round] <;> omega

/-- Being nearest and the sign determine what is rounded to. -/
theorem round_eq_iff (hF : 0 < f.fractionBits) (he : 2 ≤ f.exponentBits) (s : Bool) {num den : Nat}
    (hd : 0 < den) (small : (num : ℚ) / den < f.limit) {bits : Nat} (hb : bits < 2 * f.signBit) :
    f.IsNearest (if s then -(num / den) else num / den) (f.read bits) ∧
        (f.read bits).negative = s
      ↔ bits = f.round s num den := by
  obtain ⟨m, q, read, near⟩ := round_isNearest hF he s hd small
  constructor
  · rintro ⟨nearest, sign⟩
    have value : (f.read (f.round s num den)).value? = some (signed s m q) := by rw [read]; rfl
    obtain ⟨v, hv, -⟩ := id nearest
    obtain rfl := nearest.value_eq hF near hv value
    exact eq_of_value (f.round_lt s num den) hb hv value (by rw [sign, read]; rfl)
  · rintro rfl
    exact ⟨near, by rw [read]; rfl⟩

end RecordRows.Binary.Format
