import RecordRows.Proofs.Binary.Conversion
import RecordRows.Proofs.Row.Refusal

/-!
Floating-point columns. A single precision column takes every number that is rounded to a finite one,
so that it also takes some that are beyond the greatest one (`decode_float32_range`). What it takes,
and what is read from an integer in either precision, is the nearest number, rounded once; widened
numbers are found again, and no conversion changes the order (`decode_float_rounded`).
-/
namespace RecordRows

open Binary

theorem Bounded.natAbs_lt (n : Bounded .i64) : n.val.natAbs < 2 ^ 127 := by
  have low := n.least_le
  have high := n.le_greatest
  simp only [IntKind.least, IntKind.greatest] at low high
  omega

namespace Scalar

/-! ## Range -/

/-- A number is narrowed if it is not too large, and out of range otherwise. -/
theorem decode_float32_cases (x : Binary64) :
    Binary32.Narrows x ∧ float32.decode (.float x) = .ok (Binary32.narrow x) ∨
      ¬ Binary32.Narrows x ∧ float32.decode (.float x) = .error (.outOfRange "f32") := by
  rw [narrows_iff_bounded, decode_float32]
  cases x.isFinite && (Binary32.narrow x).isInfinite with
  | true => exact .inr ⟨by decide, rfl⟩
  | false => exact .inl ⟨rfl, rfl⟩

theorem decode_float32_eq_ok {x : Binary64} {y : Binary32} (h : float32.decode (.float x) = .ok y) :
    Binary32.Narrows x ∧ y = Binary32.narrow x := by
  rcases decode_float32_cases x with ⟨narrows, read⟩ | ⟨-, refused⟩
  · rw [read] at h
    exact ⟨narrows, (Except.ok.inj h).symm⟩
  · rw [refused] at h
    cases h

theorem narrows_iff (x : Binary64) : Binary32.Narrows x ↔
    ¬ ∃ v, x.read.value? = some v ∧ Binary32.greatest + 2 ^ 103 ≤ |v| := by
  simp only [Binary32.Narrows, Binary32.limit_single_eq, not_exists, not_and, not_le]

/-- A double precision number is out of range for single precision when it is as near to the next
power of two as to the greatest single precision number, or nearer. Everything else is read: NaNs,
infinities, and also the numbers that are beyond the greatest one by less. These are read as the
greatest one. -/
theorem decode_float32_range (x : Binary64) :
    IsGreatest {v | ∃ y : Binary32, y.read.value? = some v} Binary32.greatest ∧
    (float32.decode (.float x) = .error (.outOfRange "f32") ↔
      ∃ v, x.read.value? = some v ∧ Binary32.greatest + 2 ^ 103 ≤ |v|) ∧
    ((∃ y, float32.decode (.float x) = .ok y) ↔
      ¬ ∃ v, x.read.value? = some v ∧ Binary32.greatest + 2 ^ 103 ≤ |v|) ∧
    ∀ v, x.read.value? = some v → Binary32.greatest < |v| → |v| < Binary32.greatest + 2 ^ 103 →
      ∃ y, float32.decode (.float x) = .ok y ∧
        y.read.value? = some (if v < 0 then -Binary32.greatest else Binary32.greatest) := by
  refine ⟨Binary32.isGreatest_greatest, ?_, ?_, fun v hv large small => ?_⟩
  · rcases decode_float32_cases x with ⟨narrows, read⟩ | ⟨wide, refused⟩
    · exact iff_of_false (by simp [read]) ((narrows_iff x).mp narrows)
    · rw [narrows_iff, not_not] at wide
      exact iff_of_true refused wide
  · rw [← narrows_iff]
    rcases decode_float32_cases x with ⟨narrows, read⟩ | ⟨wide, refused⟩
    · exact iff_of_true ⟨_, read⟩ narrows
    · exact iff_of_false (by simp [refused]) wide
  · have narrows : Binary32.Narrows x := by
      intro w hw
      obtain rfl : v = w := Option.some_inj.mp (hv.symm.trans hw)
      rwa [Binary32.limit_single_eq]
    obtain ⟨-, read⟩ := (decode_float32_cases x).resolve_right fun wide => wide.1 narrows
    exact ⟨_, read, Binary32.value?_narrow_of_greatest_lt hv large (narrows v hv)⟩

theorem decode_float32_range_behind_greatest :
    Binary32.greatest < |Binary32.greatest + 2 ^ 75| ∧
    ∃ y, float32.decode (.float behindGreatest) = .ok y ∧
      y.read.value? = some Binary32.greatest := by
  obtain ⟨-, -, -, near⟩ := decode_float32_range behindGreatest
  have size : |Binary32.greatest + 2 ^ 75| = Binary32.greatest + 2 ^ 75 := by
    rw [Binary32.greatest]
    norm_num
  have positive : ¬ Binary32.greatest + 2 ^ 75 < 0 := by
    rw [Binary32.greatest]
    norm_num
  have large : Binary32.greatest < |Binary32.greatest + 2 ^ 75| := by
    rw [size]
    norm_num
  obtain ⟨y, read, value⟩ := near _ value?_behindGreatest large (by rw [size]; norm_num)
  exact ⟨large, y, read, by rw [value, if_neg positive]⟩

/-- A finite number beyond the greatest one is read. -/
theorem decode_float32_beyond_greatest :
    ∃ v, behindGreatest.read.value? = some v ∧ Binary32.greatest < |v| ∧
      float32.decode (.float behindGreatest) = .ok ⟨0x7f7fffff⟩ ∧
      float32.decode (.float behindGreatest) ≠ .error (.outOfRange "f32") := by
  refine ⟨_, value?_behindGreatest, ?_, decode_behindGreatest, by rw [decode_behindGreatest]; simp⟩
  rw [abs_of_pos (by rw [Binary32.greatest]; norm_num)]
  norm_num

/-! ## Rounding -/

/-- A number that is widened is found again, bit for bit, unless it is a NaN. -/
theorem decode_encode_float32 {y : Binary32} (number : y.isNaN = false) :
    float32.decode (float32.encode y) = .ok y := by
  rw [encode, decode, Binary32.narrow_widen_isFinite, Binary32.narrow_widen,
    Binary32.ofReading_read number]
  rfl

/-- Integers are read as the nearest numbers of either precision, and numbers that single precision
takes as the nearest single precision ones: of two that are as near the even one, with the sign of
what is rounded. It is rounded once: by way of double precision some integers would become another
number. A single precision number that is not a NaN is found again when it is widened. Whatever is
less or equal stays so. -/
theorem decode_float_rounded :
    (∀ n : Bounded .i64,
      (∃ y, float64.decode (.int n) = .ok y ∧
        ∀ z : Binary64, z.Rounds (n.val < 0) n.val ↔ z = y) ∧
      ∃ y, float32.decode (.int n) = .ok y ∧
        ∀ z : Binary32, z.Rounds (n.val < 0) n.val ↔ z = y) ∧
    (∃ (n : Bounded .i64) (y : Binary32) (x : Binary64), float32.decode (.int n) = .ok y ∧
      float64.decode (.int n) = .ok x ∧ float32.decode (.float x) ≠ .ok y) ∧
    (∀ (x : Binary64) v y, x.read.value? = some v → float32.decode (.float x) = .ok y →
      ∀ z : Binary32, z.Rounds x.read.negative v ↔ z = y) ∧
    (∀ y : Binary32, y.isNaN = false → float32.decode (float32.encode y) = .ok y) ∧
    (∀ n m : Bounded .i64, n.val ≤ m.val →
      (∀ y z, float64.decode (.int n) = .ok y → float64.decode (.int m) = .ok z →
        y.read.AtMost z.read) ∧
      ∀ y z, float32.decode (.int n) = .ok y → float32.decode (.int m) = .ok z →
        y.read.AtMost z.read) ∧
    (∀ (w x : Binary64) y z, w.read.AtMost x.read → float32.decode (.float w) = .ok y →
      float32.decode (.float x) = .ok z → y.read.AtMost z.read) ∧
    ∀ y z : Binary32, y.widen.read.AtMost z.widen.read ↔ y.read.AtMost z.read := by
  refine ⟨fun n => ⟨⟨_, rfl, fun z => Binary64.rounds_ofInt n.natAbs_lt⟩,
      ⟨_, rfl, fun z => Binary32.rounds_ofInt n.natAbs_lt⟩⟩, ?_, fun x v y hv read z => ?_,
    fun y => decode_encode_float32, fun n m le => ⟨?_, ?_⟩, fun w x y z le hy hz => ?_,
    Binary32.widen_atMost_iff⟩
  · refine ⟨⟨4611686293305294849, by decide, by decide⟩, _, _, rfl, rfl, fun read => ?_⟩
    have different : Binary32.narrow (Binary64.ofInt 4611686293305294849)
        ≠ Binary32.ofInt 4611686293305294849 := by
      decide
    exact different (decode_float32_eq_ok read).2.symm
  · obtain ⟨narrows, rfl⟩ := decode_float32_eq_ok read
    exact Binary32.rounds_narrow hv (narrows v hv)
  · rintro y z ⟨rfl⟩ ⟨rfl⟩
    exact Binary64.ofInt_atMost n.natAbs_lt m.natAbs_lt le
  · rintro y z ⟨rfl⟩ ⟨rfl⟩
    exact Binary32.ofInt_atMost n.natAbs_lt m.natAbs_lt le
  · obtain ⟨narrowsW, rfl⟩ := decode_float32_eq_ok hy
    obtain ⟨narrowsX, rfl⟩ := decode_float32_eq_ok hz
    exact Binary32.narrow_atMost narrowsW narrowsX le

/-- A tie between two integers, a tie of a negative number, the negative zero, and infinity. -/
theorem decode_float_rounded_ties :
    (Binary32.mk 0x4b800002).Rounds false 16777219 ∧
    (Binary32.mk 0x4b800002).read.AtMost (Binary32.mk 0x4b800003).read ∧
    (Binary64.mk 0xbff0000010000000).read.value? = some (-(1 + 1 / 2 ^ 24)) ∧
    float32.decode (.float ⟨0xbff0000010000000⟩) = .ok ⟨0xbf800000⟩ ∧
    (Binary32.mk 0xbf800000).Rounds true (-(1 + 1 / 2 ^ 24)) ∧
    (Binary32.mk 0x80000000).isNaN = false ∧
    float32.decode (float32.encode ⟨0x80000000⟩) = .ok ⟨0x80000000⟩ ∧
    (Binary64.mk 0xbff0000010000000).read.AtMost (Binary64.mk 0x7ff0000000000000).read ∧
    (Binary32.mk 0xbf800000).read.AtMost (Binary32.mk 0x7f800000).read := by
  obtain ⟨integers, -, narrowed, again, integerOrder, order, -⟩ := decode_float_rounded
  let n : Bounded .i64 := ⟨16777219, by decide, by decide⟩
  let m : Bounded .i64 := ⟨16777222, by decide, by decide⟩
  have readN : float32.decode (.int n) = .ok ⟨0x4b800002⟩ := congrArg Except.ok (by decide)
  have readM : float32.decode (.int m) = .ok ⟨0x4b800003⟩ := congrArg Except.ok (by decide)
  have rounded : (Binary32.mk 0x4b800002).Rounds false 16777219 := by
    obtain ⟨-, y, read, rounds⟩ := integers n
    rw [readN] at read
    exact (rounds _).mpr (Except.ok.inj read)
  have halfway : (Binary64.mk 0xbff0000010000000).read = .finite true 4503599895805952 (-52) := by
    decide
  have value : (Binary64.mk 0xbff0000010000000).read.value? = some (-(1 + 1 / 2 ^ 24)) := by
    rw [halfway, Reading.value?, signed]
    norm_num
  have read : float32.decode (.float ⟨0xbff0000010000000⟩) = .ok ⟨0xbf800000⟩ := by
    have result : ((Binary64.mk 0xbff0000010000000).isFinite
          && (Binary32.narrow ⟨0xbff0000010000000⟩).isInfinite) = false ∧
        Binary32.narrow ⟨0xbff0000010000000⟩ = ⟨0xbf800000⟩ := by
      decide
    rw [decode_float32, result.1, result.2]
    rfl
  have top : float32.decode (.float ⟨0x7ff0000000000000⟩) = .ok ⟨0x7f800000⟩ := by
    have result : (Binary64.mk 0x7ff0000000000000).isFinite = false ∧
        Binary32.narrow ⟨0x7ff0000000000000⟩ = ⟨0x7f800000⟩ := by
      decide
    rw [decode_float32, result.1, result.2]
    rfl
  have below : (Binary64.mk 0xbff0000010000000).read.AtMost
      (Binary64.mk 0x7ff0000000000000).read := .inl (by decide)
  have zero : (Binary32.mk 0x80000000).isNaN = false := by decide
  have sign : (Binary64.mk 0xbff0000010000000).read.negative = true := by rw [halfway]; rfl
  refine ⟨rounded, (integerOrder n m (by decide)).2 _ _ readN readM, value, read, ?_, zero,
    again _ zero, below, order _ _ _ _ below read top⟩
  rw [← sign]
  exact (narrowed _ _ _ value read _).mpr rfl

end Scalar

end RecordRows
