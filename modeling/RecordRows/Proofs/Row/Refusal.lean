import RecordRows.Proofs.Binary.Conversion
import RecordRows.Proofs.Row.Column

/-!
Why a column is refused. A scalar reads the kinds of its conversion table (`Scalar.kinds`): another
kind is a mismatch, a number that does not fit is out of range, unless it is rounded back to one
that does, and only a missing value is an unexpected null. Optional layers and identifiers add no
reason of their own (`ColumnType.decode_classified`).
-/
namespace RecordRows

open Binary

/-! ## Scalars -/

namespace Scalar

/-- The conversion table: the kinds that a scalar reads. -/
def kinds : Scalar → List Value.Kind
  | .bool => [.bool, .int]
  | .int _ => [.int, .bigInt]
  | .float32 | .float64 => [.float, .int]
  | .text => [.text]
  | .bytes => [.bytes]
  | .bigInt => [.bigInt, .int]

/-- The number in a value fits, where the scalar has bounds at all. -/
def Fits : Scalar → Value → Prop
  | .bool, .int n => n.val = 0 ∨ n.val = 1
  | .int k, .int n => k.least ≤ n.val ∧ n.val ≤ k.greatest
  | .int k, .bigInt n => k.least ≤ n ∧ n ≤ k.greatest
  | .float32, .float x => ∀ v, x.read.value? = some v → |v| ≤ Binary32.greatest
  | _, _ => True

/-- The number in a value does not fit, but it is nearer to the greatest number of single precision
than to the next power of two, so that it is rounded back. -/
def RoundedBack : Scalar → Value → Prop
  | .float32, .float x => ∃ v, x.read.value? = some v ∧ Binary32.greatest < |v| ∧
      |v| < Binary32.greatest + 2 ^ 103
  | _, _ => False

/-- A value of a listed kind is read if its number fits or is rounded back, and out of range if
not. -/
def Ranged (s : Scalar) (v : Value) : Prop :=
  (s.Fits v ∨ s.RoundedBack v) ∧ (∃ x, s.decode v = .ok x) ∨
    ¬ (s.Fits v ∨ s.RoundedBack v) ∧ s.decode v = .error (.outOfRange s.name)

theorem ranged_of_ok {s : Scalar} {v : Value} {x : s.Carrier} (fits : s.Fits v)
    (read : s.decode v = .ok x) : s.Ranged v := .inl ⟨.inl fits, x, read⟩

theorem ranged_flag (n : Bounded .i64) : Ranged .bool (.int n) := by
  by_cases zero : n.val = 0
  · exact ranged_of_ok (.inl zero) (if_pos zero)
  · by_cases one : n.val = 1
    · exact ranged_of_ok (.inr one) ((if_neg zero).trans (if_pos one))
    · exact .inr ⟨by rintro ((h | h) | h) <;> contradiction, (if_neg zero).trans (if_neg one)⟩

/-- Both column forms of an integer are checked against the same bounds. -/
theorem ranged_decodeInt {k : IntKind} {v : Value} {n : Int}
    (read : (int k).decode v = decodeInt k n)
    (number : (int k).Fits v ↔ k.least ≤ n ∧ n ≤ k.greatest) : Ranged (.int k) v := by
  have exact : (int k).Fits v ∨ (int k).RoundedBack v ↔ k.least ≤ n ∧ n ≤ k.greatest := by
    rw [RoundedBack, or_false, number]
    exact nofun
  rw [Ranged, read, exact]
  by_cases h : k.least ≤ n ∧ n ≤ k.greatest
  · exact .inl ⟨h, ⟨n, h.1, h.2⟩, by simp [decodeInt, Bounded.ofInt?, h]⟩
  · exact .inr ⟨h, by simp [decodeInt, Bounded.ofInt?, h, name]⟩

theorem fits_or_rounded_iff (x : Binary64) :
    float32.Fits (.float x) ∨ float32.RoundedBack (.float x) ↔ Binary32.Narrows x := by
  simp only [Fits, RoundedBack, Binary32.Narrows, Binary32.limit_single_eq]
  constructor
  · rintro (fits | ⟨w, hw, -, small⟩) v hv
    · linarith [fits v hv]
    · obtain rfl : w = v := Option.some_inj.mp (hw.symm.trans hv)
      exact small
  · intro narrows
    by_contra! outside
    obtain ⟨⟨v, hv, large⟩, rounded⟩ := outside
    exact absurd (narrows v hv) (not_lt.mpr (rounded v hv large))

/-- The test for an infinity that was none before tells what narrows. -/
theorem narrows_iff_bounded (x : Binary64) :
    Binary32.Narrows x ↔ (x.isFinite && (Binary32.narrow x).isInfinite) = false := by
  rw [Bool.and_eq_false_imp]
  constructor
  · intro narrows finite
    cases hr : x.read with
    | finite s m q =>
      have small := narrows _ (Reading.value?_eq_some_iff.mpr ⟨s, m, q, hr, rfl⟩)
      rw [abs_signed, Binary32.limit_single] at small
      have unbounded := (Binary32.narrow_isInfinite_iff hr).not.mpr (not_le.mpr small)
      exact Bool.eq_false_of_not_eq_true unbounded
    | _ => simp [Binary64.isFinite, hr, Reading.isFinite] at finite
  · intro bounded v hv
    obtain ⟨s, m, q, hr, rfl⟩ := Reading.value?_eq_some_iff.mp hv
    have finite : x.isFinite = true := by rw [Binary64.isFinite, hr]; rfl
    rw [abs_signed, Binary32.limit_single, ← not_le, ← Binary32.narrow_isInfinite_iff hr,
      bounded finite]
    exact Bool.false_ne_true

/-- The double precision number behind the greatest single precision one. -/
def behindGreatest : Binary64 := ⟨0x47efffffe0000001⟩

theorem value?_behindGreatest :
    behindGreatest.read.value? = some (Binary32.greatest + 2 ^ 75) := by
  have read : behindGreatest.read = .finite false 9007198717870081 75 := by decide
  rw [read, Reading.value?, signed, Binary32.greatest]
  norm_num

theorem roundedBack_behindGreatest : float32.RoundedBack (.float behindGreatest) := by
  refine ⟨_, value?_behindGreatest, ?_⟩
  rw [abs_of_pos (by norm_num [Binary32.greatest])]
  norm_num

theorem decode_float32 (x : Binary64) : float32.decode (.float x) =
    if x.isFinite && (Binary32.narrow x).isInfinite then .error (.outOfRange "f32")
    else .ok (Binary32.narrow x) := rfl

theorem decode_behindGreatest : float32.decode (.float behindGreatest) = .ok ⟨0x7f7fffff⟩ := by
  have narrowed : (behindGreatest.isFinite && (Binary32.narrow behindGreatest).isInfinite) = false
      ∧ Binary32.narrow behindGreatest = ⟨0x7f7fffff⟩ := by
    decide
  rw [decode_float32, narrowed.1, narrowed.2]
  rfl

theorem ranged_narrow (x : Binary64) : Ranged .float32 (.float x) := by
  rw [Ranged, fits_or_rounded_iff, narrows_iff_bounded]
  cases h : x.isFinite && (Binary32.narrow x).isInfinite with
  | true => exact .inr ⟨by simp, if_pos h⟩
  | false => exact .inl ⟨rfl, Binary32.narrow x, if_neg (Bool.eq_false_iff.mp h)⟩

theorem ranged_of_listed {s : Scalar} {v : Value} (listed : v.kind ∈ s.kinds) : s.Ranged v := by
  cases s with
  | bool =>
    cases v with
    | bool b => exact ranged_of_ok trivial rfl
    | int n => exact ranged_flag n
    | _ => simp [kinds, Value.kind] at listed
  | int k =>
    cases v with
    | int n => exact ranged_decodeInt rfl Iff.rfl
    | bigInt n => exact ranged_decodeInt rfl Iff.rfl
    | _ => simp [kinds, Value.kind] at listed
  | float32 =>
    cases v with
    | float x => exact ranged_narrow x
    | int n => exact ranged_of_ok trivial rfl
    | _ => simp [kinds, Value.kind] at listed
  | float64 =>
    cases v with
    | float x => exact ranged_of_ok trivial rfl
    | int n => exact ranged_of_ok trivial rfl
    | _ => simp [kinds, Value.kind] at listed
  | text =>
    cases v with
    | text t => exact ranged_of_ok trivial rfl
    | _ => simp [kinds, Value.kind] at listed
  | bytes =>
    cases v with
    | bytes bs => exact ranged_of_ok trivial rfl
    | _ => simp [kinds, Value.kind] at listed
  | bigInt =>
    cases v with
    | bigInt n => exact ranged_of_ok trivial rfl
    | int n => exact ranged_of_ok trivial rfl
    | _ => simp [kinds, Value.kind] at listed

/-- A kind that is not listed is a mismatch, whatever the value holds. -/
theorem decode_of_unlisted {s : Scalar} {v : Value} (present : v ≠ .null)
    (unlisted : v.kind ∉ s.kinds) : s.decode v = .error (.typeMismatch s.name v.kind) := by
  cases s <;> cases v <;>
    first
    | rfl
    | exact absurd rfl present
    | simp [kinds, Value.kind] at unlisted

/-- The three results of reading a value that is there exclude one another. -/
theorem decode_cases (s : Scalar) {v : Value} (present : v ≠ .null) :
    (v.kind ∉ s.kinds ∧ s.decode v = .error (.typeMismatch s.name v.kind)) ∨
      (v.kind ∈ s.kinds ∧ ¬ (s.Fits v ∨ s.RoundedBack v) ∧
        s.decode v = .error (.outOfRange s.name)) ∨
      (v.kind ∈ s.kinds ∧ (s.Fits v ∨ s.RoundedBack v) ∧ ∃ x, s.decode v = .ok x) := by
  by_cases listed : v.kind ∈ s.kinds
  · obtain ⟨fits, x, read⟩ | ⟨unfit, refused⟩ := ranged_of_listed listed
    · exact .inr (.inr ⟨listed, fits, x, read⟩)
    · exact .inr (.inl ⟨listed, unfit, refused⟩)
  · exact .inl ⟨listed, decode_of_unlisted present listed⟩

end Scalar

/-! ## Column types -/

namespace ColumnType

/-- A type without optional layers: any value, or a scalar, as it is or under identifiers. -/
inductive Plain : ColumnType → Option Scalar → Prop
  | scalar (s : Scalar) : Plain (.scalar s) (some s)
  | value : Plain .value none
  | identifier {t : ColumnType} {s? : Option Scalar} (name : String) (content : Plain t s?) :
    Plain (.identifier name t) s?

/-- A type under a number of optional layers. -/
def layered (t : ColumnType) : Nat → ColumnType
  | 0 => t
  | k + 1 => .optional (t.layered k)

/-- A value under as many layers as its type has. -/
def wrap {t : ColumnType} (x : t.Carrier) : (k : Nat) → (t.layered k).Carrier
  | 0 => x
  | k + 1 => some (wrap x k)

variable {t : ColumnType}

/-- Layers keep the result for a value that is there, errors as they are. -/
theorem decode_layered {v : Value} (present : v ≠ .null) (k : Nat) :
    (t.layered k).decode v = (t.decode v).map (wrap · k) := by
  induction k with
  | zero => cases h : t.decode v <;> simp [layered, h, Except.map, wrap]
  | succ k ih =>
    have outer : (t.layered (k + 1)).decode v = ((t.layered k).decode v).map some :=
      decode_optional present
    rw [outer, ih]
    cases t.decode v <;> rfl

/-- An identifier is read and written as its scalar. -/
theorem Plain.decode_eq {s : Scalar} (plain : t.Plain (some s)) (v : Value) :
    (t.decode v).map t.encode = (s.decode v).map s.encode := by
  generalize hs : some s = s? at plain
  induction plain with
  | scalar s' =>
    cases hs
    rfl
  | value => cases hs
  | identifier name _ ih => exact ih hs

theorem Plain.decode_value (plain : t.Plain none) (v : Value) :
    ∃ x, t.decode v = .ok x ∧ t.encode x = v := by
  generalize hs : none = s? at plain
  induction plain with
  | scalar s => cases hs
  | value => exact ⟨v, rfl, rfl⟩
  | identifier name _ ih => exact ih hs

/-! ## Errors of any type -/

theorem map_eq_error_iff {ε α β : Type} {r : Except ε α} {f : α → β} {e : ε} :
    r.map f = .error e ↔ r = .error e := by
  cases r <;> simp [Except.map]

/-- Layers only pass errors on, and only for a value that is there. -/
theorem decode_optional_eq_error_iff {v : Value} {e : ColumnError} :
    t.optional.decode v = .error e ↔ v ≠ .null ∧ t.decode v = .error e := by
  by_cases h : v = .null
  · subst h
    simp [decode]
  · rw [decode_optional h, map_eq_error_iff]
    exact ⟨fun refused => ⟨h, refused⟩, And.right⟩

/-- A mismatch tells the kind of the value, which is there. -/
theorem present_of_mismatch {v : Value} {expected : String} {found : Value.Kind}
    (h : t.decode v = .error (.typeMismatch expected found)) : v ≠ .null ∧ found = v.kind := by
  induction t with
  | scalar s =>
    have h : s.decode v = .error (.typeMismatch expected found) := h
    by_cases missing : v = .null
    · rw [missing, s.decode_null] at h
      cases h
    · obtain ⟨-, refused⟩ | ⟨-, -, refused⟩ | ⟨-, -, x, read⟩ := s.decode_cases missing
      · rw [refused] at h
        cases h
        exact ⟨missing, rfl⟩
      · rw [refused] at h
        cases h
      · rw [read] at h
        cases h
  | value => cases h
  | identifier _ _ ih => exact ih h
  | optional _ ih => exact ih (decode_optional_eq_error_iff.mp h).2

theorem null_of_unexpectedNull {v : Value} (h : t.decode v = .error .unexpectedNull) :
    v = .null := by
  induction t with
  | scalar s =>
    have h : s.decode v = .error .unexpectedNull := h
    by_contra present
    obtain ⟨-, refused⟩ | ⟨-, -, refused⟩ | ⟨-, -, x, read⟩ := s.decode_cases present
    · rw [refused] at h
      cases h
    · rw [refused] at h
      cases h
    · rw [read] at h
      cases h
  | value => cases h
  | identifier _ _ ih => exact ih h
  | optional _ ih => exact ih (decode_optional_eq_error_iff.mp h).2

/-! ## Classification -/

theorem Plain.decode_eq_error_iff {s : Scalar} (plain : t.Plain (some s)) {v : Value}
    {e : ColumnError} : t.decode v = .error e ↔ s.decode v = .error e := by
  rw [← map_eq_error_iff, plain.decode_eq, map_eq_error_iff]

theorem Plain.exists_decode_iff {s : Scalar} (plain : t.Plain (some s)) {v : Value} :
    (∃ x, t.decode v = .ok x) ↔ ∃ x, s.decode v = .ok x := by
  have same := plain.decode_eq v
  cases ht : t.decode v <;> cases hs : s.decode v <;> simp [ht, hs, Except.map] at same ⊢

/-- Every result of reading a column is known from the type and the value. The outermost layer takes
a missing value, and without a layer only a type for any value does. A value that is there is read
as without layers: a kind outside the table is a mismatch, a number that neither fits nor is rounded
back is out of range, and everything else is read. -/
theorem decode_classified {s? : Option Scalar} (plain : t.Plain s?) (k : Nat) :
    (t.layered (k + 1)).decode .null = .ok none ∧
    (∀ v, v ≠ .null → (t.layered k).decode v = (t.decode v).map (wrap · k)) ∧
    (s? = none → ∀ v, ∃ x, t.decode v = .ok x ∧ t.encode x = v) ∧
    (∀ s, s? = some s → t.decode .null = .error .unexpectedNull ∧ ∀ v, v ≠ .null →
      (t.decode v).map t.encode = (s.decode v).map s.encode ∧
      (t.decode v = .error (.typeMismatch s.name v.kind) ↔ v.kind ∉ s.kinds) ∧
      (t.decode v = .error (.outOfRange s.name) ↔
        v.kind ∈ s.kinds ∧ ¬ s.Fits v ∧ ¬ s.RoundedBack v) ∧
      ((∃ x, t.decode v = .ok x) ↔ v.kind ∈ s.kinds ∧ (s.Fits v ∨ s.RoundedBack v)) ∧
      t.decode v ≠ .error .unexpectedNull) ∧
    (∀ (u : ColumnType) v expected found,
      u.decode v = .error (.typeMismatch expected found) → found ≠ .null) ∧
    ∀ (u : ColumnType) v, u.optional.decode v ≠ .error .unexpectedNull := by
  refine ⟨rfl, fun v present => decode_layered present k, ?_, ?_, ?_, ?_⟩
  · rintro rfl
    exact plain.decode_value
  · rintro s rfl
    refine ⟨plain.decode_eq_error_iff.mpr s.decode_null, fun v present => ⟨plain.decode_eq v, ?_⟩⟩
    have cases := s.decode_cases present
    rw [plain.decode_eq_error_iff, plain.decode_eq_error_iff, plain.exists_decode_iff, ← not_or]
    generalize (s.Fits v ∨ s.RoundedBack v) = taken at cases ⊢
    refine ⟨?_, ?_, ?_, fun missing => present (null_of_unexpectedNull missing)⟩
    -- each of the three results excludes the other two
    all_goals
      obtain ⟨unlisted, result⟩ | ⟨listed, refused, result⟩ | ⟨listed, taken, x, result⟩ := cases
      all_goals simp [*]
  · intro u v expected found refused
    obtain ⟨present, rfl⟩ := present_of_mismatch refused
    cases v <;> simp [Value.kind] at present ⊢
  · intro u v refused
    obtain ⟨present, missing⟩ := decode_optional_eq_error_iff.mp refused
    exact present (null_of_unexpectedNull missing)

/-- An optional identifier of single precision, a number out of its range, and one that is beyond
its bounds but rounded back. -/
theorem decode_classified_beyond_single :
    let t : ColumnType := .identifier "SampleId" (.scalar .float32)
    t.Plain (some .float32) ∧ (t.layered 2).decode .null = .ok none ∧
      (t.layered 2).decode (.float (.ofNat (Binary.twoTo 128))) = .error (.outOfRange "f32") ∧
      (∃ x, t.decode (.float Scalar.behindGreatest) = .ok x) ∧
      (t.layered 2).decode (.text "1.5") = .error (.typeMismatch "f32" .text) := by
  intro t
  have plain : t.Plain (some .float32) := .identifier _ (.scalar .float32)
  obtain ⟨missing, -⟩ := decode_classified plain 1
  obtain ⟨-, layers, -, scalar, -⟩ := decode_classified plain 2
  obtain ⟨-, present⟩ := scalar .float32 rfl
  have listed (x : Binary64) : (Value.float x).kind ∈ Scalar.float32.kinds := by
    simp [Value.kind, Scalar.kinds]
  have value : (Binary64.ofNat (Binary.twoTo 128)).read.value? = some (2 ^ 128) := by
    have read : (Binary64.ofNat (Binary.twoTo 128)).read = .finite false 4503599627370496 76 := by
      decide
    rw [read, Reading.value?, signed]
    norm_num
  have unfit : ¬ Scalar.float32.Fits (.float (.ofNat (Binary.twoTo 128))) := by
    intro fits
    have small := fits _ value
    norm_num [Binary32.greatest] at small
  have distant : ¬ Scalar.float32.RoundedBack (.float (.ofNat (Binary.twoTo 128))) := by
    rintro ⟨v, hv, -, small⟩
    cases value.symm.trans hv
    norm_num [Binary32.greatest] at small
  have large := (present (.float (.ofNat (Binary.twoTo 128))) (by simp)).2.2.1.mpr
    ⟨listed _, unfit, distant⟩
  have near := (present (.float Scalar.behindGreatest) (by simp)).2.2.2.1.mpr
    ⟨listed _, .inr Scalar.roundedBack_behindGreatest⟩
  have unlisted := (present (.text "1.5") (by simp)).2.1.mpr (by simp [Value.kind, Scalar.kinds])
  refine ⟨plain, missing, ?_, near, ?_⟩
  · rw [layers _ (by simp), large]
    rfl
  · rw [layers _ (by simp), unlisted]
    rfl

/-- A number that does not fit is not out of range. -/
theorem decode_beyond_bounds :
    Value.kind (.float Scalar.behindGreatest) ∈ Scalar.float32.kinds ∧
      ¬ Scalar.float32.Fits (.float Scalar.behindGreatest) ∧
      (ColumnType.scalar .float32).decode (.float Scalar.behindGreatest) = .ok ⟨0x7f7fffff⟩ := by
  refine ⟨by simp [Value.kind, Scalar.kinds], fun fits => ?_, Scalar.decode_behindGreatest⟩
  obtain ⟨v, value, large, -⟩ := Scalar.roundedBack_behindGreatest
  exact absurd (fits v value) (not_le.mpr large)

end ColumnType

end RecordRows
