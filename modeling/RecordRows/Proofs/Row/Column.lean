import RecordRows.Proofs.Binary.Widening
import RecordRows.Row.Column

/-!
One column there and back. Encoding erases two things: the layers around a missing value
(`ColumnType.norm`) and the payload of a single precision NaN (`ColumnType.quiet`); all else comes
back (`ColumnType.decode_encode`). What decoding gives holds neither of the two, so it comes back as
it is (`ColumnType.norm_of_decode`, `ColumnType.quiet_of_decode`).
-/
namespace RecordRows

/-! ## Scalars -/

namespace Scalar

/-- Equality, except that all NaNs count as one number. -/
def Alike : (s : Scalar) → s.Carrier → s.Carrier → Prop
  | .float32, x, y => Binary32.Alike x y
  | .float64, x, y => Binary64.Alike x y
  | _, x, y => x = y

/-- What is left of a value that is encoded. -/
def quiet : (s : Scalar) → s.Carrier → s.Carrier
  | .float32, x => Binary32.quiet x
  | _, x => x

theorem alike_refl (s : Scalar) (x : s.Carrier) : s.Alike x x := by
  cases s with
  | float32 => exact .inl rfl
  | float64 => exact .inl rfl
  | _ => exact rfl

theorem quiet_alike (s : Scalar) (x : s.Carrier) : s.Alike (s.quiet x) x := by
  cases s with
  | float32 => exact Binary32.quiet_alike x
  | _ => exact alike_refl _ x

theorem decodeInt_val {k : IntKind} (n : Bounded k) : decodeInt k n.val = .ok n := by
  have h : k.least ≤ n.val ∧ n.val ≤ k.greatest := ⟨n.least_le, n.le_greatest⟩
  simp [decodeInt, Bounded.ofInt?, h]

theorem decode_encode (s : Scalar) (x : s.Carrier) : s.decode (s.encode x) = .ok (s.quiet x) := by
  cases s with
  | int k => exact decodeInt_val x
  | float32 =>
    simp only [encode, decode, Binary32.narrow_widen_isFinite]
    rw [if_neg Bool.false_ne_true, Binary32.narrow_widen]
    rfl
  | bool => rfl
  | float64 => rfl
  | text => rfl
  | bytes => rfl
  | bigInt => rfl

theorem decode_null (s : Scalar) : s.decode .null = .error .unexpectedNull := by
  cases s <;> rfl

theorem encode_ne_null (s : Scalar) (x : s.Carrier) : s.encode x ≠ .null := by
  cases s <;> simp [encode]

/-- What decoding gives has been rounded already. -/
theorem quiet_of_decode {s : Scalar} {v : Value} {x : s.Carrier} (h : s.decode v = .ok x) :
    s.quiet x = x := by
  cases s with
  | float32 =>
    cases v with
    | float y =>
      simp only [decode] at h
      split at h
      · cases h
      · injection h with h
        rw [← h]
        exact Binary32.quiet_narrow y
    | int n =>
      injection h with h
      rw [← h]
      exact Binary32.quiet_ofInt n.val
    | _ => cases h
  | _ => rfl

end Scalar

/-! ## Column types -/

def Value.Alike : Value → Value → Prop
  | .float x, .float y => x.Alike y
  | v, w => v = w

theorem Value.alike_refl (v : Value) : v.Alike v := by
  cases v with
  | float x => exact .inl rfl
  | _ => exact rfl

namespace ColumnType

/-- Equality, except that all NaNs count as one number. -/
def Alike : (t : ColumnType) → t.Carrier → t.Carrier → Prop
  | .scalar s, x, y => s.Alike x y
  | .value, v, w => v.Alike w
  | .identifier _ content, x, y => content.Alike x y
  | .optional _, none, none => True
  | .optional t, some x, some y => t.Alike x y
  | .optional _, _, _ => False

/-- Whether a value is a missing one under any number of layers. -/
def isVoid : (t : ColumnType) → t.Carrier → Bool
  | .scalar _, _ => false
  | .value, v => v.isNull
  | .identifier _ content, x => content.isVoid x
  | .optional _, none => true
  | .optional t, some x => t.isVoid x

/-- Whether a field of an optional type holds layers around a missing value. -/
def collapses : (t : ColumnType) → t.Carrier → Bool
  | .scalar _, _ => false
  | .value, _ => false
  | .identifier _ content, x => content.collapses x
  | .optional _, none => false
  | .optional t, some x => t.isVoid x

/-- Layers around a missing value become the outermost missing value; nothing else changes. -/
def norm : (t : ColumnType) → t.Carrier → t.Carrier
  | .scalar _, x => x
  | .value, v => v
  | .identifier _ content, x => content.norm x
  | .optional _, none => none
  | .optional t, some x => if t.isVoid x then none else some x

/-- What is left of the numbers in a value that is encoded. -/
def quiet : (t : ColumnType) → t.Carrier → t.Carrier
  | .scalar s, x => s.quiet x
  | .value, v => v
  | .identifier _ content, x => content.quiet x
  | .optional _, none => none
  | .optional t, some x => some (t.quiet x)

theorem quiet_alike (t : ColumnType) (x : t.Carrier) : t.Alike (t.quiet x) x := by
  induction t with
  | scalar s => exact s.quiet_alike x
  | value => exact Value.alike_refl x
  | identifier _ content ih => exact ih x
  | optional t ih =>
    cases x with
    | none => trivial
    | some x => exact ih x

theorem norm_eq_of_collapses_eq_false {t : ColumnType} {x : t.Carrier}
    (h : t.collapses x = false) : t.norm x = x := by
  induction t with
  | scalar s => rfl
  | value => rfl
  | identifier _ content ih => exact ih h
  | optional t =>
    cases x with
    | none => rfl
    | some x =>
      have hv : t.isVoid x = false := h
      simp [norm, hv]

/-- A field that collapses does not come back. -/
theorem not_alike_of_collapses {t : ColumnType} {x : t.Carrier} (h : t.collapses x = true) :
    ¬ t.Alike (t.quiet (t.norm x)) x := by
  induction t with
  | scalar s => cases h
  | value => cases h
  | identifier _ content ih => exact ih h
  | optional t =>
    cases x with
    | none => cases h
    | some x =>
      have hv : t.isVoid x = true := h
      simp [norm, hv, quiet, Alike]

theorem alike_iff (t : ColumnType) (x : t.Carrier) :
    t.Alike (t.quiet (t.norm x)) x ↔ t.collapses x = false := by
  cases h : t.collapses x with
  | true => simpa using not_alike_of_collapses h
  | false =>
    rw [norm_eq_of_collapses_eq_false h]
    simpa using t.quiet_alike x

/-! ## There and back -/

theorem encode_eq_null_iff (t : ColumnType) (x : t.Carrier) :
    t.encode x = .null ↔ t.isVoid x = true := by
  induction t with
  | scalar s => simpa [encode, isVoid] using s.encode_ne_null x
  | value => cases x <;> simp [encode, isVoid, Value.isNull, Value.kind]
  | identifier _ content ih => exact ih x
  | optional t ih =>
    cases x with
    | none => simp [encode, isVoid]
    | some x => exact ih x

theorem decode_optional {t : ColumnType} {v : Value} (h : v ≠ .null) :
    t.optional.decode v = (t.decode v).map some := by
  cases v with
  | null => exact absurd rfl h
  | _ => rfl

theorem decode_encode_of_not_void {t : ColumnType} {x : t.Carrier} (h : t.isVoid x = false) :
    t.decode (t.encode x) = .ok (t.quiet x) := by
  induction t with
  | scalar s => exact s.decode_encode x
  | value => rfl
  | identifier _ content ih => exact ih h
  | optional t ih =>
    cases x with
    | none => cases h
    | some x =>
      have hv : t.isVoid x = false := h
      have hne : t.encode x ≠ .null := by simp [t.encode_eq_null_iff, hv]
      show t.optional.decode (t.encode x) = _
      rw [decode_optional hne, ih hv]
      rfl

/-- What a column keeps of a value. -/
theorem decode_encode (t : ColumnType) (x : t.Carrier) :
    t.decode (t.encode x) = .ok (t.quiet (t.norm x)) := by
  induction t with
  | scalar s => exact s.decode_encode x
  | value => rfl
  | identifier _ content ih => exact ih x
  | optional t ih =>
    cases x with
    | none => rfl
    | some x =>
      cases hv : t.isVoid x with
      | true =>
        have hnull : t.encode x = .null := (t.encode_eq_null_iff x).mpr hv
        show t.optional.decode (t.encode x) = _
        rw [hnull]
        simp [norm, hv, quiet, decode]
      | false =>
        have hnorm : t.optional.norm (some x) = some x := by simp [norm, hv]
        have hvoid : t.optional.isVoid (some x) = false := hv
        rw [hnorm, decode_encode_of_not_void hvoid]

/-- The two ways in which an optional type reads a value. -/
theorem optional_of_decode {t : ColumnType} {v : Value} {x : Option t.Carrier}
    (h : t.optional.decode v = .ok x) :
    v = .null ∧ x = none ∨ v ≠ .null ∧ ∃ y, t.decode v = .ok y ∧ x = some y := by
  by_cases hv : v = .null
  · subst hv
    injection h with h
    exact .inl ⟨rfl, h.symm⟩
  · rw [decode_optional hv] at h
    cases hy : t.decode v with
    | error e =>
      rw [hy] at h
      cases h
    | ok y =>
      rw [hy] at h
      injection h with h
      exact .inr ⟨hv, y, rfl, h.symm⟩

/-- Only a missing value is read as one. -/
theorem isVoid_of_decode {t : ColumnType} {v : Value} {x : t.Carrier} (h : t.decode v = .ok x) :
    t.isVoid x = v.isNull := by
  induction t generalizing v with
  | scalar s =>
    cases v with
    | null =>
      rw [decode, s.decode_null] at h
      cases h
    | _ => rfl
  | value =>
    injection h with h
    rw [← h]
    rfl
  | identifier _ content ih => exact ih h
  | optional t ih =>
    obtain ⟨rfl, rfl⟩ | ⟨-, y, hy, rfl⟩ := optional_of_decode h
    · rfl
    · exact ih hy

/-- Decoding never puts a layer around a missing value. -/
theorem collapses_of_decode {t : ColumnType} {v : Value} {x : t.Carrier}
    (h : t.decode v = .ok x) : t.collapses x = false := by
  induction t with
  | scalar s => rfl
  | value => rfl
  | identifier _ content ih => exact ih h
  | optional t =>
    obtain ⟨rfl, rfl⟩ | ⟨hv, y, hy, rfl⟩ := optional_of_decode h
    · rfl
    · show t.isVoid y = false
      rw [isVoid_of_decode hy]
      cases v with
      | null => exact absurd rfl hv
      | _ => rfl

theorem norm_of_decode {t : ColumnType} {v : Value} {x : t.Carrier} (h : t.decode v = .ok x) :
    t.norm x = x :=
  norm_eq_of_collapses_eq_false (collapses_of_decode h)

theorem quiet_of_decode {t : ColumnType} {v : Value} {x : t.Carrier} (h : t.decode v = .ok x) :
    t.quiet x = x := by
  induction t generalizing v with
  | scalar s => exact Scalar.quiet_of_decode h
  | value => rfl
  | identifier _ content ih => exact ih h
  | optional t ih =>
    obtain ⟨rfl, rfl⟩ | ⟨-, y, hy, rfl⟩ := optional_of_decode h
    · rfl
    · rw [quiet, ih hy]

end ColumnType

end RecordRows
