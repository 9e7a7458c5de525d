import RecordRows.Proofs.Row.Column

/-!
Integers in columns. Both column forms of an integer are read alike
(`ColumnType.decode_int`), as the integer itself or as one out of range
(`ColumnType.exact_decode_bigInt`), and so an integer that is written at one type and read at another
never changes (`ColumnType.integer_exact`).
-/
namespace RecordRows

namespace Scalar

/-- The integer is one of the type. -/
def Holds : Scalar → Int → Prop
  | .int k, n => k.least ≤ n ∧ n ≤ k.greatest
  | .bigInt, _ => True
  | _, _ => False

def number? : (s : Scalar) → s.Carrier → Option Int
  | .int _, n => some n.val
  | .bigInt, n => some n
  | _, _ => none

end Scalar

namespace ColumnType

/-- The type holds integers of a scalar, as they are or under identifiers and optional layers. -/
inductive Integral : ColumnType → Scalar → Prop
  | int (k : IntKind) : Integral (.scalar (.int k)) (.int k)
  | bigInt : Integral (.scalar .bigInt) .bigInt
  | identifier {t : ColumnType} {s : Scalar} (name : String) (content : Integral t s) :
    Integral (.identifier name t) s
  | optional {t : ColumnType} {s : Scalar} (content : Integral t s) : Integral (.optional t) s

/-- The integer in a value, if no layer is empty. -/
def number? : (t : ColumnType) → t.Carrier → Option Int
  | .scalar s, x => s.number? x
  | .value, _ => none
  | .identifier _ content, x => content.number? x
  | .optional _, none => none
  | .optional t, some x => t.number? x

/-- The result of reading an integer is the integer itself if the scalar holds it, and names the
scalar it is out of range of if not. -/
def Exact (t : ColumnType) (s : Scalar) (n : Int) (result : Except ColumnError t.Carrier) : Prop :=
  (s.Holds n ∧ ∃ x, result = .ok x ∧ t.number? x = some n) ∨
    (¬ s.Holds n ∧ result = .error (.outOfRange s.name))

/-! ## Reading -/

theorem exact_decodeInt (k : IntKind) (n : Int) :
    Exact (.scalar (.int k)) (.int k) n (Scalar.decodeInt k n) := by
  by_cases h : k.least ≤ n ∧ n ≤ k.greatest
  · have held : Scalar.decodeInt k n = .ok ⟨n, h.1, h.2⟩ := by
      simp [Scalar.decodeInt, Bounded.ofInt?, h]
    exact .inl ⟨h, _, held, rfl⟩
  · have refused : Scalar.decodeInt k n = .error (.outOfRange k.name) := by
      simp [Scalar.decodeInt, Bounded.ofInt?, h]
    exact .inr ⟨h, refused⟩

theorem exact_optional {t : ColumnType} {s : Scalar} {n : Int}
    {result : Except ColumnError t.Carrier} (h : t.Exact s n result) :
    t.optional.Exact s n (result.map some) := by
  obtain ⟨held, x, rfl, hx⟩ | ⟨refused, rfl⟩ := h
  · exact .inl ⟨held, some x, rfl, hx⟩
  · exact .inr ⟨refused, rfl⟩

variable {t : ColumnType} {s : Scalar}

theorem exact_decode_bigInt (h : t.Integral s) (n : Int) : t.Exact s n (t.decode (.bigInt n)) := by
  induction h with
  | int k => exact exact_decodeInt k n
  | bigInt => exact .inl ⟨trivial, n, rfl, rfl⟩
  | identifier name _ ih => exact ih
  | optional _ ih => exact exact_optional ih

/-- The form of the column makes no difference. -/
theorem decode_int (h : t.Integral s) (n : Bounded .i64) :
    t.decode (.int n) = t.decode (.bigInt n.val) := by
  induction h with
  | int k => rfl
  | bigInt => rfl
  | identifier name _ ih => exact ih
  | optional _ ih => exact congrArg (Except.map some) ih

/-! ## Writing -/

theorem encode_of_number?_eq_some (h : t.Integral s) {x : t.Carrier} {n : Int}
    (hx : t.number? x = some n) :
    t.encode x = .bigInt n ∨ ∃ m : Bounded .i64, m.val = n ∧ t.encode x = .int m := by
  induction h with
  | int k =>
    injection hx with hx
    exact .inr ⟨x.toInt64, hx, rfl⟩
  | bigInt =>
    injection hx with hx
    exact .inl (congrArg Value.bigInt hx)
  | identifier name _ ih => exact ih hx
  | optional _ ih =>
    cases x with
    | none => cases hx
    | some x => exact ih hx

theorem encode_of_number?_eq_none (h : t.Integral s) {x : t.Carrier} (hx : t.number? x = none) :
    t.encode x = .null := by
  induction h with
  | int k => cases hx
  | bigInt => cases hx
  | identifier name _ ih => exact ih hx
  | optional _ ih =>
    cases x with
    | none => rfl
    | some x => exact ih hx

/-! ## Writing at one type and reading at another -/

/-- Every integer in a column is read as itself or not at all, whatever the form of the column and
whatever type it was written at. -/
theorem integer_exact {t u : ColumnType} {s r : Scalar} (source : t.Integral s)
    (target : u.Integral r) :
    (∀ n, u.Exact r n (u.decode (.bigInt n))) ∧
    (∀ n : Bounded .i64, u.decode (.int n) = u.decode (.bigInt n.val)) ∧
    (r = .bigInt → ∀ n e, u.decode (.bigInt n) ≠ .error e) ∧
    ∀ x, (∀ n, t.number? x = some n → u.Exact r n (u.decode (t.encode x))) ∧
      (t.number? x = none → t.encode x = .null) := by
  have exact := exact_decode_bigInt target
  refine ⟨exact, decode_int target, ?_, fun x => ⟨?_, encode_of_number?_eq_none source⟩⟩
  · rintro rfl n e he
    obtain ⟨-, x, hx, -⟩ | ⟨refused, -⟩ := exact n
    · rw [he] at hx
      cases hx
    · exact refused trivial
  · intro n hn
    obtain h | ⟨m, rfl, h⟩ := encode_of_number?_eq_some source hn
    · rw [h]
      exact exact n
    · rw [h, decode_int target]
      exact exact m.val

/-- A number that was written as an optional identifier is too large for a byte. -/
theorem integer_exact_narrowed :
    let t : ColumnType := .optional (.identifier "PersonId" (.scalar (.int .i64)))
    let u : ColumnType := .optional (.optional (.scalar (.int .u8)))
    t.Integral (.int .i64) ∧ u.Integral (.int .u8) ∧
      u.Exact (.int .u8) 300 (u.decode (t.encode (some ⟨300, by decide, by decide⟩))) :=
  have source := Integral.optional (.identifier "PersonId" (.int .i64))
  have target := Integral.optional (.optional (.int .u8))
  ⟨source, target, ((integer_exact source target).2.2.2 _).1 300 rfl⟩

end ColumnType

end RecordRows
