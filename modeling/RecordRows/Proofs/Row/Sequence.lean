import Mathlib.Logic.Equiv.Defs
import RecordRows.Proofs.Row.Outcome

/-!
Records one after the other. To read two records with one cursor is to read one record with the
fields of both (`Cursor.fields_append`), and a record is read from the middle of a row as it is from
the start of the rest of it, with all positions shifted (`Cursor.fields_drop`). So two records that
were written one behind the other are read back (`Cursor.both_of_reads`).
-/
namespace RecordRows

/-! ## Fields side by side -/

namespace Schema

def join : (ts us : Schema) → ts.Fields → us.Fields → (ts ++ us).Fields
  | [], _, (), ys => ys
  | _ :: ts, us, (x, xs), ys => (x, join ts us xs ys)

def split : (ts us : Schema) → (ts ++ us).Fields → ts.Fields × us.Fields
  | [], _, ys => ((), ys)
  | _ :: ts, us, (x, zs) => ((x, (split ts us zs).1), (split ts us zs).2)

theorem split_join (ts us : Schema) (xs : ts.Fields) (ys : us.Fields) :
    split ts us (join ts us xs ys) = (xs, ys) := by
  induction ts with
  | nil => rfl
  | cons t ts ih =>
    obtain ⟨x, xs⟩ := xs
    simp [join, split, ih xs]

theorem join_split (ts us : Schema) (zs : (ts ++ us).Fields) :
    join ts us (split ts us zs).1 (split ts us zs).2 = zs := by
  induction ts with
  | nil => rfl
  | cons t ts ih =>
    obtain ⟨x, zs⟩ := zs
    exact congrArg (x, ·) (ih zs)

/-- Two records are the same as one with the fields of both. -/
def joined (ts us : Schema) : ts.Fields × us.Fields ≃ (ts ++ us).Fields where
  toFun zs := join ts us zs.1 zs.2
  invFun := split ts us
  left_inv zs := split_join ts us zs.1 zs.2
  right_inv := join_split ts us

theorem reads_append {ts : Schema} {row : Row} {xs : ts.Fields} (h : ts.Reads row xs) (more : Row) :
    ts.Reads (row ++ more) xs := by
  induction ts generalizing row with
  | nil => trivial
  | cons t ts ih =>
    obtain ⟨x, xs⟩ := xs
    cases row with
    | nil => exact absurd h id
    | cons v row => exact ⟨h.1, ih h.2⟩

end Schema

/-- The error of a row that starts at a position of a longer one. -/
def RowError.shift (p : Nat) : RowError → RowError
  | .exhausted position => .exhausted (p + position)
  | .columnCount expected found => .columnCount expected found
  | .column position source => .column (p + position) source

namespace Cursor

/-! ## One after the other -/

/-- Reads two records, the second one only when the first was read. -/
def both (ts us : Schema) (c : Cursor) : Except RowError (ts.Fields × us.Fields) × Cursor :=
  match fields ts c with
  | (.error e, c) => (.error e, c)
  | (.ok xs, c) =>
    match fields us c with
    | (.error e, c) => (.error e, c)
    | (.ok ys, c) => (.ok (xs, ys), c)

theorem fields_append (ts us : Schema) (c : Cursor) :
    fields (ts ++ us) c = ((both ts us c).1.map (Schema.joined ts us), (both ts us c).2) := by
  induction ts generalizing c with
  | nil =>
    simp only [List.nil_append, both, fields]
    rcases fields us c with ⟨e | ys, c₁⟩
    · rfl
    · rfl
  | cons t ts ih =>
    simp only [List.cons_append, both, fields]
    rcases c.next t with ⟨e | x, c₁⟩
    · rfl
    · simp only [ih c₁, both]
      rcases fields ts c₁ with ⟨e | xs, c₂⟩
      · rfl
      · dsimp only
        rcases fields us c₂ with ⟨e | ys, c₃⟩
        · rfl
        · rfl

/-! ## From the middle of a row -/

/-- The cursor at the same column of the longer row whose columns from a position on it reads. -/
def placed (row : Row) (p : Nat) (c : Cursor) : Cursor := ⟨row, p + c.position⟩

theorem next_row (c : Cursor) (t : ColumnType) : (c.next t).2.row = c.row := by
  cases hv : c.row[c.position]? with
  | none => simp [next, hv]
  | some v => simp [next, hv]

section
variable {row : Row} {p : Nat} {c : Cursor}

theorem next_placed (rest : c.row = row.drop p) (t : ColumnType) :
    (c.placed row p).next t =
      ((c.next t).1.mapError (.shift p), (c.next t).2.placed row p) := by
  have same : row[p + c.position]? = c.row[c.position]? := by rw [rest, List.getElem?_drop]
  cases hv : c.row[c.position]? with
  | none => simp [next, placed, same, hv, Except.mapError, RowError.shift]
  | some v =>
    cases hx : t.decode v with
    | error e =>
      simp [next, placed, same, hv, hx, Except.mapError, RowError.shift, Nat.add_assoc]
    | ok x => simp [next, placed, same, hv, hx, Except.mapError, Nat.add_assoc]

theorem fields_placed (rest : c.row = row.drop p) (ts : Schema) :
    fields ts (c.placed row p) =
      ((fields ts c).1.mapError (.shift p), (fields ts c).2.placed row p) := by
  induction ts generalizing c with
  | nil => rfl
  | cons t ts ih =>
    simp only [fields, next_placed rest]
    rcases hnext : c.next t with ⟨e | x, c₁⟩
    · rfl
    · -- The cursor is still one over the rest of the row.
      have hrow : c₁.row = c.row := by rw [← c.next_row t, hnext]
      have later := ih (hrow.trans rest)
      simp only [Except.mapError, later]
      rcases fields ts c₁ with ⟨e | xs, c₂⟩
      · rfl
      · rfl

end

theorem fields_drop (ts : Schema) (row : Row) (p : Nat) :
    fields ts ⟨row, p⟩ =
      let (result, c) := fields ts ⟨row.drop p, 0⟩
      (result.mapError (.shift p), c.placed row p) :=
  fields_placed (c := ⟨row.drop p, 0⟩) rfl ts

/-! ## Written and read back -/

theorem both_of_reads {ts us : Schema} {row more : Row} {xs : ts.Fields} {ys : us.Fields}
    (first : ts.Reads row xs) (width : row.length = ts.columns) (second : us.Reads more ys) :
    both ts us { row := row ++ more } = (.ok (xs, ys), ⟨row ++ more, ts.length + us.length⟩) := by
  have hfirst : fields ts { row := row ++ more } = (.ok xs, ⟨row ++ more, ts.length⟩) :=
    fields_eq_ok_iff.mpr ⟨Schema.reads_append first more, by simp⟩
  have hsecond : fields us ⟨row ++ more, ts.length⟩ =
      (.ok ys, ⟨row ++ more, ts.length + us.length⟩) := by
    have rest : (row ++ more).drop ts.length = more := List.drop_left' width
    exact fields_eq_ok_iff.mpr ⟨by rw [rest]; exact second, rfl⟩
  simp [both, hfirst, hsecond]

/-- A record with the fields of two is read as the two are, one after the other; a record is read
from any position of a row as from the start of the columns there; and what two records give on
their own after they were written, they give together, with no column left. -/
theorem fields_sequence (ts us : Schema) :
    (∀ c, fields (ts ++ us) c = ((both ts us c).1.map (Schema.joined ts us), (both ts us c).2)) ∧
    (∀ row p, fields ts ⟨row, p⟩ =
      let (result, c) := fields ts ⟨row.drop p, 0⟩
      (result.mapError (.shift p), ⟨row, p + c.position⟩)) ∧
    ∀ xs xs' ys ys', (ts.decodeRow (ts.encodeRow xs).result).result = .ok xs' →
      (us.decodeRow (us.encodeRow ys).result).result = .ok ys' →
      ∃ c, both ts us { row := (ts.encodeRow xs).result ++ (us.encodeRow ys).result } =
        (.ok (xs', ys'), c) ∧ c.remaining = 0 := by
  refine ⟨fields_append ts us, fields_drop ts, ?_⟩
  intro xs xs' ys ys' hxs hys
  obtain ⟨width, first⟩ := Schema.decodeRow_eq_ok_iff.mp hxs
  obtain ⟨width', second⟩ := Schema.decodeRow_eq_ok_iff.mp hys
  refine ⟨_, both_of_reads first width second, ?_⟩
  rw [remaining, List.length_append, width, width']
  exact Nat.sub_self _

/-- The second of two records starts behind a missing value. -/
theorem fields_sequence_of_optional :
    let ts : Schema := [.scalar .text, .optional (.scalar (.int .i64))]
    let us : Schema := [.scalar .bool]
    let xs : ts.Fields := ("ada", none, ())
    let ys : us.Fields := (true, ())
    (ts.decodeRow (ts.encodeRow xs).result).result = .ok xs ∧
      (us.decodeRow (us.encodeRow ys).result).result = .ok ys ∧
      ∃ c, both ts us { row := (ts.encodeRow xs).result ++ (us.encodeRow ys).result } =
        (.ok (xs, ys), c) ∧ c.remaining = 0 :=
  ⟨rfl, rfl, (fields_sequence _ _).2.2 _ _ _ _ rfl rfl⟩

end Cursor

end RecordRows
