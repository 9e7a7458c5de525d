import RecordRows.Proofs.Row.Column
import RecordRows.Proofs.Row.Decoding

/-!
Records there and back. A record that is encoded and decoded comes back with every field in normal
form (`decodeRow_encodeRow`). A record that was decoded is in normal form already, and so encoding
what was decoded gives a row that this changes no more (`decodeRow_encodeRow_of_decodeRow`).
-/
namespace RecordRows.Schema

/-! ## Fields one by one -/

/-- Equality of all fields, except that all NaNs count as one number. -/
def Alike : (ts : Schema) → ts.Fields → ts.Fields → Prop
  | [], _, _ => True
  | t :: ts, (x, xs), (y, ys) => t.Alike x y ∧ Alike ts xs ys

def norm : (ts : Schema) → ts.Fields → ts.Fields
  | [], () => ()
  | t :: ts, (x, xs) => (t.norm x, norm ts xs)

def quiet : (ts : Schema) → ts.Fields → ts.Fields
  | [], () => ()
  | t :: ts, (x, xs) => (t.quiet x, quiet ts xs)

/-- Whether some field holds layers around a missing value. -/
def collapses : (ts : Schema) → ts.Fields → Bool
  | [], () => false
  | t :: ts, (x, xs) => t.collapses x || collapses ts xs

theorem quiet_alike (ts : Schema) (xs : ts.Fields) : ts.Alike (ts.quiet xs) xs := by
  induction ts with
  | nil => trivial
  | cons t ts ih =>
    obtain ⟨x, xs⟩ := xs
    exact ⟨t.quiet_alike x, ih xs⟩

theorem alike_iff (ts : Schema) (xs : ts.Fields) :
    ts.Alike (ts.quiet (ts.norm xs)) xs ↔ ts.collapses xs = false := by
  induction ts with
  | nil => exact iff_of_true trivial rfl
  | cons t ts ih =>
    obtain ⟨x, xs⟩ := xs
    rw [collapses, Bool.or_eq_false_iff, ← t.alike_iff x, ← ih xs]
    rfl

/-! ## Rows -/

@[simp]
theorem length_toRow (ts : Schema) (xs : ts.Fields) : (ts.toRow xs).length = ts.columns := by
  induction ts with
  | nil => rfl
  | cons t ts ih =>
    obtain ⟨x, xs⟩ := xs
    simp [toRow, columns, ih xs]

theorem reads_toRow (ts : Schema) (xs : ts.Fields) :
    ts.Reads (ts.toRow xs) (ts.quiet (ts.norm xs)) := by
  induction ts with
  | nil => trivial
  | cons t ts ih =>
    obtain ⟨x, xs⟩ := xs
    exact ⟨t.decode_encode x, ih xs⟩

/-- What a row reads as has nothing that encoding could lose. -/
theorem settled_of_reads {ts : Schema} {row : Row} {xs : ts.Fields} (h : ts.Reads row xs) :
    ts.collapses xs = false ∧ ts.quiet (ts.norm xs) = xs := by
  induction ts generalizing row with
  | nil => exact ⟨rfl, rfl⟩
  | cons t ts ih =>
    obtain ⟨x, xs⟩ := xs
    cases row with
    | nil => exact absurd h id
    | cons v row =>
      obtain ⟨hcollapses, hquiet⟩ := ih h.2
      constructor
      · rw [collapses, ColumnType.collapses_of_decode h.1, hcollapses]
        rfl
      · rw [norm, quiet, ColumnType.norm_of_decode h.1, ColumnType.quiet_of_decode h.1, hquiet]

theorem decodeRow_toRow (ts : Schema) (xs : ts.Fields) :
    (ts.decodeRow (ts.toRow xs)).result = .ok (ts.quiet (ts.norm xs)) :=
  decodeRow_eq_ok_iff.mpr ⟨ts.length_toRow xs, ts.reads_toRow xs⟩

/-- A record is encoded to one value for each column, and what is decoded from them is the record in
normal form. It is the record itself exactly when no field of it collapses. -/
theorem decodeRow_encodeRow (ts : Schema) (xs : ts.Fields) :
    (ts.encodeRow xs).result.length = ts.columns ∧
      ∃ ys, (ts.decodeRow (ts.encodeRow xs).result).result = .ok ys ∧ ts.Alike ys (ts.norm xs) ∧
        (ts.Alike ys xs ↔ ts.collapses xs = false) :=
  ⟨ts.length_toRow xs, _, ts.decodeRow_toRow xs, ts.quiet_alike _, ts.alike_iff xs⟩

/-- A row in the form in which it is written after it was read. -/
def reencode (ts : Schema) (row : Row) : Except RowError Row :=
  (ts.decodeRow row).result.map fun xs => (ts.encodeRow xs).result

/-- What was decoded comes back as it is, and re-encoding a row twice gives what it gives once. -/
theorem decodeRow_encodeRow_of_decodeRow {ts : Schema} {row : Row} {xs : ts.Fields}
    (h : (ts.decodeRow row).result = .ok xs) :
    ts.collapses xs = false ∧ (ts.decodeRow (ts.encodeRow xs).result).result = .ok xs ∧
      ∃ row', ts.reencode row = .ok row' ∧ row'.length = row.length ∧
        ts.reencode row' = .ok row' := by
  obtain ⟨hlen, hreads⟩ := decodeRow_eq_ok_iff.mp h
  obtain ⟨hcollapses, hsettled⟩ := settled_of_reads hreads
  have hback : (ts.decodeRow (ts.toRow xs)).result = .ok xs := by
    rw [decodeRow_toRow, hsettled]
  refine ⟨hcollapses, hback, ts.toRow xs, ?_, ?_, ?_⟩
  · rw [reencode, h]
    rfl
  · rw [length_toRow, hlen]
  · rw [reencode, hback]
    rfl

/-- A flag given as an integer, a number to be narrowed, a missing value under two layers, a small
number given as one of any size, and the reverse. -/
theorem decodeRow_encodeRow_of_lenient_row :
    ∃ (ts : Schema) (row : Row) (xs : ts.Fields), (ts.decodeRow row).result = .ok xs ∧
      ts.collapses xs = false ∧ (ts.decodeRow (ts.encodeRow xs).result).result = .ok xs ∧
      ∃ row', ts.reencode row = .ok row' ∧ row'.length = row.length ∧
        ts.reencode row' = .ok row' :=
  let ts : Schema := [.scalar .bool, .scalar .float32, .optional (.optional .value),
    .scalar (.int .i8), .identifier "RecordId" (.scalar .bigInt)]
  let row : Row := [.int ⟨1, by decide, by decide⟩, .float ⟨0x3ff8000000000000⟩, .null, .bigInt 5,
    .int ⟨7, by decide, by decide⟩]
  let xs : ts.Fields := (true, ⟨0x3fc00000⟩, none, ⟨5, by decide, by decide⟩, (7 : Int), ())
  have h : (ts.decodeRow row).result = .ok xs := rfl
  ⟨ts, row, xs, h, decodeRow_encodeRow_of_decodeRow h⟩

end RecordRows.Schema
