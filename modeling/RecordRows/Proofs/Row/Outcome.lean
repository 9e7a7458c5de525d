import RecordRows.Proofs.Row.Decoding
import RecordRows.Proofs.Row.Derived

/-!
What comes of reading the fields of a schema, told from the columns alone. The first column that its
type refuses decides (`Cursor.fields_of_refusesFirst`); where no column is refused, it matters only
whether there are enough of them (`Cursor.fields_of_accepts`, `Cursor.fields_of_short`). A whole row
is settled by its width first and then in the same way (`Schema.decodeRow_settled`).
-/
namespace RecordRows

namespace Schema

/-! ## Columns that are refused -/

/-- The column at an index is there, and the type at this index does not decode it. -/
def Refuses (ts : Schema) (row : Row) (i : Nat) (e : ColumnError) : Prop :=
  ∃ t v, ts[i]? = some t ∧ row[i]? = some v ∧ t.decode v = .error e

def RefusesFirst (ts : Schema) (row : Row) (i : Nat) (e : ColumnError) : Prop :=
  ts.Refuses row i e ∧ ∀ j < i, ∀ e', ¬ ts.Refuses row j e'

/-- No column is refused, as far as there are columns and types. -/
def Accepts (ts : Schema) (row : Row) : Prop := ∀ i e, ¬ ts.Refuses row i e

variable {t : ColumnType} {ts : Schema} {v : Value} {row : Row} {i : Nat} {e : ColumnError}

theorem accepts_nil (row : Row) : Accepts [] row := by
  rintro i e ⟨t, v, ht, -, -⟩
  simp at ht

theorem accepts_of_no_columns (ts : Schema) : ts.Accepts [] := by
  rintro i e ⟨t, v, -, hv, -⟩
  simp at hv

theorem refuses_zero : Refuses (t :: ts) (v :: row) 0 e ↔ t.decode v = .error e := by
  simp [Refuses]

theorem refuses_succ : Refuses (t :: ts) (v :: row) (i + 1) e ↔ ts.Refuses row i e := by
  simp [Refuses]

theorem not_refuses_zero {x : t.Carrier} (hv : t.decode v = .ok x) :
    ¬ Refuses (t :: ts) (v :: row) 0 e := by
  rw [refuses_zero, hv]
  exact nofun

theorem accepts_cons {x : t.Carrier} (hv : t.decode v = .ok x) :
    Accepts (t :: ts) (v :: row) ↔ ts.Accepts row := by
  constructor
  · intro h i e hi
    exact h (i + 1) e (refuses_succ.mpr hi)
  · intro h i e hi
    cases i with
    | zero => exact not_refuses_zero hv hi
    | succ i => exact h i e (refuses_succ.mp hi)

theorem refusesFirst_zero (hv : t.decode v = .error e) : RefusesFirst (t :: ts) (v :: row) 0 e :=
  ⟨refuses_zero.mpr hv, fun _ hj => absurd hj (Nat.not_lt_zero _)⟩

theorem refusesFirst_succ {x : t.Carrier} (hv : t.decode v = .ok x) (h : ts.RefusesFirst row i e) :
    RefusesFirst (t :: ts) (v :: row) (i + 1) e := by
  obtain ⟨hi, least⟩ := h
  refine ⟨refuses_succ.mpr hi, fun j hj e' h => ?_⟩
  cases j with
  | zero => exact not_refuses_zero hv h
  | succ j => exact least j (by omega) e' (refuses_succ.mp h)

/-- When the first column is refused, it is the first one that is. -/
theorem eq_of_refusesFirst {e' : ColumnError} (hv : t.decode v = .error e')
    (h : RefusesFirst (t :: ts) (v :: row) i e) : i = 0 ∧ e = e' := by
  cases i with
  | zero =>
    have he := refuses_zero.mp h.1
    rw [hv] at he
    injection he with he
    exact ⟨rfl, he.symm⟩
  | succ i => exact absurd (refuses_zero.mpr hv) (h.2 0 (Nat.succ_pos i) e')

/-- When the first column is not refused, a later one is the first that is. -/
theorem exists_refusesFirst_of_ok {x : t.Carrier} (hv : t.decode v = .ok x)
    (h : RefusesFirst (t :: ts) (v :: row) i e) : ∃ j, i = j + 1 ∧ ts.RefusesFirst row j e := by
  obtain ⟨hi, least⟩ := h
  cases i with
  | zero => exact absurd hi (not_refuses_zero hv)
  | succ j =>
    exact ⟨j, rfl, refuses_succ.mp hi, fun k hk e' h =>
      least (k + 1) (Nat.succ_lt_succ hk) e' (refuses_succ.mpr h)⟩

theorem RefusesFirst.lt_length (h : ts.RefusesFirst row i e) : i < row.length := by
  obtain ⟨⟨t, v, -, hv, -⟩, -⟩ := h
  exact (List.getElem?_eq_some_iff.mp hv).1

theorem accepts_or_refusesFirst (ts : Schema) (row : Row) :
    ts.Accepts row ∨ ∃ i e, ts.RefusesFirst row i e := by
  induction ts generalizing row with
  | nil => exact .inl (accepts_nil row)
  | cons t ts ih =>
    cases row with
    | nil => exact .inl (accepts_of_no_columns _)
    | cons v row =>
      cases hv : t.decode v with
      | error e => exact .inr ⟨0, e, refusesFirst_zero hv⟩
      | ok x =>
        obtain h | ⟨i, e, h⟩ := ih row
        · exact .inl ((accepts_cons hv).mpr h)
        · exact .inr ⟨i + 1, e, refusesFirst_succ hv h⟩

/-! ## Fields at their index -/

/-- The field at an index. -/
def field : (ts : Schema) → ts.Fields → (i : Fin ts.length) → (ts.get i).Carrier
  | _ :: _, (x, _), ⟨0, _⟩ => x
  | _ :: ts, (_, xs), ⟨i + 1, h⟩ => field ts xs ⟨i, Nat.lt_of_succ_lt_succ h⟩

/-- Each field is what its type makes of the column at the same index. -/
def ReadsAt (ts : Schema) (row : Row) (xs : ts.Fields) : Prop :=
  ∀ i : Fin ts.length, ∃ v, row[i.val]? = some v ∧ (ts.get i).decode v = .ok (ts.field xs i)

theorem readsAt_of_reads {ts : Schema} {row : Row} {xs : ts.Fields} (h : ts.Reads row xs) :
    ts.ReadsAt row xs := by
  induction ts generalizing row with
  | nil => exact fun i => absurd i.isLt (Nat.not_lt_zero _)
  | cons t ts ih =>
    obtain ⟨x, xs⟩ := xs
    cases row with
    | nil => exact absurd h id
    | cons v row =>
      rintro ⟨i, hi⟩
      cases i with
      | zero => exact ⟨v, rfl, h.1⟩
      | succ i => exact ih h.2 ⟨i, Nat.lt_of_succ_lt_succ hi⟩

theorem exists_reads (accepted : ts.Accepts row) (enough : ts.length ≤ row.length) :
    ∃ xs, ts.Reads row xs := by
  induction ts generalizing row with
  | nil => exact ⟨(), trivial⟩
  | cons t ts ih =>
    cases row with
    | nil => simp at enough
    | cons v row =>
      cases hv : t.decode v with
      | error e => exact absurd (refuses_zero.mpr hv) (accepted 0 e)
      | ok x =>
        obtain ⟨xs, hxs⟩ := ih ((accepts_cons hv).mp accepted) (by simpa using enough)
        exact ⟨(x, xs), hv, hxs⟩

end Schema

/-! ## The run over the fields -/

namespace Cursor

section
variable {t : ColumnType} {c : Cursor} {v : Value} {rest : Row} (ts : Schema)

theorem fields_cons_of_exhausted (h : c.row.drop c.position = []) :
    fields (t :: ts) c = (.error (.exhausted c.position), c) := by
  simp [fields, next_of_drop_eq_nil h]

theorem fields_cons_of_error {e : ColumnError} (h : c.row.drop c.position = v :: rest)
    (hv : t.decode v = .error e) :
    fields (t :: ts) c =
      (.error (.column c.position e), { c with position := c.position + 1 }) := by
  simp [fields, next_of_drop_eq_cons h, hv, Except.mapError]

theorem fields_cons_of_ok {x : t.Carrier} (h : c.row.drop c.position = v :: rest)
    (hv : t.decode v = .ok x) :
    fields (t :: ts) c =
      let later := fields ts { c with position := c.position + 1 }
      (later.1.map (x, ·), later.2) := by
  simp only [fields, next_of_drop_eq_cons h, hv, Except.mapError]
  rcases fields ts { c with position := c.position + 1 } with ⟨e | xs, c₁⟩
  · rfl
  · rfl

end

variable {ts : Schema} {c : Cursor} {i : Nat} {e : ColumnError}

/-- The first column that is refused is blamed, and the cursor rests behind it. -/
theorem fields_of_refusesFirst (h : ts.RefusesFirst (c.row.drop c.position) i e) :
    fields ts c =
      (.error (.column (c.position + i) e), { c with position := c.position + i + 1 }) := by
  -- The columns behind the cursor are taken off one by one, together with their types.
  induction ts generalizing c i with
  | nil => exact absurd h.1 (Schema.accepts_nil _ i e)
  | cons t ts ih =>
    cases hrow : c.row.drop c.position with
    | nil =>
      rw [hrow] at h
      exact absurd h.1 (Schema.accepts_of_no_columns _ i e)
    | cons v rest =>
      rw [hrow] at h
      cases hv : t.decode v with
      | error e' =>
        obtain ⟨rfl, rfl⟩ := Schema.eq_of_refusesFirst hv h
        exact fields_cons_of_error ts hrow hv
      | ok x =>
        obtain ⟨j, rfl, hrest⟩ := Schema.exists_refusesFirst_of_ok hv h
        rw [← drop_succ_of_drop_eq_cons hrow] at hrest
        rw [fields_cons_of_ok ts hrow hv, ih hrest]
        simp [Except.map, Nat.add_assoc, Nat.add_comm 1]

theorem fields_of_accepts (accepted : ts.Accepts (c.row.drop c.position))
    (enough : c.position + ts.length ≤ c.row.length) :
    ∃ xs, ts.Reads (c.row.drop c.position) xs ∧
      fields ts c = (.ok xs, { c with position := c.position + ts.length }) := by
  obtain ⟨xs, hxs⟩ := Schema.exists_reads accepted (by rw [List.length_drop]; omega)
  exact ⟨xs, hxs, fields_eq_ok_iff.mpr ⟨hxs, rfl⟩⟩

/-- When the columns run out, the cursor rests behind the last one. -/
theorem fields_of_short (accepted : ts.Accepts (c.row.drop c.position))
    (within : c.position ≤ c.row.length) (short : c.row.length < c.position + ts.length) :
    fields ts c = (.error (.exhausted c.row.length), { c with position := c.row.length }) := by
  induction ts generalizing c with
  | nil => exact absurd short (Nat.not_lt.mpr within)
  | cons t ts ih =>
    cases hrow : c.row.drop c.position with
    | nil =>
      have hend : c.position = c.row.length :=
        Nat.le_antisymm within (List.drop_eq_nil_iff.mp hrow)
      rw [fields_cons_of_exhausted ts hrow, ← hend]
    | cons v rest =>
      rw [hrow] at accepted
      have hlt : c.position < c.row.length := by
        rw [← List.drop_eq_nil_iff.not.trans Nat.not_le, hrow]
        exact List.cons_ne_nil v rest
      cases hv : t.decode v with
      | error e => exact absurd (Schema.refuses_zero.mpr hv) (accepted 0 e)
      | ok x =>
        have hrest := (Schema.accepts_cons hv).mp accepted
        rw [← drop_succ_of_drop_eq_cons hrow] at hrest
        have hshort : c.row.length < c.position + 1 + ts.length := by
          rw [List.length_cons] at short
          omega
        have more := ih (c := { c with position := c.position + 1 }) hrest hlt hshort
        rw [fields_cons_of_ok ts hrow hv, more]
        rfl

end Cursor

/-! ## Whole rows -/

/-- What a reader of events sees of one. -/
def RowEvent.seen (event : RowEvent) : Level × List (String × Nat) := (event.level, event.numbers)

namespace Schema

variable {ts : Schema} {row : Row}

theorem decodeRow_result (width : row.length = ts.columns) :
    (ts.decodeRow row).result = (Cursor.fields ts { row }).1 := by
  rw [decodeRow, if_neg (not_not.mpr width)]
  rcases Cursor.fields ts { row } with ⟨e | xs, c⟩
  · rfl
  · rfl

theorem decodeRow_of_refusesFirst {i : Nat} {e : ColumnError} (width : row.length = ts.columns)
    (h : ts.RefusesFirst row i e) : ts.decodeRow row = ⟨.error (.column i e), []⟩ := by
  have run : Cursor.fields ts { row } = (.error (.column (0 + i) e), ⟨row, 0 + i + 1⟩) :=
    Cursor.fields_of_refusesFirst (c := { row }) h
  simp [decodeRow, width, run]

theorem decodeRow_of_accepts (width : row.length = ts.columns) (accepted : ts.Accepts row) :
    ∃ xs, ts.Reads row xs ∧ ts.decodeRow row = ⟨.ok xs, [.decoded ts.columns]⟩ := by
  have enough : 0 + ts.length ≤ row.length :=
    Nat.le_of_eq ((Nat.zero_add _).trans width.symm)
  obtain ⟨xs, reads, run⟩ := Cursor.fields_of_accepts (c := { row }) accepted enough
  refine ⟨xs, reads, ?_⟩
  simp [decodeRow, width, run, columns]

/-- A row of another width is refused whatever its columns hold. In a row of the right width the
first column that is refused is blamed whatever the later ones hold, and if there is none, every
field is what its type makes of its column. The body generated for a record with these column types
tells the same width and does the same to a row of it. -/
theorem decodeRow_settled (ts : Schema) (row : Row) :
    (row.length ≠ ts.columns →
      (ts.decodeRow row).result = .error (.columnCount ts.columns row.length) ∧
      (ts.decodeRow row).events.map RowEvent.seen =
        [(.debug, [("expected", ts.columns), ("found", row.length)])]) ∧
    (∀ i e, row.length = ts.columns → ts.RefusesFirst row i e →
      (ts.decodeRow row).result = .error (.column i e) ∧ (ts.decodeRow row).events = []) ∧
    (row.length = ts.columns → ts.Accepts row →
      (∃ xs, (ts.decodeRow row).result = .ok xs ∧ ts.ReadsAt row xs) ∧
      (ts.decodeRow row).events.map RowEvent.seen = [(.trace, [("columns", ts.columns)])]) ∧
    (∀ p, (ts.decodeRow row).result ≠ .error (.exhausted p)) ∧
    ∀ {fs r w}, Generated.Faithful fs r w → ∀ type, fs.types.map type = ts →
      r.columns = ts.columns ∧ (row.length = ts.columns →
        ((r.run (fun p => Cursor.read (type p)) fs).run.run { row }).1 =
          (ts.decodeRow row).result.map fun xs => some (ts.cells xs)) := by
  refine ⟨?_, ?_, ?_, ?_, ?_⟩
  · intro width
    simp [decodeRow, width, RowEvent.seen, RowEvent.level, RowEvent.numbers]
  · intro i e width h
    rw [decodeRow_of_refusesFirst width h]
    exact ⟨rfl, rfl⟩
  · intro width accepted
    obtain ⟨xs, reads, run⟩ := decodeRow_of_accepts width accepted
    rw [run]
    exact ⟨⟨xs, rfl, readsAt_of_reads reads⟩, rfl⟩
  · intro p
    by_cases width : row.length = ts.columns
    · obtain accepted | ⟨i, e, h⟩ := accepts_or_refusesFirst ts row
      · obtain ⟨xs, -, run⟩ := decodeRow_of_accepts width accepted
        simp [run]
      · simp [decodeRow_of_refusesFirst width h]
    · simp [decodeRow, width]
  · rintro fs r w faithful type rfl
    refine ⟨by rw [faithful.columnsRead, columns, List.length_map], fun width => ?_⟩
    rw [faithful.run_read, decodeRow_result width]

/-- Two columns are refused, and the first of them is blamed. -/
theorem decodeRow_settled_of_two_refused :
    let ts : Schema := [.scalar .text, .scalar (.int .i32), .scalar .bool]
    let row : Row := [.text "x", .text "five", .null]
    ts.RefusesFirst row 1 (.typeMismatch "i32" .text) ∧ ts.Refuses row 2 .unexpectedNull ∧
      (ts.decodeRow row).result = .error (.column 1 (.typeMismatch "i32" .text)) ∧
      (ts.decodeRow row).events = [] :=
  have first := refusesFirst_succ rfl (refusesFirst_zero rfl)
  have second := refuses_succ.mpr (refuses_succ.mpr (refuses_zero.mpr rfl))
  ⟨first, second, (decodeRow_settled _ _).2.1 _ _ rfl first⟩

end Schema

end RecordRows
