import Mathlib.Data.List.Basic
import RecordRows.Row.Codec

/-!
Decoding without the cursor. A run over the fields of a schema succeeds exactly when every column
from the cursor on decodes to its field (`Cursor.fields_eq_ok_iff`), and a row is accepted exactly
when it has the right width besides (`Schema.decodeRow_eq_ok_iff`).
-/
namespace RecordRows

/-- The columns of a row decode to the fields, one by one. -/
def Schema.Reads : (ts : Schema) → Row → ts.Fields → Prop
  | [], _, _ => True
  | _ :: _, [], _ => False
  | t :: ts, v :: row, (x, xs) => t.decode v = .ok x ∧ Reads ts row xs

namespace Cursor

theorem next_of_drop_eq_nil {c : Cursor} (h : c.row.drop c.position = []) (t : ColumnType) :
    c.next t = (.error (.exhausted c.position), c) := by
  have hnone : c.row[c.position]? = none := by
    rw [List.getElem?_eq_none_iff]
    exact List.drop_eq_nil_iff.mp h
  simp [next, hnone]

theorem next_of_drop_eq_cons {c : Cursor} {v : Value} {rest : Row}
    (h : c.row.drop c.position = v :: rest) (t : ColumnType) :
    c.next t =
      ((t.decode v).mapError (.column c.position), { c with position := c.position + 1 }) := by
  have hsome : c.row[c.position]? = some v := by
    rw [← Nat.add_zero c.position, ← List.getElem?_drop, h]
    rfl
  simp [next, hsome]

theorem drop_succ_of_drop_eq_cons {α : Type} {row rest : List α} {p : Nat} {v : α}
    (h : row.drop p = v :: rest) : row.drop (p + 1) = rest := by
  rw [← List.drop_drop, h]
  rfl

/-- A run that succeeds reads its first field and then the others. -/
theorem fields_cons_eq_ok_iff {t : ColumnType} {ts : Schema} {c c₁ c' : Cursor} {y : t.Carrier}
    (h : c.next t = (.ok y, c₁)) {x : t.Carrier} {xs : ts.Fields} :
    fields (t :: ts) c = (.ok (x, xs), c') ↔ y = x ∧ fields ts c₁ = (.ok xs, c') := by
  simp only [fields, h]
  rcases fields ts c₁ with ⟨e | ys, c₂⟩
  · simp
  · simp [and_assoc]

theorem fields_eq_ok_iff {ts : Schema} {c c' : Cursor} {xs : ts.Fields} :
    fields ts c = (.ok xs, c') ↔
      ts.Reads (c.row.drop c.position) xs ∧ c' = { c with position := c.position + ts.length } := by
  induction ts generalizing c with
  | nil => exact ⟨fun h => ⟨trivial, (congrArg Prod.snd h).symm⟩, fun h => h.2 ▸ rfl⟩
  | cons t ts ih =>
    obtain ⟨x, xs⟩ := xs
    cases hrow : c.row.drop c.position with
    | nil => simp [fields, next_of_drop_eq_nil hrow, Schema.Reads]
    | cons v rest =>
      cases hv : t.decode v with
      | error e => simp [fields, next_of_drop_eq_cons hrow, hv, Except.mapError, Schema.Reads]
      | ok y =>
        have hnext : c.next t = (.ok y, { c with position := c.position + 1 }) := by
          rw [next_of_drop_eq_cons hrow, hv]
          rfl
        rw [fields_cons_eq_ok_iff hnext, ih]
        simp [Schema.Reads, hv, drop_succ_of_drop_eq_cons hrow, and_assoc, Nat.add_assoc,
          Nat.add_comm 1]

end Cursor

/-- A row is accepted when it has the right width and all its columns decode. -/
theorem Schema.decodeRow_eq_ok_iff {ts : Schema} {row : Row} {xs : ts.Fields} :
    (ts.decodeRow row).result = .ok xs ↔ row.length = ts.columns ∧ ts.Reads row xs := by
  by_cases hlen : row.length = ts.columns
  · have hrun := @Cursor.fields_eq_ok_iff ts { row } { row, position := ts.length } xs
    simp only [List.drop_zero, Nat.zero_add, and_true] at hrun
    simp only [decodeRow, hlen, ne_eq, not_true_eq_false, if_false, true_and, ← hrun]
    rcases hfields : Cursor.fields ts { row } with ⟨e | ys, c⟩
    · simp
    · have hc := (Cursor.fields_eq_ok_iff.mp hfields).2
      simp [hc]
  · simp [decodeRow, hlen]

end RecordRows
