import RecordRows.Proofs.Derive.Layout
import RecordRows.Row.Cursor

/-!
Generated bodies on a cursor. The body that reads a record does to a cursor what the run over the
fields of its schema does, and gives the same columns or the same error
(`Generated.Faithful.run_read`).
-/
namespace RecordRows

open Source

/-- A value together with its type. -/
abbrev Cell := (t : ColumnType) × t.Carrier

/-- The fields of a record as a plain list. -/
def Schema.cells : (ts : Schema) → ts.Fields → List Cell
  | [], () => []
  | t :: ts, (x, xs) => ⟨t, x⟩ :: cells ts xs

namespace Cursor

/-- The next column, read in a computation that carries a cursor along and stops at a failure. -/
def read (t : ColumnType) : ExceptT RowError (StateM Cursor) Cell :=
  ExceptT.mk fun c => ((c.next t).1.map fun x => ⟨t, x⟩, (c.next t).2)

theorem run_bind {α β : Type} (x : ExceptT RowError (StateM Cursor) α)
    (f : α → ExceptT RowError (StateM Cursor) β) (c : Cursor) :
    (x >>= f).run.run c =
      match x.run.run c with
      | (.error e, c) => (.error e, c)
      | (.ok a, c) => (f a).run.run c := by
  rw [ExceptT.run_bind, StateT.run_bind]
  rcases x.run.run c with ⟨e | a, c⟩
  · rfl
  · rfl

/-- The run over the fields is the traversal of the schema. -/
theorem run_mapM_read (ts : Schema) (c : Cursor) :
    (ts.mapM read).run.run c = ((fields ts c).1.map ts.cells, (fields ts c).2) := by
  induction ts generalizing c with
  | nil => rfl
  | cons t ts ih =>
    have hread : (read t).run.run c = ((c.next t).1.map fun x => ⟨t, x⟩, (c.next t).2) := rfl
    rw [List.mapM_cons, run_bind, hread, fields]
    rcases c.next t with ⟨e | x, c₁⟩
    · rfl
    · simp only [Except.map, run_bind, ih c₁]
      rcases fields ts c₁ with ⟨e | xs, c₂⟩
      · rfl
      · rfl

end Cursor

namespace Generated

/-- What the body that is generated for a record does to a cursor, whatever column types its field
types stand for. -/
theorem Faithful.run_read {fs : RecordFields} {r : ReadingBody} {w : WritingBody}
    (h : Faithful fs r w) (type : Phrase → ColumnType) (c : Cursor) :
    (r.run (fun p => Cursor.read (type p)) fs).run.run c =
      let ts : Schema := fs.types.map type
      ((Cursor.fields ts c).1.map fun xs => some (ts.cells xs), (Cursor.fields ts c).2) := by
  have traversal : fs.types.mapM (fun p => Cursor.read (type p))
      = (fs.types.map type).mapM Cursor.read := by
    rw [List.mapM_map]
    rfl
  have run := Cursor.run_mapM_read (fs.types.map type) c
  rw [h.reads, traversal, map_eq_pure_bind, Cursor.run_bind, run]
  dsimp only
  rcases Cursor.fields (fs.types.map type) c with ⟨e | xs, c⟩
  · rfl
  · rfl

end Generated

end RecordRows
