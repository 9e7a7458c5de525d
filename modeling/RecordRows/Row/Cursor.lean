import RecordRows.Row.Column

/-!
A forward-only cursor over one row. Reading a column moves the cursor past it whether or not the
column converts; a read beyond the last column leaves the cursor where it is.
-/
namespace RecordRows

structure Cursor where
  row : Row
  position : Nat := 0
deriving DecidableEq, Repr

namespace Cursor

/-- The number of columns not yet read. -/
def remaining (c : Cursor) : Nat := c.row.length - c.position

def next (c : Cursor) (t : ColumnType) : Except RowError t.Carrier × Cursor :=
  match c.row[c.position]? with
  | none => (.error (.exhausted c.position), c)
  | some v => ((t.decode v).mapError (.column c.position), { c with position := c.position + 1 })

/-- Reads one column per field, in order, up to the first failure. -/
def fields : (ts : Schema) → (c : Cursor) → Except RowError ts.Fields × Cursor
  | [], c => (.ok (), c)
  | t :: ts, c =>
    match c.next t with
    | (.error e, c) => (.error e, c)
    | (.ok x, c) =>
      match fields ts c with
      | (.error e, c) => (.error e, c)
      | (.ok xs, c) => (.ok (x, xs), c)

end Cursor

/-- A step of a program that reads from one cursor and keeps a stack of saved ones. -/
inductive Cursor.Step where
  | next (t : ColumnType)
  | fields (ts : Schema)
  | save
  | restore
deriving DecidableEq, Repr

/-- What a step answers. -/
inductive Cursor.Answer where
  | column (t : ColumnType) (result : Except RowError t.Carrier)
  | fields (ts : Schema) (result : Except RowError ts.Fields)
  | saved
  | restored
  | nothingSaved

/-- A cursor with the cursors saved so far, the latest first. -/
structure Cursor.State where
  current : Cursor
  saved : List Cursor := []
deriving DecidableEq, Repr

def Cursor.State.step (s : State) : Step → Answer × State
  | .next t =>
    let (result, c) := s.current.next t
    (.column t result, { s with current := c })
  | .fields ts =>
    let (result, c) := Cursor.fields ts s.current
    (.fields ts result, { s with current := c })
  | .save => (.saved, { s with saved := s.current :: s.saved })
  | .restore =>
    match s.saved with
    | [] => (.nothingSaved, s)
    | c :: rest => (.restored, ⟨c, rest⟩)

/-- The answers of a run, each with the cursor it left behind. -/
def Cursor.State.run (s : State) : List Step → List (Answer × Cursor)
  | [] => []
  | step :: steps =>
    let (answer, s) := s.step step
    (answer, s.current) :: s.run steps

end RecordRows
