import RecordRows.Row.Cursor

/-!
Whole rows: a schema decodes a row of exactly its width and encodes its fields to one. Both report
what they did as events.
-/
namespace RecordRows

/-- Severity, most severe first. -/
inductive Level where
  | error | warn | info | debug | trace
deriving DecidableEq, Repr

namespace Level

def name : Level → String
  | .error => "ERROR"
  | .warn => "WARN"
  | .info => "INFO"
  | .debug => "DEBUG"
  | .trace => "TRACE"

/-- Grows with verbosity. -/
def rank : Level → Nat
  | .error => 1
  | .warn => 2
  | .info => 3
  | .debug => 4
  | .trace => 5

end Level

/-- What reading or writing a row reports. -/
inductive RowEvent where
  | widthMismatch (expected found : Nat)
  | decoded (columns : Nat)
  | encoded (columns : Nat)
deriving DecidableEq, Repr

namespace RowEvent

def level : RowEvent → Level
  | .widthMismatch .. => .debug
  | .decoded _ | .encoded _ => .trace

def message : RowEvent → String
  | .widthMismatch .. => "row width does not match decoder"
  | .decoded _ => "decoded row"
  | .encoded _ => "encoded row"

/-- The numbers attached to an event. -/
def numbers : RowEvent → List (String × Nat)
  | .widthMismatch expected found => [("expected", expected), ("found", found)]
  | .decoded columns => [("columns", columns)]
  | .encoded columns => [("columns", columns)]

end RowEvent

/-- A result with the events reported on the way. -/
structure Reported (α : Type) where
  result : α
  events : List RowEvent
deriving Repr

namespace Schema

/-- The number of columns a schema reads and writes. -/
def columns (ts : Schema) : Nat := ts.length

def toRow : (ts : Schema) → ts.Fields → Row
  | [], () => []
  | t :: ts, (x, xs) => t.encode x :: toRow ts xs

def decodeRow (ts : Schema) (row : Row) : Reported (Except RowError ts.Fields) :=
  if row.length ≠ ts.columns then
    ⟨.error (.columnCount ts.columns row.length), [.widthMismatch ts.columns row.length]⟩
  else
    match Cursor.fields ts { row } with
    | (.ok fields, c) => ⟨.ok fields, [.decoded c.position]⟩
    | (.error e, _) => ⟨.error e, []⟩

def encodeRow (ts : Schema) (fields : ts.Fields) : Reported Row :=
  let row := toRow ts fields
  ⟨row, [.encoded row.length]⟩

end Schema

end RecordRows
