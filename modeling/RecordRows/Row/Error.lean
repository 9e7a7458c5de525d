import RecordRows.Row.Value

/-!
Why decoding fails: a column error knows nothing of its position, a row error adds it.
-/
namespace RecordRows

/-- A column value that a type does not accept. -/
inductive ColumnError where
  | typeMismatch (expected : String) (found : Value.Kind)
  | outOfRange (target : String)
  | unexpectedNull
deriving DecidableEq, Repr

def ColumnError.message : ColumnError → String
  | .typeMismatch expected found => s!"expected {expected}, found {found.name}"
  | .outOfRange target => s!"value out of range for {target}"
  | .unexpectedNull => "unexpected NULL"

/-- A row that a record does not accept. Positions count from zero. -/
inductive RowError where
  | exhausted (position : Nat)
  | columnCount (expected found : Nat)
  | column (position : Nat) (source : ColumnError)
deriving DecidableEq, Repr

namespace RowError

def message : RowError → String
  | .exhausted position => s!"row exhausted: no column at position {position}"
  | .columnCount expected found => s!"column count mismatch: expected {expected}, found {found}"
  | .column position source => s!"column {position}: {source.message}"

/-- The column an error refers to. -/
def position? : RowError → Option Nat
  | .exhausted position => some position
  | .columnCount .. => none
  | .column position _ => some position

/-- The column error underneath. -/
def source? : RowError → Option ColumnError
  | .column _ source => some source
  | _ => none

end RowError

end RecordRows
