import RecordRows.Demo.Log
import RecordRows.Derive.CaseRule

/-!
A session of a demonstration program with user accounts: it prepares an insert statement, decodes the
rows of a result set, binds the parameters of the accounts it found, and decodes the first of them
again. Everything it does is logged.
-/
namespace RecordRows.Demo

/-- An account: its number, its name, an address, and whether it may log in. -/
structure Account where
  id : Bounded .i64
  name : String
  email : Option String
  active : Bool
deriving DecidableEq

namespace Account

def schema : Schema :=
  [.scalar (.int .i64), .scalar .text, .optional (.scalar .text), .scalar .bool]

def ofFields : schema.Fields → Account
  | (id, name, email, active, ()) => ⟨id, name, email, active⟩

def fields (a : Account) : schema.Fields := (a.id, a.name, a.email, a.active, ())

end Account

def table : String := CaseRule.snake.convert "UserAccount"

def columns : List String := ["id", "name", "email", "active"]

/-- The statement that inserts a row, with one numbered place for each column. -/
def insertStatement (table : String) (columns : List String) : String :=
  let places := (List.range columns.length).map fun i => s!"${i + 1}"
  let list := String.intercalate ", "
  s!"INSERT INTO {table} ({list columns}) VALUES ({list places})"

/-- The rows of the result set. -/
def resultSet : List Row :=
  let int (n : Int) : Value := ((Bounded.ofInt? .i64 n).map Value.int).getD .null
  [[int 1, .text "ada", .text "ada@example.com", .bool true],
    [int 2, .text "brian", .null, int 0],
    [int 3, .null, .null, .bool true]]

def record (level : Level) (message : String) (fields : List (String × String)) : LogRecord :=
  ⟨level, "demo_basic", message, fields⟩

/-- A position as it is logged: with a word that tells whether there is one. -/
def positionText : Option Nat → String
  | some n => s!"Some({n})"
  | none => "None"

/-- Decodes a row; the row's own events come first. -/
def readAccount (row : Row) : List LogRecord × Option Account :=
  let answer := Account.schema.decodeRow row
  let events := answer.events.map LogRecord.ofRowEvent
  match answer.result.map Account.ofFields with
  | .ok a =>
    (events ++ [record .info "decoded user" [("id", toString a.id.val), ("name", a.name)]], some a)
  | .error e =>
    (events ++ [record .warn "skipping row"
      [("error", e.message), ("column", positionText e.position?)]], none)

def bindAccount (a : Account) : List LogRecord :=
  let answer := Account.schema.encodeRow a.fields
  answer.events.map LogRecord.ofRowEvent ++ [record .info "bound insert parameters"
    [("id", toString a.id.val), ("columns", toString answer.result.length),
      ("expected", toString Account.schema.columns)]]

/-- Encodes an account and decodes it again. -/
def rereadAccount (a : Account) : List LogRecord × Except RowError Unit :=
  let row := Account.schema.encodeRow a.fields
  let answer := Account.schema.decodeRow row.result
  let events := (row.events ++ answer.events).map LogRecord.ofRowEvent
  match answer.result.map Account.ofFields with
  | .ok b =>
    (events ++ [record .info "re-decoded first user" [("round_trip", toString (b == a))]], .ok ())
  | .error e => (events, .error e)

/-- The log of a session on the rows of a result set, and the error that ends it early, if any. -/
def session (rows : List Row) : List LogRecord × Except RowError Unit :=
  let prepared := record .info "prepared insert" [("sql", insertStatement table columns)]
  let answers := rows.map readAccount
  let accounts := answers.filterMap (·.2)
  let begun := prepared :: answers.flatMap (·.1) ++ accounts.flatMap bindAccount
  let counted := record .info "column counts"
    [("decoder_columns", toString Account.schema.columns),
      ("metadata_columns", toString columns.length)]
  match accounts with
  | [] => (begun ++ [counted], .ok ())
  | first :: _ =>
    match rereadAccount first with
    | (log, .ok ()) => (begun ++ log ++ [counted], .ok ())
    | (log, .error e) => (begun ++ log, .error e)

/-- What counts when no valid filter is given. -/
def standardFilter : LogFilter := [{ target? := some "demo_basic".toList, level := some .info }]

/-- The lines that a filter lets through, and the exit code. -/
def run (filter? : Option String) : List String × Nat :=
  let filter := (filter?.bind LogFilter.ofText?).getD standardFilter
  let (log, result) := session resultSet
  ((log.filter filter.admits).map LogRecord.text, if result.isOk then 0 else 1)

end RecordRows.Demo
