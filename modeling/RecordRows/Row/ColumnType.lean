import RecordRows.Row.Value

/-!
Column types and the values that inhabit them. A type is a scalar, the untyped column value, an
identifier wrapping another type, or an optional type; `Carrier` is the family of its values.
-/
namespace RecordRows

/-- The types that hold one unit of data. -/
inductive Scalar where
  | bool
  | int (k : IntKind)
  | float32
  | float64
  | text
  | bytes
  | bigInt
deriving DecidableEq, Repr

namespace Scalar

/-- The name a scalar goes by in declarations and in error messages. -/
def name : Scalar → String
  | .bool => "bool"
  | .int k => k.name
  | .float32 => "f32"
  | .float64 => "f64"
  | .text => "String"
  | .bytes => "Vec<u8>"
  | .bigInt => "BigInt"

def all : List Scalar :=
  [.bool, .float32, .float64, .text, .bytes, .bigInt] ++ IntKind.all.map .int

def ofName? (s : String) : Option Scalar := all.find? (·.name == s)

abbrev Carrier : Scalar → Type
  | .bool => Bool
  | .int k => Bounded k
  | .float32 => Binary32
  | .float64 => Binary64
  | .text => String
  | .bytes => List UInt8
  | .bigInt => Int

end Scalar

/-- The type a column is decoded to and encoded from. -/
inductive ColumnType where
  | scalar (s : Scalar)
  /-- Any column value, taken as it is. -/
  | value
  /-- An identifier type: a named wrapper around the type of its content. -/
  | identifier (name : String) (content : ColumnType)
  | optional (t : ColumnType)
deriving DecidableEq, Repr

namespace ColumnType

abbrev Carrier : ColumnType → Type
  | .scalar s => s.Carrier
  | .value => Value
  | .identifier _ content => content.Carrier
  | .optional t => Option t.Carrier

/-- The type under all optional layers. -/
def core : ColumnType → ColumnType
  | .optional t => t.core
  | t => t

end ColumnType

/-- The column types of a record, in the order of its fields. -/
abbrev Schema := List ColumnType

namespace Schema

/-- One value per field. -/
abbrev Fields : Schema → Type
  | [] => Unit
  | t :: ts => t.Carrier × Fields ts

end Schema

end RecordRows
