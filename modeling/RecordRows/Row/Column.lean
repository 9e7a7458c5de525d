import RecordRows.Row.ColumnType
import RecordRows.Row.Error

/-!
One column: decoding a column value to a type and encoding it back. Decoding is lenient where no
information is lost: integers of both forms fit any integer type that can hold them, 0 and 1 are
booleans, and integers are read as the nearest floating-point number.
-/
namespace RecordRows

namespace Scalar

/-- The error for a value of a kind that a type does not read. -/
def refuse (expected : String) : Value → ColumnError
  | .null => .unexpectedNull
  | v => .typeMismatch expected v.kind

def decodeInt (k : IntKind) (n : Int) : Except ColumnError (Bounded k) :=
  match Bounded.ofInt? k n with
  | some n => .ok n
  | none => .error (.outOfRange k.name)

def decode : (s : Scalar) → Value → Except ColumnError s.Carrier
  | .bool, .bool b => .ok b
  | .bool, .int n =>
    if n.val = 0 then .ok false
    else if n.val = 1 then .ok true
    else .error (.outOfRange "bool")
  | .int k, .int n => decodeInt k n.val
  | .int k, .bigInt n => decodeInt k n
  | .float32, .float x =>
    let y := Binary32.narrow x
    if x.isFinite && y.isInfinite then .error (.outOfRange "f32") else .ok y
  | .float32, .int n => .ok (Binary32.ofInt n.val)
  | .float64, .float x => .ok x
  | .float64, .int n => .ok (Binary64.ofInt n.val)
  | .text, .text s => .ok s
  | .bytes, .bytes bs => .ok bs
  | .bigInt, .bigInt n => .ok n
  | .bigInt, .int n => .ok n.val
  | s, v => .error (refuse s.name v)

def encode : (s : Scalar) → s.Carrier → Value
  | .bool, b => .bool b
  | .int _, n => .int n.toInt64
  | .float32, x => .float x.widen
  | .float64, x => .float x
  | .text, s => .text s
  | .bytes, bs => .bytes bs
  | .bigInt, n => .bigInt n

end Scalar

namespace ColumnType

def decode : (t : ColumnType) → Value → Except ColumnError t.Carrier
  | .scalar s, v => s.decode v
  | .value, v => .ok v
  | .identifier _ content, v => content.decode v
  | .optional _, .null => .ok none
  | .optional t, v => (t.decode v).map some

def encode : (t : ColumnType) → t.Carrier → Value
  | .scalar s, x => s.encode x
  | .value, v => v
  | .identifier _ content, x => content.encode x
  | .optional _, none => .null
  | .optional t, some x => t.encode x

end ColumnType

end RecordRows
