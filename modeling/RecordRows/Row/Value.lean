import RecordRows.Binary.Number

/-!
Column values: what a database column holds, independent of the type a record wants to see in it.
Integers come in two forms, a 64-bit one and one of unbounded size.
-/
namespace RecordRows

/-- The fixed-width integer types. -/
inductive IntKind where
  | i8 | i16 | i32 | i64 | u8 | u16 | u32
deriving DecidableEq, Repr

namespace IntKind

def name : IntKind → String
  | .i8 => "i8"
  | .i16 => "i16"
  | .i32 => "i32"
  | .i64 => "i64"
  | .u8 => "u8"
  | .u16 => "u16"
  | .u32 => "u32"

def all : List IntKind := [.i8, .i16, .i32, .i64, .u8, .u16, .u32]

def least : IntKind → Int
  | .i8 => -128
  | .i16 => -32768
  | .i32 => -2147483648
  | .i64 => -9223372036854775808
  | .u8 | .u16 | .u32 => 0

def greatest : IntKind → Int
  | .i8 => 127
  | .i16 => 32767
  | .i32 => 2147483647
  | .i64 => 9223372036854775807
  | .u8 => 255
  | .u16 => 65535
  | .u32 => 4294967295

end IntKind

/-- An integer of a fixed-width type. -/
structure Bounded (k : IntKind) where
  val : Int
  least_le : k.least ≤ val
  le_greatest : val ≤ k.greatest
deriving DecidableEq

namespace Bounded

instance (k : IntKind) : Repr (Bounded k) := ⟨fun n => reprPrec n.val⟩

def ofInt? (k : IntKind) (n : Int) : Option (Bounded k) :=
  if h : k.least ≤ n ∧ n ≤ k.greatest then some ⟨n, h.1, h.2⟩ else none

/-- Every fixed-width integer is a 64-bit one. -/
def toInt64 {k : IntKind} (n : Bounded k) : Bounded .i64 :=
  ⟨n.val,
    by have := n.least_le; cases k <;> simp only [IntKind.least] at * <;> omega,
    by have := n.le_greatest; cases k <;> simp only [IntKind.greatest] at * <;> omega⟩

def zero (k : IntKind) : Bounded k :=
  ⟨0, by cases k <;> decide, by cases k <;> decide⟩

end Bounded

/-- A column value. -/
inductive Value where
  | null
  | bool (b : Bool)
  | int (n : Bounded .i64)
  | float (x : Binary64)
  | text (s : String)
  | bytes (bs : List UInt8)
  | bigInt (n : Int)
deriving DecidableEq, Repr

/-- A row holds its columns in order. -/
abbrev Row := List Value

namespace Value

/-- The kind of a value, without its content. -/
inductive Kind where
  | null | bool | int | float | text | bytes | bigInt
deriving DecidableEq, Repr

def Kind.name : Kind → String
  | .null => "null"
  | .bool => "bool"
  | .int => "int"
  | .float => "float"
  | .text => "text"
  | .bytes => "bytes"
  | .bigInt => "bigint"

def kind : Value → Kind
  | .null => .null
  | .bool _ => .bool
  | .int _ => .int
  | .float _ => .float
  | .text _ => .text
  | .bytes _ => .bytes
  | .bigInt _ => .bigInt

def isNull (v : Value) : Bool := v.kind == .null

/-- Values are equal when kind and content are; floats compare as numbers, so a NaN differs from
itself and the two zeros are equal. -/
def equal : Value → Value → Bool
  | .float x, .float y => x.equal y
  | a, b => a == b

end Value

end RecordRows
