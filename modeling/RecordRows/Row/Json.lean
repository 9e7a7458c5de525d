import RecordRows.Row.Value
import RecordRows.Binary.Shortest
import RecordRows.Binary.Scaled
import RecordRows.Json.Reader

/-!
The JSON form of column values. A value is an object with one member named for its kind; the null
value is a plain string. Big integers are a sign and base `2 ^ 32` digits, least significant first.
-/
namespace RecordRows

open Binary

namespace Value

/-- The name of a kind in JSON. -/
def Kind.tag : Kind → String
  | .null => "Null"
  | .bool => "Bool"
  | .int => "Int"
  | .float => "Float"
  | .text => "Text"
  | .bytes => "Bytes"
  | .bigInt => "BigInt"

def Kind.all : List Kind := [.null, .bool, .int, .float, .text, .bytes, .bigInt]

def Kind.ofTag? (tag : List Char) : Option Kind := all.find? (·.tag.toList == tag)

/-- Floats are written with the fewest digits, positionally from `1e-5` to below `1e16`. -/
def floatLayout : Layout := ⟨-5, 15, 2, true⟩

end Value

namespace BigDigits

/-- The base of the digits. -/
def base : Nat := 4294967296

/-- Digits of a magnitude, least significant first, none for zero. -/
def ofNat (n : Nat) : List Nat := if n = 0 then [] else n % base :: ofNat (n / base)
termination_by n
decreasing_by exact Nat.div_lt_self (Nat.pos_of_ne_zero (by assumption)) (by decide)

def toNat (ds : List Nat) : Nat := ds.foldr (fun d n => d + base * n) 0

end BigDigits

namespace Json

def ofNat (n : Nat) : Json := .number (.ofInt n)

def toInt? : Json → Option Int
  | .number n =>
    -- A negative zero is a float.
    if n.negative && n.toInt? == some 0 then none else n.toInt?
  | _ => none

/-- An integer from `0` to below `bound`. -/
def toNatBelow? (bound : Nat) (j : Json) : Option Nat := do
  let n ← j.toInt?
  if 0 ≤ n ∧ n < bound then some n.toNat else none

def toBytes? : Json → Option (List UInt8)
  | .array items => items.mapM fun j => (j.toNatBelow? 256).map UInt8.ofNat
  | _ => none

def ofBigInt (n : Int) : Json :=
  .array [.number (.ofInt n.sign), .array ((BigDigits.ofNat n.natAbs).map ofNat)]

/-- Any digits are accepted, also redundant ones; the sign `0` makes zero of all. -/
def toBigInt? : Json → Option Int
  | .array [sign, .array digits] => do
    let sign ← sign.toInt?
    if sign = -1 ∨ sign = 0 ∨ sign = 1 then
      let digits ← digits.mapM (toNatBelow? BigDigits.base)
      some (sign * BigDigits.toNat digits)
    else none
  | _ => none

end Json

namespace Value

def toJson (v : Value) : Json :=
  let tagged (content : Json) : Json := .object [(v.kind.tag.toList, content)]
  match v with
  | .null => .string v.kind.tag.toList
  | .bool b => tagged (.bool b)
  | .int n => tagged (.number (.ofInt n.val))
  | .float x => tagged (((floatLayout.numeral? x).map Json.number).getD .null)
  | .text s => tagged (.string s.toList)
  | .bytes bs => tagged (.array (bs.map fun b => .ofNat b.toNat))
  | .bigInt n => tagged (.ofBigInt n)

/-- A value of a kind from the content of its member. -/
def ofContent? : Kind → Json → Option Value
  | .null, .null => some .null
  | .bool, .bool b => some (.bool b)
  | .int, j => (j.toInt?.bind (Bounded.ofInt? .i64)).map .int
  | .float, .number n => n.toBinary64?.map .float
  | .text, .string s => some (.text (String.ofList s))
  | .bytes, j => j.toBytes?.map .bytes
  | .bigInt, j => j.toBigInt?.map .bigInt
  | _, _ => none

def ofJson? : Json → Option Value
  | .string tag => if Kind.ofTag? tag = some .null then some .null else none
  | .object [(tag, content)] => do ofContent? (← Kind.ofTag? tag) content
  | _ => none

def Kind.toJson (k : Kind) : Json := .string k.tag.toList

def Kind.ofJson? : Json → Option Kind
  | .string tag => Kind.ofTag? tag
  | .object [(tag, .null)] => Kind.ofTag? tag
  | _ => none

end Value

namespace Row

def toJson (row : Row) : Json := .array (row.map Value.toJson)

def ofJson? : Json → Option Row
  | .array items => items.mapM Value.ofJson?
  | _ => none

end Row

end RecordRows
