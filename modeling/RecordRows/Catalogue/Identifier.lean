import RecordRows.Derive.Capability
import RecordRows.Row.ColumnType

/-!
Identifier types at work: their values are compared, printed and defaulted through the scalars they
wrap, as far as their capabilities allow.
-/
namespace RecordRows

namespace Scalar

/-- The order of values; only floats can be unordered. Texts compare by code points, which is also
the order of their UTF-8 bytes. -/
def compare? : (s : Scalar) → s.Carrier → s.Carrier → Option Ordering
  | .bool, a, b => some (Ord.compare a.toNat b.toNat)
  | .int _, a, b => some (Ord.compare a.val b.val)
  | .float32, a, b => a.compare? b
  | .float64, a, b => a.compare? b
  | .text, a, b => some (Ord.compare a b)
  | .bytes, a, b => some (Ord.compare (a.map UInt8.toNat) (b.map UInt8.toNat))
  | .bigInt, a, b => some (Ord.compare a b)

def equal (s : Scalar) (a b : s.Carrier) : Bool := s.compare? a b == some .eq

/-- The text of a value, with a plus sign before numbers that are not negative where `signed`
holds. Floats and bytes have none. -/
def display? : (s : Scalar) → (signed : Bool) → s.Carrier → Option String
  | .int _, signed, n => some (signedText signed n.val)
  | .bigInt, signed, n => some (signedText signed n)
  | .text, _, t => some t
  | .bool, _, b => some (toString b)
  | _, _, _ => none
where
  signedText (signed : Bool) (n : Int) : String :=
    if signed && 0 ≤ n then "+" ++ toString n else toString n

/-- Zero, or nothing at all. -/
def default : (s : Scalar) → s.Carrier
  | .bool => false
  | .int k => Bounded.zero k
  | .float32 => Binary32.ofInt 0
  | .float64 => Binary64.ofInt 0
  | .text => ""
  | .bytes => []
  | .bigInt => (0 : Int)

end Scalar

/-- Fills a text with blanks up to a width in characters, before it or behind it. -/
def padLeft (width : Nat) (s : String) : String :=
  String.ofList (List.replicate (width - s.length) ' ') ++ s

def padRight (width : Nat) (s : String) : String :=
  s ++ String.ofList (List.replicate (width - s.length) ' ')

/-- An identifier type wraps a scalar. -/
structure IdentifierType where
  name : String
  content : Scalar
  capabilities : Capabilities

namespace IdentifierType

def type (t : IdentifierType) : ColumnType := .identifier t.name (.scalar t.content)

def has (t : IdentifierType) (d : DerivedTrait) : Bool := t.capabilities.derived.contains d

abbrev Carrier (t : IdentifierType) : Type := t.content.Carrier

def equal? (t : IdentifierType) (a b : t.Carrier) : Option Bool :=
  if t.has .partialEq then some (t.content.equal a b) else none

/-- The partial order, where there is one. -/
def partialCompare? (t : IdentifierType) (a b : t.Carrier) : Option (Option Ordering) :=
  if t.has .partialOrd then some (t.content.compare? a b) else none

def compare? (t : IdentifierType) (a b : t.Carrier) : Option Ordering :=
  if t.has .ord then t.content.compare? a b else none

/-- The text for debugging: the content inside the name of the type. -/
def debug? (t : IdentifierType) (a : t.Carrier) : Option String :=
  if t.has .debug then (t.content.display? false a).map fun s => s!"{t.name}({s})" else none

def display? (t : IdentifierType) (signed : Bool) (a : t.Carrier) : Option String :=
  if t.capabilities.contains .display then t.content.display? signed a else none

/-- The number of different values among two. -/
def distinct? (t : IdentifierType) (a b : t.Carrier) : Option Nat :=
  if t.has .hash && t.has .eq then some (if t.content.equal a b then 1 else 2) else none

def default? (t : IdentifierType) : Option t.Carrier :=
  if t.has .default then some t.content.default else none

end IdentifierType

end RecordRows
