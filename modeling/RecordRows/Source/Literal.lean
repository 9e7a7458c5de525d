import RecordRows.Text.StringLiteral

/-!
What a literal is, told by its spelling. A number is a float when it has a point or an exponent, and
an integer otherwise, whatever its suffix says.
-/
namespace RecordRows.Source

open Text

inductive LiteralForm where
  | string | byteString | byte | char | int | float | bool | other
deriving DecidableEq, Repr

namespace LiteralForm

def name : LiteralForm → String
  | .string => "string"
  | .byteString => "byte string"
  | .byte => "byte"
  | .char => "char"
  | .int => "int"
  | .float => "float"
  | .bool => "bool"
  | .other => "unknown"

/-- Whether what follows the letter `e` of a decimal number makes it an exponent rather than the
beginning of a suffix. -/
def isExponent (valued : Bool) : List Char → Bool
  | [] => valued
  | c :: cs =>
    if c == '_' then isExponent valued cs
    else if c == '+' || c == '-' then true
    else if c.isDigit then isExponent true cs
    else valued

/-- A number by what follows its digits. -/
def ofNumber (cs : List Char) : LiteralForm :=
  match cs with
  | '0' :: 'x' :: _ | '0' :: 'o' :: _ | '0' :: 'b' :: _ => .int
  | _ =>
    match cs.dropWhile fun c => c.isDigit || c == '_' with
    | '.' :: _ => .float
    | 'e' :: rest | 'E' :: rest => if isExponent false rest then .float else .int
    | _ => .int

/-- The form of a literal, which may have a minus sign before a number. -/
def ofChars : List Char → LiteralForm
  | '"' :: _ | 'r' :: _ => .string
  | 'b' :: '"' :: _ | 'b' :: 'r' :: _ => .byteString
  | 'b' :: _ => .byte
  | '\'' :: _ => .char
  | 'c' :: _ => .other
  | 't' :: _ | 'f' :: _ => .bool
  | '-' :: cs => ofNumber cs
  | cs => ofNumber cs

def ofText (text : String) : LiteralForm := ofChars text.toList

end LiteralForm

/-- The value of an integer literal without suffix that fits in 32 bits. -/
def index? (text : String) : Option Nat := do
  let (base, digits) := match text.toList with
    | '0' :: 'x' :: cs => (16, cs)
    | '0' :: 'o' :: cs => (8, cs)
    | '0' :: 'b' :: cs => (2, cs)
    | cs => (10, cs)
  let values ← (digits.filter (· != '_')).mapM hexValue?
  if values.isEmpty || values.any (base ≤ ·) then none
  else
    let n := values.foldl (fun n d => base * n + d) 0
    if n < 4294967296 then some n else none

/-- The content of a string literal, whose suffix does not count. -/
def stringContent? (text : String) : Option String :=
  (unquote? text.toList).map fun r => String.ofList r.1

end RecordRows.Source
