/-!
Decimal numerals as they are written: a sign, whole digits, fraction digits and an exponent.
-/
namespace RecordRows.Binary

inductive ExponentSign where
  | none | plus | minus
deriving DecidableEq, Repr

structure Exponent where
  sign : ExponentSign
  digits : List Char
deriving DecidableEq, Repr

/-- A numeral without fraction digits has no decimal point. -/
structure Numeral where
  negative : Bool
  whole : List Char
  fraction : List Char
  exponent : Option Exponent
deriving DecidableEq, Repr

namespace Numeral

def digits (n : Nat) : List Char := Nat.toDigits 10 n

def zeros (n : Nat) : List Char := List.replicate n '0'

def digitValue (c : Char) : Nat := c.toNat - '0'.toNat

/-- The number that a list of digits stands for. -/
def natOfDigits (ds : List Char) : Nat := ds.foldl (fun n c => 10 * n + digitValue c) 0

def ofInt (n : Int) : Numeral := ⟨n < 0, digits n.natAbs, [], none⟩

def ExponentSign.chars : ExponentSign → List Char
  | .none => []
  | .plus => ['+']
  | .minus => ['-']

def chars (n : Numeral) : List Char :=
  (if n.negative then ['-'] else []) ++ n.whole
    ++ (if n.fraction.isEmpty then [] else '.' :: n.fraction)
    ++ match n.exponent with
      | none => []
      | some e => 'e' :: ExponentSign.chars e.sign ++ e.digits

def text (n : Numeral) : String := String.ofList n.chars

/-- The integer a numeral spells, if it has neither fraction nor exponent. -/
def toInt? (n : Numeral) : Option Int :=
  if n.fraction.isEmpty && n.exponent.isNone then
    let size : Int := natOfDigits n.whole
    some (if n.negative then -size else size)
  else none

end Numeral

end RecordRows.Binary
