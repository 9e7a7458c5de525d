import RecordRows.Binary.Numeral
import RecordRows.Binary.Number

/-!
Reading a numeral as a double precision number by scaling: as many leading digits as fit 64 bits
form an integer, which is rounded, and then multiplied or divided by the nearest power of ten. The
result is exact for short numerals and may be off in the last place for long ones.
-/
namespace RecordRows.Binary.Numeral

/-- Appends digits to a 64-bit significand until one would overflow; answers the digits left. -/
def absorb (significand : Nat) : List Char → Nat × List Char
  | [] => (significand, [])
  | d :: ds =>
    let next := 10 * significand + digitValue d
    if twoTo 64 ≤ next then (significand, d :: ds) else absorb next ds

/-- The greatest power of ten that is a double precision number. -/
def greatestPower : Nat := 308

def power (n : Nat) : Binary64 := .ofNat (tenTo n)

/-- Divides by `10 ^ k`, in steps no larger than the greatest power. -/
def scaleDown (x : Binary64) (k : Nat) : Binary64 :=
  if greatestPower < k then
    if x.equal (.ofNat 0) then x
    else scaleDown (x.div (power greatestPower)) (k - greatestPower)
  else x.div (power k)
termination_by k
decreasing_by simp only [greatestPower] at *; omega

/-- Multiplies by a power of ten; fails when the product is not finite. -/
def scale? (significand : Nat) (exponent : Int) : Option Binary64 :=
  let x := Binary64.ofNat significand
  if 0 ≤ exponent then
    if exponent ≤ greatestPower then
      let y := x.mul (power exponent.toNat)
      if y.isFinite then some y else none
    else if significand = 0 then some x else none
  else some (scaleDown x exponent.natAbs)

/-- The number a numeral is read as; fails when it is too large. -/
def toBinary64? (n : Numeral) : Option Binary64 := do
  let (significand, dropped) := absorb 0 n.whole
  let (significand, rest) := absorb significand n.fraction
  let exponent : Int := (dropped.length : Int) - (n.fraction.length - rest.length : Nat)
  let magnitude ← match n.exponent with
    | none => scale? significand exponent
    | some e =>
      let size := natOfDigits e.digits
      if twoTo 31 ≤ size then
        if significand ≠ 0 && e.sign != .minus then none else some (.ofNat 0)
      else scale? significand (if e.sign == .minus then exponent - size else exponent + size)
  return if n.negative then magnitude.neg else magnitude

end RecordRows.Binary.Numeral
