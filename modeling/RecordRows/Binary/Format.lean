/-!
Binary interchange formats over bit patterns: reading a pattern as an exact dyadic number, and
rounding an exact quotient to the nearest pattern, ties to even.

A finite pattern stands for `± m · 2^q`. The pattern of a magnitude is `(q - q₀) · 2^F + m`, where
`q₀` is the exponent of the smallest subnormal, so patterns of one sign are ordered as their values.
-/
namespace RecordRows.Binary

/-- The power `2 ^ n`. -/
def twoTo (n : Nat) : Nat := Nat.pow 2 n

/-- The power `10 ^ n`. -/
def tenTo (n : Nat) : Nat := Nat.pow 10 n

/-- A format keeps `fractionBits` digits after the leading one and `exponentBits` of exponent. -/
structure Format where
  fractionBits : Nat
  exponentBits : Nat
deriving DecidableEq, Repr

namespace Format

def double : Format := ⟨52, 11⟩
def single : Format := ⟨23, 8⟩

/-- The exponent field of infinities and NaNs. -/
def topExponent (f : Format) : Nat := twoTo f.exponentBits - 1

/-- `q₀`: one unit in the last place of a subnormal number is `2 ^ q₀`. -/
def leastExponent (f : Format) : Int := 2 - twoTo (f.exponentBits - 1) - f.fractionBits

/-- The pattern of positive infinity, which bounds the finite magnitudes. -/
def infinity (f : Format) : Nat := f.topExponent * twoTo f.fractionBits

/-- The weight of the sign bit. -/
def signBit (f : Format) : Nat := twoTo (f.fractionBits + f.exponentBits)

end Format

/-- What a bit pattern stands for. -/
inductive Reading where
  | nan
  | infinite (negative : Bool)
  | finite (negative : Bool) (significand : Nat) (exponent : Int)
deriving DecidableEq, Repr

namespace Format

def read (f : Format) (bits : Nat) : Reading :=
  let negative := bits / f.signBit % 2 == 1
  let magnitude := bits % f.signBit
  let fraction := magnitude % twoTo f.fractionBits
  let biased := magnitude / twoTo f.fractionBits
  if biased = f.topExponent then
    if fraction = 0 then .infinite negative else .nan
  else if biased = 0 then .finite negative fraction f.leastExponent
  else .finite negative (twoTo f.fractionBits + fraction) (f.leastExponent + (biased - 1 : Nat))

/-- The integer nearest to `num / den`, ties to even. -/
def nearest (num den : Nat) : Nat :=
  let low := num / den
  let rest := num % den
  if 2 * rest < den then low else if den < 2 * rest then low + 1 else low + low % 2

/-- The largest `e` with `2 ^ e ≤ num / den`, for positive arguments. -/
def floorLog2 (num den : Nat) : Int :=
  let e : Int := (num.log2 : Int) - den.log2
  if den * twoTo e.toNat ≤ num * twoTo (-e).toNat then e else e - 1

/-- The pattern of the magnitude nearest to `num / den`; past the largest finite one it is the
pattern of infinity. -/
def roundMagnitude (f : Format) (num den : Nat) : Nat :=
  if num = 0 then 0
  else
    let q := max f.leastExponent (floorLog2 num den - f.fractionBits)
    let m := nearest (num * twoTo (-q).toNat) (den * twoTo q.toNat)
    min f.infinity ((q - f.leastExponent).toNat * twoTo f.fractionBits + m)

def round (f : Format) (negative : Bool) (num den : Nat) : Nat :=
  (if negative then f.signBit else 0) + f.roundMagnitude num den

/-- The pattern of a reading; the NaN is the quiet one without payload. -/
def write (f : Format) : Reading → Nat
  | .nan => f.infinity + twoTo (f.fractionBits - 1)
  | .infinite negative => (if negative then f.signBit else 0) + f.infinity
  | .finite negative m q => f.round negative (m * twoTo q.toNat) (twoTo (-q).toNat)

end Format

end RecordRows.Binary
