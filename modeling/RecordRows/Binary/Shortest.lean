import RecordRows.Binary.Number
import RecordRows.Binary.Numeral

/-!
The shortest decimal text of a double precision number. Among the decimal grids `10^p · ℤ` the
coarsest one with a point inside the rounding interval of the number is taken, and on it the point
nearest to the number, so no shorter digit string reads back as the number.
-/
namespace RecordRows.Binary

/-- A positive decimal number `digits · 10 ^ exponent`. -/
structure Decimal where
  digits : Nat
  exponent : Int
deriving DecidableEq, Repr

/-- The reals that round to `m · 2 ^ q`, in units of `2 ^ (q - 2)`, and whether the ends round
to it too. -/
structure Interval where
  low : Nat
  value : Nat
  high : Nat
  closed : Bool

def Interval.ofSignificand (f : Format) (m : Nat) (q : Int) : Interval :=
  let gap := if m = twoTo f.fractionBits ∧ f.leastExponent < q then 1 else 2
  ⟨4 * m - gap, 4 * m, 4 * m + 2, m % 2 == 0⟩

/-- The point of the grid `10 ^ p · ℤ` nearest to the value, if the interval holds it or its
neighbour; a tie goes to the even one. -/
def Interval.gridPoint? (i : Interval) (q p : Int) : Option Nat :=
  let unit := twoTo (q - 2).toNat * tenTo (-p).toNat
  let step := twoTo (2 - q).toNat * tenTo p.toNat
  let holds (k : Nat) : Bool :=
    let point := k * step
    if i.closed then i.low * unit ≤ point && point ≤ i.high * unit
    else i.low * unit < point && point < i.high * unit
  let below := i.value * unit / step
  match holds below, holds (below + 1) with
  | true, true => some (Format.nearest (i.value * unit) step)
  | true, false => some below
  | false, true => some (below + 1)
  | false, false => none

/-- Searches the grids from `10 ^ p` downwards. -/
def Interval.coarsest (i : Interval) (q p : Int) : Nat → Decimal
  | 0 => ⟨i.value, p⟩
  | fuel + 1 =>
    match i.gridPoint? q p with
    | some k => ⟨k, p⟩
    | none => i.coarsest q (p - 1) fuel

/-- The shortest decimal that rounds to `m · 2 ^ q`, for a positive `m`. -/
def shortest (f : Format) (m : Nat) (q : Int) : Decimal :=
  (Interval.ofSignificand f m q).coarsest q 310 700

/-- How a decimal is laid out: exponents between `leastFixed` and `greatestFixed` are positional,
others are scientific with at least `exponentDigits` digits. -/
structure Layout where
  leastFixed : Int
  greatestFixed : Int
  exponentDigits : Nat
  plusSign : Bool
deriving DecidableEq, Repr

/-- A whole number keeps a fraction of `0` when it is laid out positionally. -/
def Layout.numeral (l : Layout) (negative : Bool) (d : Decimal) : Numeral :=
  let ds := Numeral.digits d.digits
  let e : Int := (ds.length : Int) - 1 + d.exponent
  if l.leastFixed ≤ e ∧ e ≤ l.greatestFixed then
    if 0 ≤ d.exponent then ⟨negative, ds ++ Numeral.zeros d.exponent.toNat, ['0'], none⟩
    else if 0 ≤ e then ⟨negative, ds.take (e.toNat + 1), ds.drop (e.toNat + 1), none⟩
    else ⟨negative, ['0'], Numeral.zeros (-e - 1).toNat ++ ds, none⟩
  else
    let size := Numeral.digits e.natAbs
    let sign := if e < 0 then .minus else if l.plusSign then .plus else .none
    ⟨negative, ds.take 1, ds.drop 1,
      some ⟨sign, Numeral.zeros (l.exponentDigits - size.length) ++ size⟩⟩

/-- The numeral of a finite number; a zero keeps its sign. -/
def Layout.numeral? (l : Layout) (x : Binary64) : Option Numeral :=
  match x.read with
  | .finite s m q =>
    if m = 0 then some ⟨s, ['0'], ['0'], none⟩ else some (l.numeral s (shortest .double m q))
  | _ => none

end RecordRows.Binary
