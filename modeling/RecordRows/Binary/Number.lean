import RecordRows.Binary.Format

/-!
Double and single precision numbers as bit patterns, with the arithmetic the library needs: every
operation is exact on the readings and rounds once.
-/
namespace RecordRows

open Binary

/-- A double precision number. -/
structure Binary64 where
  bits : UInt64
deriving DecidableEq, Repr

/-- A single precision number. -/
structure Binary32 where
  bits : UInt32
deriving DecidableEq, Repr

namespace Binary

def Reading.negative : Reading → Bool
  | .nan => false
  | .infinite s => s
  | .finite s _ _ => s

def Reading.isFinite : Reading → Bool
  | .finite .. => true
  | _ => false

/-- The integer numerator of a finite reading over the common denominator `2 ^ shift`. -/
def scaled (negative : Bool) (m : Nat) (q : Int) (shift : Nat) : Int :=
  let n := m * twoTo (q + shift).toNat
  if negative then -(n : Int) else n

/-- The order of two readings: zeros are equal, and a NaN is not comparable. -/
def Reading.compare? : Reading → Reading → Option Ordering
  | .nan, _ | _, .nan => none
  | .infinite s, .infinite t => some (Ord.compare t.toNat s.toNat)
  | .infinite s, .finite .. => some (if s then .lt else .gt)
  | .finite .., .infinite t => some (if t then .gt else .lt)
  | .finite s m q, .finite t n r =>
    let shift := (max (-q) (-r)).toNat
    some (Ord.compare (scaled s m q shift) (scaled t n r shift))

end Binary

namespace Binary64

def read (x : Binary64) : Reading := Format.double.read x.bits.toNat

def ofPattern (n : Nat) : Binary64 := ⟨UInt64.ofNat n⟩

def ofReading (r : Reading) : Binary64 := ofPattern (Format.double.write r)

def nan : Binary64 := ofReading .nan

def isNaN (x : Binary64) : Bool := x.read == .nan

def isFinite (x : Binary64) : Bool := x.read.isFinite

def compare? (x y : Binary64) : Option Ordering := x.read.compare? y.read

/-- Numeric equality: a NaN differs from itself and the two zeros are equal. -/
def equal (x y : Binary64) : Bool := x.compare? y == some .eq

def less (x y : Binary64) : Bool := x.compare? y == some .lt

/-- The number nearest to the quotient `num / den`. -/
def ofRatio (negative : Bool) (num den : Nat) : Binary64 :=
  ofPattern (Format.double.round negative num den)

def ofNat (n : Nat) : Binary64 := ofRatio false n 1

def ofInt (n : Int) : Binary64 := ofRatio (n < 0) n.natAbs 1

def neg (x : Binary64) : Binary64 := ⟨x.bits ^^^ 0x8000000000000000⟩

def add (x y : Binary64) : Binary64 :=
  match x.read, y.read with
  | .nan, _ | _, .nan => nan
  | .infinite s, .infinite t => if s == t then x else nan
  | .infinite _, .finite .. => x
  | .finite .., .infinite _ => y
  | .finite s m q, .finite t n r =>
    let shift := (max (-q) (-r)).toNat
    let sum := scaled s m q shift + scaled t n r shift
    ofRatio (if sum = 0 then s && t else sum < 0) sum.natAbs (twoTo shift)

def sub (x y : Binary64) : Binary64 := x.add y.neg

def mul (x y : Binary64) : Binary64 :=
  match x.read, y.read with
  | .nan, _ | _, .nan => nan
  | .finite s m q, .finite t n r =>
    let e := q + r
    ofRatio (s != t) (m * n * twoTo e.toNat) (twoTo (-e).toNat)
  | a, b =>
    if x.read.compare? (.finite false 0 0) == some .eq
        || y.read.compare? (.finite false 0 0) == some .eq then nan
    else ofReading (.infinite (a.negative != b.negative))

def div (x y : Binary64) : Binary64 :=
  match x.read, y.read with
  | .nan, _ | _, .nan => nan
  | .infinite _, .infinite _ => nan
  | .infinite s, .finite t _ _ => ofReading (.infinite (s != t))
  | .finite s _ _, .infinite t => ofReading (.finite (s != t) 0 0)
  | .finite s m q, .finite t n r =>
    if n = 0 then if m = 0 then nan else ofReading (.infinite (s != t))
    else
      let e := q - r
      ofRatio (s != t) (m * twoTo e.toNat) (n * twoTo (-e).toNat)

end Binary64

namespace Binary32

def read (x : Binary32) : Reading := Format.single.read x.bits.toNat

def ofPattern (n : Nat) : Binary32 := ⟨UInt32.ofNat n⟩

def ofReading (r : Reading) : Binary32 := ofPattern (Format.single.write r)

def isNaN (x : Binary32) : Bool := x.read == .nan

def isInfinite (x : Binary32) : Bool :=
  match x.read with
  | .infinite _ => true
  | _ => false

def compare? (x y : Binary32) : Option Ordering := x.read.compare? y.read

/-- The number nearest to an integer, rounded once. -/
def ofInt (n : Int) : Binary32 := ofPattern (Format.single.round (n < 0) n.natAbs 1)

/-- Every single precision number is a double precision number. -/
def widen (x : Binary32) : Binary64 := .ofReading x.read

/-- The single precision number nearest to a double precision one. -/
def narrow (x : Binary64) : Binary32 := ofReading x.read

end Binary32

end RecordRows
