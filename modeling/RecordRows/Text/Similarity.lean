import RecordRows.Binary.Number

/-!
The similarity of two texts by Jaro and Winkler: characters match when they are equal and not too
far apart, each at most once; a common beginning counts extra. The measure is computed in double
precision, step by step.
-/
namespace RecordRows.Text

/-- Marks the first unmarked equal character between the positions `low` and `high`, if any;
`i` is the position of the first one given. -/
def claim? (c : Char) (low high : Nat) : Nat → List (Char × Bool) → Option (List (Char × Bool))
  | _, [] => none
  | i, (d, marked) :: rest =>
    if low ≤ i ∧ i < high ∧ c = d ∧ !marked then some ((d, true) :: rest)
    else (claim? c low high (i + 1) rest).map ((d, marked) :: ·)

/-- The characters of the first text that match, in order, and the second text with its marks. -/
def claimAll (range : Nat) : Nat → List Char → List (Char × Bool) → List Char × List (Char × Bool)
  | _, [], b => ([], b)
  | i, c :: cs, b =>
    match claim? c (i - range) (i + range + 1) 0 b with
    | some b =>
      let (matching, b) := claimAll range (i + 1) cs b
      (c :: matching, b)
    | none => claimAll range (i + 1) cs b

/-- A similarity between 0 and 1. -/
def jaro (a b : List Char) : Binary64 :=
  if a.isEmpty && b.isEmpty then .ofNat 1
  else
    let (matching, marked) := claimAll (max a.length b.length / 2 - 1) 0 a (b.map (·, false))
    if matching.isEmpty then .ofNat 0
    else
      let other := (marked.filter (·.2)).map (·.1)
      let transpositions := ((matching.zip other).filter fun (c, d) => c != d).length / 2
      let m := matching.length
      let share (k n : Nat) : Binary64 := (Binary64.ofNat k).div (.ofNat n)
      (((share m a.length).add (share m b.length)).add (share (m - transpositions) m)).div (.ofNat 3)

/-- The length of the common beginning. -/
def commonLength : List Char → List Char → Nat
  | c :: cs, d :: ds => if c = d then commonLength cs ds + 1 else 0
  | _, _ => 0

/-- The similarity with a bonus for up to four common first characters, for similar texts only. -/
def similarity (a b : List Char) : Binary64 :=
  let base := jaro a b
  if (Binary64.ofRatio false 7 10).less base then
    let bonus := (Binary64.ofRatio false 1 10).mul (.ofNat (min 4 (commonLength a b)))
    base.add (bonus.mul ((Binary64.ofNat 1).sub base))
  else base

/-- The first of the most similar candidates, if its similarity is more than 0.8. -/
def nearest? (s : String) (candidates : List String) : Option String :=
  let threshold := Binary64.ofRatio false 4 5
  let best := candidates.foldl
    (fun (best : Option String × Binary64) c =>
      let x := similarity s.toList c.toList
      if best.2.less x then (some c, x) else best) (none, threshold)
  best.1

end RecordRows.Text
