import RecordRows.Text.ClusterTable
import RecordRows.Text.VisibleTable

/-!
Clusters: what a reader takes for one character. A base character keeps the marks that extend it,
and joined pictographs stay together. The further rules of Unicode bind only characters without
letter case (syllable blocks, flags, conjuncts) and do not matter where words are split.
-/
namespace RecordRows.Text

def joiner : Char := '\u200d'

/-- Line ends and other controls are never joined to a neighbour. -/
def standsAlone (c : Char) : Bool := c == '\n' || c == '\r' || clusterControl.contains c

/-- Marks and skin tones extend the character before them. -/
def extends? (c : Char) : Bool :=
  attaching.contains c || (0x1f3fb ≤ c.toNat && c.toNat ≤ 0x1f3ff)

/-- Whether `c` continues the cluster whose characters, the last one first, are given. -/
def continues (reversed : List Char) (c : Char) : Bool :=
  match reversed with
  | [] => true
  | last :: before =>
    if last == '\r' && c == '\n' then true
    else if standsAlone last || standsAlone c then false
    else if extends? c || c == joiner || clusterSpacing.contains c || clusterPrepend.contains last then
      true
    else
      last == joiner && pictographic.contains c &&
        match before.dropWhile extends? with
        | [] => false
        | base :: _ => pictographic.contains base

def clustersFrom (reversed : List Char) : List Char → List (List Char)
  | [] => if reversed.isEmpty then [] else [reversed.reverse]
  | c :: cs =>
    if continues reversed c then clustersFrom (c :: reversed) cs
    else reversed.reverse :: clustersFrom [c] cs

def clusters (cs : List Char) : List (List Char) := clustersFrom [] cs

end RecordRows.Text
