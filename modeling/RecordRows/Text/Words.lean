import RecordRows.Text.Cluster
import RecordRows.Text.LetterCase

/-!
The words of a name. Underscores, hyphens and blanks separate words and are dropped; words also
end where letter case changes, around digits, and before the last capital of an acronym. Two
separators in a row leave an empty word between them.
-/
namespace RecordRows.Text

def isSeparator (cluster : List Char) : Bool :=
  cluster == ['_'] || cluster == ['-'] || cluster == [' ']

def isUpper (cluster : List Char) : Bool :=
  upper cluster != lower cluster && cluster == upper cluster

def isLower (cluster : List Char) : Bool :=
  upper cluster != lower cluster && cluster == lower cluster

def isNumeral (cluster : List Char) : Bool := cluster.all Char.isDigit

/-- Whether a word ends between `a` and `b`, given the clusters that follow. -/
def splitsBetween (a b : List Char) (after : List (List Char)) : Bool :=
  isLower a && isUpper b || isLower a && isNumeral b || isUpper a && isNumeral b
    || isNumeral a && isLower b || isNumeral a && isUpper b
    || isUpper a && isUpper b && match after with
      | [] => false
      | c :: _ => isLower c

/-- The words of the clusters, where `word` is the word read so far. -/
def wordsFrom (word : List Char) : List (List Char) → List (List Char)
  | [] => [word]
  | a :: rest =>
    if isSeparator a then word :: wordsFrom [] rest
    else
      match rest with
      | [] => [word ++ a]
      | b :: after =>
        if splitsBetween a b after then (word ++ a) :: wordsFrom [] (b :: after)
        else wordsFrom (word ++ a) (b :: after)

/-- The empty name has no words. -/
def words (name : List Char) : List (List Char) :=
  if name.isEmpty then [] else wordsFrom [] (clusters name)

/-- The parts with a separator between neighbours. -/
def joinWith (separator : List Char) : List (List Char) → List Char
  | [] => []
  | [w] => w
  | w :: ws => w ++ separator ++ joinWith separator ws

end RecordRows.Text
