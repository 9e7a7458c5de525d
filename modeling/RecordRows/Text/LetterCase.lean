import RecordRows.Text.LetterCaseTable

/-!
Lower and upper case of texts, by the full Unicode mappings. A capital sigma at the end of a word
becomes the final form: some cased character stands before it and none after it, where ignorable
characters in between do not count.
-/
namespace RecordRows.Text

/-- The image of a character beyond ASCII under a mapping. -/
def caseImage (runs : List CaseRun) (expansions : List (Nat × List Nat)) (c : Char) : List Char :=
  match expansions.lookup c.toNat with
  | some image => image.map Char.ofNat
  | none =>
    match runs.find? (·.contains c.toNat) with
    | some r => [Char.ofNat (r.target + (c.toNat - r.first))]
    | none => [c]

def lowerChar (c : Char) : List Char :=
  if c.toNat < 128 then [c.toLower] else caseImage lowerRuns lowerExpansions c

def upperChar (c : Char) : List Char :=
  if c.toNat < 128 then [c.toUpper] else caseImage upperRuns upperExpansions c

def capitalSigma : Char := '\u03a3'

def finalSigma : Char := '\u03c2'

/-- The first character that is not ignorable has case. -/
def startsCased (cs : List Char) : Bool :=
  match cs.dropWhile caseIgnorable.contains with
  | [] => false
  | c :: _ => cased.contains c

/-- Lower case of the rest of a text; `afterCased` tells whether the last character before it that
is not ignorable has case. -/
def lowerFrom (afterCased : Bool) : List Char → List Char
  | [] => []
  | c :: cs =>
    (if c = capitalSigma && afterCased && !startsCased cs then [finalSigma] else lowerChar c)
      ++ lowerFrom (if caseIgnorable.contains c then afterCased else cased.contains c) cs

def lower (cs : List Char) : List Char := lowerFrom false cs

def upper (cs : List Char) : List Char := cs.flatMap upperChar

/-- The first character in upper case, the rest in lower case as a text of its own. -/
def capital : List Char → List Char
  | [] => []
  | c :: cs => upperChar c ++ lower cs

end RecordRows.Text
