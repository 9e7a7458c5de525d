import RecordRows.Source.Token

/-!
Grammar rules. A rule consumes tokens and prints what it has read: every operator of the grammar as
a unit of its own, everything else as it stands. Inside a group the closing token counts as the end.
-/
namespace RecordRows.Source

/-- What a rule misses at the place where it fails. -/
inductive SyntaxProblem where
  | expected (what : String)
  | nestedAttribute
  | excessToken
  | excluded (what : String)
deriving DecidableEq, Repr

def SyntaxProblem.text : SyntaxProblem → String
  | .expected what => s!"expected {what}"
  | .nestedAttribute => "unexpected attribute inside of attribute"
  | .excessToken => "unexpected token"
  | .excluded what => what

/-- A failure at a token, or at the end of a group or of the whole text; only the latter has no
place. -/
structure SyntaxError where
  problem : SyntaxProblem
  atEnd : Bool
  place? : Option Span
deriving DecidableEq, Repr

def SyntaxError.message (e : SyntaxError) : String :=
  (if e.atEnd then "unexpected end of input, " else "") ++ e.problem.text

/-- The tokens a rule has before it, and what has been printed so far, the last lexeme first. -/
structure Progress where
  tokens : List Token
  printed : Phrase := []

abbrev Rule := StateT Progress (Except SyntaxError)

/-! ## Looking ahead -/

namespace Ahead

def isEnd : List Token → Bool
  | [] => true
  | t :: _ =>
    match t.lexeme with
    | .closing _ => true
    | _ => false

def word? : List Token → Option String
  | ⟨.word w, _⟩ :: _ => some w
  | _ => none

def isWord (w : String) (ts : List Token) : Bool := word? ts == some w

/-- Words that name nothing. -/
def keywords : List String :=
  ["_", "abstract", "as", "async", "await", "become", "box", "break", "const", "continue", "crate",
    "do", "dyn", "else", "enum", "extern", "false", "final", "fn", "for", "if", "impl", "in", "let",
    "loop", "macro", "match", "mod", "move", "mut", "override", "priv", "pub", "ref", "return",
    "Self", "self", "static", "struct", "super", "trait", "true", "try", "type", "typeof", "unsafe",
    "unsized", "use", "virtual", "where", "while", "yield"]

def isKeyword (w : String) : Bool := keywords.contains w

def isIdentifier (ts : List Token) : Bool := (word? ts).any fun w => !isKeyword w

def isAnyWord (ts : List Token) : Bool := (word? ts).isSome

/-- Whether the characters of an operator follow one another; what comes after the last one does
not matter. -/
def isOperatorChars : List Char → List Token → Bool
  | [], _ => true
  | [c], ⟨.punct d _, _⟩ :: _ => c == d
  | c :: cs, ⟨.punct d true, _⟩ :: ts => c == d && isOperatorChars cs ts
  | _, _ => false

def isOperator (s : String) (ts : List Token) : Bool := isOperatorChars s.toList ts

def isGroup (d : Delimiter) : List Token → Bool
  | ⟨.opening e, _⟩ :: _ => d == e
  | _ => false

def isAnyGroup (ts : List Token) : Bool :=
  isGroup .paren ts || isGroup .bracket ts || isGroup .brace ts

def isLifetime : List Token → Bool
  | ⟨.punct c joint, _⟩ :: ⟨.word _, _⟩ :: _ => c == '\'' && joint
  | _ => false

/-- What follows the group that is `depth` levels deep at this place. -/
def afterGroup : Nat → List Token → List Token
  | _, [] => []
  | depth, ⟨.opening _, _⟩ :: ts => afterGroup (depth + 1) ts
  | 0, ⟨.closing _, _⟩ :: ts => ts
  | 1, ⟨.closing _, _⟩ :: ts => ts
  | depth + 2, ⟨.closing _, _⟩ :: ts => afterGroup (depth + 1) ts
  | depth, _ :: ts => afterGroup depth ts

/-- What follows the next token, where a group and a lifetime count as one. Nothing follows the
end of a group. -/
def next : List Token → List Token
  | [] => []
  | ts@(⟨.opening _, _⟩ :: _) => afterGroup 0 ts
  | ts@(⟨.closing _, _⟩ :: _) => ts
  | ts@(_ :: rest) => if isLifetime ts then rest.drop 1 else rest

end Ahead

/-! ## Elementary rules -/

namespace Rule

def ahead : Rule (List Token) := do return (← get).tokens

def sees (test : List Token → Bool) : Rule Bool := do return test (← ahead)

def atEnd : Rule Bool := sees Ahead.isEnd

def seesWord (w : String) : Rule Bool := sees (Ahead.isWord w)

def seesOperator (s : String) : Rule Bool := sees (Ahead.isOperator s)

def seesGroup (d : Delimiter) : Rule Bool := sees (Ahead.isGroup d)

/-- Fails at the next token. -/
def fail {α : Type} (problem : SyntaxProblem) : Rule α := do
  let ts ← ahead
  throw ⟨problem, Ahead.isEnd ts, ts.head?.map (·.span)⟩

def print (p : Phrase) : Rule Unit := modify fun s => { s with printed := p.reverse ++ s.printed }

/-- Drops tokens without printing them. -/
def drop (n : Nat) : Rule Unit := modify fun s => { s with tokens := s.tokens.drop n }

/-- Prints the next token as it stands. -/
def take : Rule Unit := do
  match ← ahead with
  | [] => fail (.expected "token")
  | t :: _ =>
    drop 1
    print [t.lexeme]

def operator? (s : String) : Rule Bool := do
  if ← seesOperator s then
    drop s.length
    print (Phrase.operator s)
    return true
  else return false

def operator (s : String) : Rule Unit := do
  unless ← operator? s do fail (.expected ("`" ++ s ++ "`"))

def word? (w : String) : Rule Bool := do
  if ← seesWord w then
    take
    return true
  else return false

def word (w : String) : Rule Unit := do
  unless ← word? w do fail (.expected ("`" ++ w ++ "`"))

/-- Any word, keywords included. -/
def anyWord : Rule String := do
  match Ahead.word? (← ahead) with
  | some w =>
    take
    return w
  | none => fail (.expected "ident")

def identifier : Rule String := do
  if ← sees Ahead.isIdentifier then anyWord else fail (.expected "identifier")

def lifetime : Rule Unit := do
  if ← sees Ahead.isLifetime then
    take
    take
  else fail (.expected "lifetime")

/-- A group whose content is read to its end. -/
def group {α : Type} (d : Delimiter) (content : Rule α) : Rule α := do
  if ← seesGroup d then
    take
    let a ← content
    match ← ahead with
    | ⟨.closing _, _⟩ :: _ =>
      take
      return a
    | _ => fail .excessToken
  else
    fail (.expected (match d with
      | .paren => "parentheses"
      | .bracket => "square brackets"
      | .brace => "curly braces"))

/-- Prints the next `n` tokens as they stand. -/
def takeMany (n : Nat) : Rule Unit := do
  let ts ← ahead
  drop n
  print ((ts.take n).map (·.lexeme))

/-- Prints the next token or the whole group as it stands. -/
def takeTree : Rule Unit := do
  let ts ← ahead
  takeMany (ts.length - (Ahead.next ts).length)

/-- The tokens consumed between two places. -/
def consumed (before after : List Token) : List Token := before.take (before.length - after.length)

/-- What a rule prints, kept apart. -/
def captured {α : Type} (r : Rule α) : Rule (α × Phrase) := do
  let outer := (← get).printed
  modify fun s => { s with printed := [] }
  let a ← r
  let phrase := (← get).printed.reverse
  modify fun s => { s with printed := outer }
  return (a, phrase)

/-- Reads by a rule, but prints the tokens as they stand. -/
def verbatim {α : Type} (r : Rule α) : Rule α := do
  let before ← ahead
  let (a, _) ← captured r
  print ((consumed before (← ahead)).map (·.lexeme))
  return a

/-- The stretch of source that a rule reads. -/
def spanned {α : Type} (r : Rule α) : Rule (α × Option Span) := do
  let before ← ahead
  let a ← r
  return (a, Span.ofTokens? (consumed before (← ahead)))

/-- Repeats a step while it answers with a result, at most `fuel` times. -/
def repeatFor {α : Type} (step : Rule (Option α)) : Nat → Rule (List α)
  | 0 => return []
  | fuel + 1 => do
    match ← step with
    | none => return []
    | some a => return a :: (← repeatFor step fuel)

/-- Repeats a step while it answers with a result. A step that does consumes a token, which bounds
their number. -/
def collect {α : Type} (step : Rule (Option α)) : Rule (List α) := do
  repeatFor step ((← ahead).length + 1)

/-- Repeats a step while it answers `true`. -/
def loop (step : Rule Bool) : Rule Unit := do
  let _ ← collect do
    if ← step then return some () else return none

/-- Items up to the place where `stops` holds, each followed by a comma or by that place. -/
def commasUntil {α : Type} (stops : Rule Bool) (item : Rule α) : Rule (List α) := collect do
  if ← stops then return none
  let a ← item
  unless ← stops do operator ","
  return some a

/-- Items with commas up to the end of a group. -/
def commaList {α : Type} (item : Rule α) : Rule (List α) := commasUntil atEnd item

/-- At least one item, and more of them as long as signs follow; after a sign the items end unless
`goesOn` holds. The answer tells whether they end after a sign. -/
def sumFor {α : Type} (sign : String) (goesOn : Rule Bool) (item : Rule α) : Nat → Rule (List α × Bool)
  | 0 => return ([], false)
  | fuel + 1 => do
    let a ← item
    if ← operator? sign then
      if ← goesOn then
        let (rest, trailing) ← sumFor sign goesOn item fuel
        return (a :: rest, trailing)
      else return ([a], true)
    else return ([a], false)

def sum {α : Type} (sign : String) (goesOn : Rule Bool) (item : Rule α) : Rule (List α × Bool) := do
  sumFor sign goesOn item ((← ahead).length + 1)

/-- Reads all of a text. -/
def readAll {α : Type} (r : Rule α) (ts : List Token) : Except SyntaxError (α × Phrase) := do
  let whole : Rule α := do
    let a ← r
    match ← ahead with
    | [] => return a
    | _ => fail .excessToken
  let (a, s) ← whole.run { tokens := ts }
  return (a, s.printed.reverse)

end Rule

end RecordRows.Source
