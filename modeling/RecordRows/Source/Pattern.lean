import RecordRows.Source.Type

/-!
Patterns, as they occur in expressions.
-/
namespace RecordRows.Source

open Rule

/-- A vertical bar between alternatives. -/
def isAlternative (ts : List Token) : Bool :=
  Ahead.isOperator "|" ts && !Ahead.isOperator "||" ts && !Ahead.isOperator "|=" ts

/-- Patterns with bars between them, and perhaps one before the first. -/
def alternatives (n : Nested) : Rule Unit := do
  let _ ← operator? "|"
  n.pattern
  loop do
    if ← sees isAlternative then
      operator "|"
      n.pattern
      return true
    else return false

def startsPath (ts : List Token) : Bool :=
  isModuleWord ts || Ahead.isOperator "::" ts || Ahead.isOperator "<" ts

/-- One end of a range, if there is one. -/
def rangeBound? (n : Nested) : Rule Bool := do
  let ts ← ahead
  if Ahead.isEnd ts || ["|", "=", ",", ";"].any (Ahead.isOperator · ts) || isLoneColon ts
      || Ahead.isWord "if" ts then
    return false
  else if (← literal?).isSome then return true
  else if startsPath ts then
    let _ ← qualifiedPath n true
    return true
  else
    word "const"
    n.block
    return true

/-- The dots of a range; whether the range includes its end. -/
def rangeDots : Rule Bool := do
  if ← operator? "..=" then return true
  else if ← seesOperator "..." then fail (.expected "`..` or `..=`")
  else
    operator ".."
    return false

def rangeTail (n : Nested) : Rule Unit := do
  let closed ← rangeDots
  let ends ← rangeBound? n
  if closed && !ends then fail (.expected "range upper bound")

/-- A field of a record pattern. -/
def fieldPattern (n : Nested) : Rule Unit := do
  let boxed ← word? "box"
  let referenced ← word? "ref"
  let mutable ← word? "mut"
  if boxed || referenced || mutable then
    let _ ← identifier
  else
    match ← ahead with
    | ⟨.literal t, _⟩ :: _ =>
      match index? t with
      | some _ =>
        take
        operator ":"
        alternatives n
      | none => fail (.expected "identifier or integer")
    | _ =>
      let _ ← identifier
      if ← operator? ":" then alternatives n

def fieldPatterns (n : Nested) : Rule Unit := loop do
  if ← atEnd then return false
  let _ ← outerAttributes n
  if ← operator? ".." then return false
  fieldPattern n
  if ← atEnd then return false
  operator ","
  return true

/-- Patterns that start with a path. -/
def pathPattern (n : Nested) : Rule Unit := do
  let form? ← qualifiedPath n true
  let invokes ← match form? with
    | some form => seesInvocation form
    | none => pure false
  if invokes then
    let _ ← invocation
  else if ← seesGroup .brace then group .brace (fieldPatterns n)
  else if ← seesGroup .paren then
    let _ ← group .paren (commaList (alternatives n))
  else if ← seesOperator ".." then rangeTail n

/-- Whether an identifier at this place begins a path pattern. -/
def startsPathPattern (ts : List Token) : Bool :=
  let after := Ahead.next ts
  Ahead.isIdentifier ts && (["::", "!", ".."].any (Ahead.isOperator · after)
      || Ahead.isGroup .brace after || Ahead.isGroup .paren after)
    || Ahead.isWord "self" ts && Ahead.isOperator "::" after
    || ["::", "<"].any (Ahead.isOperator · ts)
    || ["Self", "super", "crate"].any (Ahead.isWord · ts)

def pattern (n : Nested) : Rule Unit := do
  let ts ← ahead
  if startsPathPattern ts then pathPattern n
  else if Ahead.isWord "_" ts then word "_"
  else if Ahead.isWord "box" ts then
    verbatim do
      word "box"
      n.pattern
  else if Ahead.isOperator "-" ts || (literalAhead? ts).isSome || Ahead.isWord "const" ts then
    let _ ← rangeBound? n
    if ← seesOperator ".." then rangeTail n
  else if ["ref", "mut", "self"].any (Ahead.isWord · ts) || Ahead.isIdentifier ts then
    let _ ← word? "ref"
    let _ ← word? "mut"
    unless ← word? "self" do
      let _ ← identifier
    if ← operator? "@" then n.pattern
  else if Ahead.isOperator "&" ts then
    operator "&"
    let _ ← word? "mut"
    n.pattern
  else if Ahead.isGroup .paren ts then
    let _ ← group .paren (commaList (alternatives n))
  else if Ahead.isGroup .bracket ts then
    let _ ← group .bracket (commaList (alternatives n))
  else if Ahead.isOperator ".." ts then
    let closed ← rangeDots
    let ends ← rangeBound? n
    if closed && !ends then fail (.expected "range upper bound")
  else fail (.expected "pattern")

end RecordRows.Source
