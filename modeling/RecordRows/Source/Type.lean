import RecordRows.Source.Path

/-!
Types. A bare sum of bounds is a type too, where a plus sign is taken at all.
-/
namespace RecordRows.Source

open Rule

/-- Where the bounds of a bare sum or of an object type stand. -/
def objectBounds : BoundPlace := { constants := false }

/-- What has been read in parentheses. -/
inductive ParenForm where
  /-- A lone type, which may be the first bound of a sum. -/
  | type (form : TypeForm)
  /-- An optional bound, which must be a part of a sum. -/
  | optionalBound
  | tuple
deriving DecidableEq, Repr

def parenContent (n : Nested) : Rule ParenForm := do
  let ts ← ahead
  if Ahead.isEnd ts then return .tuple
  else if Ahead.isLifetime ts then
    let _ ← typeBounds n true objectBounds
    return .tuple
  else if Ahead.isOperator "?" ts then
    trait n true
    return .optionalBound
  else
    let form ← n.type true
    if ← operator? "," then
      let _ ← commaList (n.type true)
      return .tuple
    else return .type form

/-- Bounds with a plus sign before each; whether there is any. -/
def furtherBounds (n : Nested) : Rule Bool := do
  let bounds ← collect do
    if ← operator? "+" then return some (← bound n objectBounds) else return none
  return !bounds.isEmpty

/-- Tuples, types in parentheses, and sums that start with a bound in parentheses. -/
def parenType (n : Nested) (sums : Bool) : Rule TypeForm := do
  match ← group .paren (parenContent n) with
  | .tuple => return .other
  | .optionalBound => return .bounds (!(← furtherBounds n))
  | .type form =>
    let isBound := match form with
      | .path _ => true
      | .bounds lone => lone
      | .other => false
    if sums && isBound && (← seesOperator "+") then
      let _ ← furtherBounds n
      return .bounds false
    else return .other

/-- A parameter of a function type. A receiver is only allowed first. -/
def functionParameter (n : Nested) (isFirst : Bool) : Rule Unit := do
  let ts ← ahead
  let seesName (ts : List Token) : Bool :=
    (Ahead.isIdentifier ts || Ahead.isWord "_" ts || isFirst && Ahead.isWord "self" ts)
      && isLoneColon (Ahead.next ts)
  if isFirst && Ahead.isWord "mut" ts && Ahead.isWord "self" (Ahead.next ts) then
    verbatim do
      takeMany 2
      if ← sees isLoneColon then
        operator ":"
        let _ ← n.type true
  else
    if seesName ts then
      let _ ← anyWord
      operator ":"
    let _ ← n.type true

/-- The dots that stand for further parameters, with a name or without. -/
def seesVariadic (ts : List Token) : Bool :=
  Ahead.isOperator "..." ts
    || (Ahead.isIdentifier ts || Ahead.isWord "_" ts) && Ahead.isOperator ":" (Ahead.next ts)
      && Ahead.isOperator "..." (Ahead.next (Ahead.next ts))

def variadic : Rule Unit := do
  unless ← operator? "..." do
    let _ ← anyWord
    operator ":"
    operator "..."
  let _ ← operator? ","

def functionParameters (n : Nested) (isFirst : Bool) : Nat → Rule Unit
  | 0 => return
  | fuel + 1 => do
    if ← atEnd then return
    let _ ← outerAttributes n
    if ← sees seesVariadic then variadic
    else
      functionParameter n isFirst
      if ← atEnd then return
      operator ","
      functionParameters n false fuel

def functionType (n : Nested) : Rule Unit := do
  let _ ← word? "unsafe"
  if ← word? "extern" then
    let _ ← stringLiteral?
  word "fn"
  group .paren do functionParameters n true ((← ahead).length + 1)
  resultType n

/-- Types that start with a path: the path itself, an invocation, which drops what a binder
introduced, or a bare sum. -/
def pathType (n : Nested) (sums : Bool) (binder : Phrase) : Rule TypeForm := do
  let (form?, phrase) ← captured (qualifiedPath n false)
  match form? with
  | none =>
    print phrase
    return .other
  | some form =>
    if ← seesInvocation form then
      print phrase
      let _ ← invocation
      return .other
    print (binder ++ phrase)
    if sums && (← seesOperator "+") then
      operator "+"
      if startsBound objectBounds (← ahead) then
        let _ ← sum "+" (sees (startsBound objectBounds)) (bound n objectBounds)
      return .bounds false
    else return if binder.isEmpty then .path form else .bounds true

def startsPathType (ts : List Token) : Bool :=
  isModuleWord ts || Ahead.isOperator "::" ts || Ahead.isOperator "<" ts

def startsFunctionType (ts : List Token) : Bool :=
  ["fn", "unsafe", "extern"].any (Ahead.isWord · ts)

/-- A group in brackets: the type of a slice or an array. -/
def bracketContent (n : Nested) : Rule Unit := do
  let _ ← n.type true
  if ← operator? ";" then
    let _ ← n.expression true

def type (n : Nested) (sums : Bool) : Rule TypeForm := do
  let ts ← ahead
  if Ahead.isWord "dyn" ts && Ahead.isOperator "*" (Ahead.next ts) then
    verbatim do
      takeMany 2
      let _ ← typeBounds n sums objectBounds
    return .other
  let (binds, binder) ← captured (binder? n)
  let ts ← ahead
  if binds && !(isModuleWord ts || startsFunctionType ts) then fail (.expected "identifier")
  if Ahead.isGroup .paren ts then parenType n sums
  else if startsFunctionType ts then
    print binder
    functionType n
    return .other
  else if startsPathType ts then pathType n sums binder
  else if Ahead.isWord "dyn" ts then
    word "dyn"
    let _ ← typeBounds n sums objectBounds
    return .other
  else if Ahead.isGroup .bracket ts then
    group .bracket (bracketContent n)
    return .other
  else if Ahead.isOperator "*" ts then
    operator "*"
    unless ← word? "const" do word "mut"
    let _ ← n.type false
    return .other
  else if Ahead.isOperator "&" ts then
    operator "&"
    if ← sees Ahead.isLifetime then lifetime
    let _ ← word? "mut"
    let _ ← n.type false
    return .other
  else if Ahead.isOperator "!" ts && !Ahead.isOperator "!=" ts then
    operator "!"
    return .other
  else if Ahead.isWord "impl" ts then
    word "impl"
    let _ ← typeBounds n sums { captures := true }
    return .other
  else if Ahead.isWord "_" ts then
    word "_"
    return .other
  else if Ahead.isLifetime ts then return .bounds (← typeBounds n true objectBounds)
  else fail (.expected "type")

end RecordRows.Source
