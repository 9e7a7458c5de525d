import RecordRows.Source.Expression

/-!
Blocks and the statements in them, and the rules of all levels tied together. Declarations inside
blocks are passed through as they stand, up to their semicolon or their braces.
-/
namespace RecordRows.Source

open Rule

/-- What follows a path without arguments. -/
def afterModulePath? (ts : List Token) : Option (List Token) :=
  match modulePath.run { tokens := ts } with
  | .ok (_, s) => some s.tokens
  | .error _ => none

/-- An invocation with a name before its group declares something. -/
def declaresByInvocation (ts : List Token) : Bool :=
  (afterModulePath? ts).any fun rest =>
    let second := Ahead.next rest
    Ahead.isOperator "!" rest && (Ahead.isIdentifier second || Ahead.isWord "try" second)

/-- An invocation in braces that ends a statement. -/
def statementInvocation (ts : List Token) : Bool :=
  (afterModulePath? ts).any fun rest =>
    let second := Ahead.next rest
    let third := Ahead.next second
    Ahead.isOperator "!" rest && Ahead.isGroup .brace second
      && !(Ahead.isOperator "." third && !Ahead.isOperator ".." third || Ahead.isOperator "?" third)

/-- Whether a declaration starts here. -/
def startsDeclaration (ts : List Token) : Bool :=
  let second := Ahead.next ts
  let third := Ahead.next second
  let oneOf (words : List String) (ts : List Token) : Bool := words.any (Ahead.isWord · ts)
  oneOf ["pub", "extern", "use", "fn", "mod", "type", "struct", "enum", "trait", "impl", "macro"] ts
    || Ahead.isWord "crate" ts && !Ahead.isOperator "::" second
    || Ahead.isWord "static" ts && (Ahead.isWord "mut" second || Ahead.isIdentifier second)
    || Ahead.isWord "const" ts
      && !(Ahead.isGroup .brace second || oneOf ["static", "move"] second
        || Ahead.isOperator "|" second
        || Ahead.isWord "async" second && !oneOf ["unsafe", "extern", "fn"] third)
    || Ahead.isWord "unsafe" ts && !Ahead.isGroup .brace second
    || Ahead.isWord "async" ts && oneOf ["unsafe", "extern", "fn"] second
    || Ahead.isWord "union" ts && Ahead.isIdentifier second
    || Ahead.isWord "auto" ts && Ahead.isWord "trait" second
    || Ahead.isWord "default" ts && oneOf ["unsafe", "impl"] second
    || declaresByInvocation ts

/-- Whether braces do not end a declaration. -/
def endsInSemicolon (ts : List Token) : Bool :=
  let rest := ts.dropWhile fun t =>
    match t.lexeme with
    | .word w => ["pub", "crate", "default", "async"].contains w
    | _ => true
  match Ahead.word? rest with
  | some "static" | some "type" | some "use" => true
  | some "const" =>
    !(["fn", "unsafe", "async", "extern"].any (Ahead.isWord · (Ahead.next rest)))
  | _ => false

def declaration : Rule Unit := do
  let semicolon := endsInSemicolon (← ahead)
  loop do
    let ts ← ahead
    if Ahead.isEnd ts then fail (.expected "`;`")
    takeTree
    return !(Ahead.isOperator ";" ts || !semicolon && Ahead.isGroup .brace ts)

/-- A variable with its value, and what happens when the value does not match. -/
def binding (n : Nested) : Rule Unit := do
  word "let"
  n.pattern
  if ← operator? ":" then
    let _ ← n.type true
  if ← operator? "=" then
    let _ ← n.expression true
    let endsInBrace := (← get).printed.head? = some (.closing .brace)
    if !endsInBrace && (← word? "else") then n.block
  operator ";"

/-- Whether an expression needs a semicolon before a further statement. -/
def needsSemicolon : ExpressionForm → Bool
  | .invocation braced => !braced
  | form => matchArm.needsComma form

/-- A statement; whether a semicolon is missing before a further one. -/
def statement (n : Nested) : Rule Bool := do
  let _ ← outerAttributes n
  let ts ← ahead
  if statementInvocation ts && !declaresByInvocation ts then
    let _ ← modulePath
    let _ ← invocation
    let _ ← operator? ";"
    return false
  else if Ahead.isWord "let" ts then
    binding n
    return false
  else if startsDeclaration ts then
    declaration
    return false
  else
    let form ← arm n
    return !(← operator? ";") && needsSemicolon form

def statements (n : Nested) : Rule Unit := loop do
  if ← operator? ";" then return true
  if ← atEnd then return false
  if (← statement n) && !(← atEnd) then fail (.expected "`;`")
  return true

def block (n : Nested) : Rule Unit := group .brace do
  innerAttributes n
  statements n

/-! ## All levels -/

/-- The rules one level up from rules for what is nested. -/
def deepen (n : Nested) : Nested where
  type := type n
  bound := bound n
  expression := expression n
  operand := operand n
  arm := arm n
  pattern := pattern n
  block := block n

/-- The rules for a text that nests at most `depth` deep. -/
def nestedWithin : Nat → Nested
  | 0 => Nested.none
  | depth + 1 => deepen (nestedWithin depth)

/-- Every level of nesting but that of a block takes a token, and a block has its own braces. -/
def nestedFor (ts : List Token) : Nested := nestedWithin (2 * ts.length + 2)

end RecordRows.Source
