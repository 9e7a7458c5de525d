import RecordRows.Source.Pattern

/-!
Expressions: operands with operators between them. An operand is an atom with calls, fields and the
like behind it and with unary operators before it.
-/
namespace RecordRows.Source

open Rule

/-! ## Operators -/

namespace Precedence

def assign : Nat := 1
def range : Nat := 2
def disjunction : Nat := 3
def conjunction : Nat := 4
def comparison : Nat := 6
def bitOr : Nat := 7
def bitXor : Nat := 8
def bitAnd : Nat := 9
def shift : Nat := 10
def sum : Nat := 11
def product : Nat := 12
def cast : Nat := 13

/-- Binary operators; where one begins with another, the longer one comes first. -/
def binary : List (String × Nat) :=
  ["+=", "-=", "*=", "/=", "%=", "^=", "&=", "|=", "<<=", ">>="].map (·, assign)
    ++ [("&&", conjunction), ("||", disjunction), ("<<", shift), (">>", shift)]
    ++ ["==", "<=", "!=", ">="].map (·, comparison)
    ++ [("+", sum), ("-", sum), ("*", product), ("/", product), ("%", product), ("^", bitXor),
      ("&", bitAnd), ("|", bitOr), ("<", comparison), (">", comparison)]

end Precedence

/-- Whether an expression can begin here. -/
def startsExpression (ts : List Token) : Bool :=
  let one (s : String) (longer : List String) : Bool := Ahead.isOperator s ts && !seesAny longer ts
  Ahead.isAnyWord ts || Ahead.isAnyGroup ts || (literalAhead? ts).isSome || Ahead.isLifetime ts
    || one "!" ["!="] || one "-" ["-=", "->"] || one "*" ["*="] || one "|" ["|="] || one "&" ["&="]
    || one "<" ["<=", "<<="] || seesAny ["..", "::", "#"] ts
where
  seesAny (operators : List String) (ts : List Token) : Bool :=
    operators.any (Ahead.isOperator · ts)

/-- Whether a range without its upper end is complete here. -/
def endsRange (structs : Bool) (ts : List Token) : Bool :=
  Ahead.isEnd ts
    || [",", ";", "?", "=>", "=", "+", "/", "%", "^", ">", "<=", "!=", "-=", "*=", "&=", "|=", "<<="].any
      (Ahead.isOperator · ts)
    || Ahead.isOperator "." ts && !Ahead.isOperator ".." ts
    || !structs && Ahead.isGroup .brace ts
    || Ahead.isWord "as" ts

/-- A cast takes nothing behind it that would belong to its operand. -/
def checkCast : Rule Unit := do
  let ts ← ahead
  if Ahead.isOperator "." ts && !Ahead.isOperator ".." ts || Ahead.isOperator "?" ts
      || Ahead.isGroup .bracket ts || Ahead.isGroup .paren ts then
    fail (.excluded "casts cannot be followed by this")

/-- Operators of precedence `base` and above, with their right operands, after the operand `lhs`.
Every round takes an operator, which bounds their number. -/
def operatorsFor (n : Nested) (operand : Rule ExpressionForm) (structs : Bool) :
    Nat → Nat → ExpressionForm → Rule ExpressionForm
  | 0, _, lhs => return lhs
  | fuel + 1, base, lhs => do
    if lhs = .range then return lhs
    let ts ← ahead
    match Precedence.binary.find? fun o => Ahead.isOperator o.1 ts with
    | some (sign, precedence) =>
      if precedence < base then return lhs
      let compares := precedence = Precedence.comparison
      if compares && lhs = .binary true then
        fail (.excluded "comparison operators cannot be chained")
      operator sign
      let right := if precedence = Precedence.assign then precedence else precedence + 1
      let rhs ← operand
      let _ ← operatorsFor n operand structs fuel right rhs
      operatorsFor n operand structs fuel base (.binary compares)
    | none =>
      if base ≤ Precedence.assign && Ahead.isOperator "=" ts && !Ahead.isOperator "=>" ts then
        operator "="
        let rhs ← operand
        let _ ← operatorsFor n operand structs fuel Precedence.assign rhs
        operatorsFor n operand structs fuel base .assign
      else if base ≤ Precedence.range && Ahead.isOperator ".." ts then
        let closed ← rangeDots
        unless !closed && endsRange structs (← ahead) do
          let rhs ← operand
          let _ ← operatorsFor n operand structs fuel (Precedence.range + 1) rhs
        return .range
      else if Ahead.isWord "as" ts then
        word "as"
        let _ ← n.type false
        checkCast
        operatorsFor n operand structs fuel base .cast
      else return lhs

def operators (n : Nested) (operand : Rule ExpressionForm) (structs : Bool) (base : Nat)
    (lhs : ExpressionForm) : Rule ExpressionForm := do
  operatorsFor n operand structs ((← ahead).length + 1) base lhs

/-! ## Atoms -/

/-- A label before a loop or a block. -/
def label : Rule Unit := do
  lifetime
  operator ":"

/-- A condition, a block, and further conditions after `else`. -/
def conditionalFor (n : Nested) : Nat → Rule Unit
  | 0 => return
  | fuel + 1 => do
    word "if"
    let _ ← n.expression false
    n.block
    if ← word? "else" then
      if ← seesWord "if" then conditionalFor n fuel else n.block

/-- The pattern and the body of a match arm, with the comma that most bodies need. -/
def matchArm (n : Nested) : Rule Unit := do
  let _ ← outerAttributes n
  alternatives n
  if ← word? "if" then
    let _ ← n.expression true
  operator "=>"
  let body ← n.arm
  if needsComma body && !(← atEnd) then operator ","
  else
    let _ ← operator? ","
where
  /-- Only bodies that end in a block do without. -/
  needsComma : ExpressionForm → Bool
    | .ifElse | .matchArms | .block | .unsafeBlock | .whileLoop | .endlessLoop | .forLoop
    | .tryBlock | .constBlock => false
    | _ => true

def matchExpression (n : Nested) : Rule Unit := do
  word "match"
  let _ ← n.expression false
  group .brace do
    innerAttributes n
    loop do
      if ← atEnd then return false
      matchArm n
      return true

/-- Loops and blocks, which may have labels. -/
def labelled (n : Nested) : Rule ExpressionForm := do
  if ← sees Ahead.isLifetime then label
  if ← word? "while" then
    let _ ← n.expression false
    n.block
    return .whileLoop
  else if ← word? "for" then
    alternatives n
    word "in"
    let _ ← n.expression false
    n.block
    return .forLoop
  else if ← word? "loop" then
    n.block
    return .endlessLoop
  else if ← seesGroup .brace then
    n.block
    return .block
  else fail (.expected "loop or block expression")

def closureParameter (n : Nested) : Rule Unit := do
  let _ ← outerAttributes n
  n.pattern
  if ← operator? ":" then
    let _ ← n.type true

def closure (n : Nested) (structs : Bool) : Rule Unit := do
  let _ ← binder? n
  for w in ["const", "static", "async", "move"] do
    let _ ← word? w
  operator "|"
  let _ ← commasUntil (seesOperator "|") (closureParameter n)
  operator "|"
  if ← operator? "->" then
    let _ ← n.type true
    n.block
  else
    let _ ← n.expression structs

def structField (n : Nested) : Rule Unit := do
  let _ ← outerAttributes n
  match ← ahead with
  | ⟨.literal t, _⟩ :: _ =>
    match index? t with
    | some i =>
      drop 1
      print [.literal (toString i)]
      operator ":"
      let _ ← n.expression true
    | none => fail (.expected "identifier or integer")
  | _ =>
    let _ ← identifier
    if ← operator? ":" then
      let _ ← n.expression true

def structFields (n : Nested) : Rule Unit := loop do
  if ← atEnd then return false
  if ← operator? ".." then
    unless ← atEnd do
      let _ ← n.expression true
    return false
  structField n
  if ← atEnd then return false
  operator ","
  return true

/-- A path, an invocation, or a struct with its fields. -/
def pathExpression (n : Nested) (structs : Bool) : Rule ExpressionForm := do
  let form? ← qualifiedPath n true
  let invokes ← match form? with
    | some form => seesInvocation form
    | none => pure false
  if invokes then return .invocation (← invocation)
  else if structs && (← seesGroup .brace) then
    group .brace (structFields n)
    return .struct
  else
    match form? with
    | some ⟨false, [w], false, _⟩ => return .path (some w)
    | _ => return .path none

/-- A list of expressions, or one expression in parentheses. -/
def parenExpression (n : Nested) : Rule ExpressionForm := group .paren do
  if ← atEnd then return .tuple
  let _ ← n.expression true
  if ← atEnd then return .paren
  operator ","
  let _ ← commaList (n.expression true)
  return .tuple

def bracketExpression (n : Nested) : Rule ExpressionForm := group .bracket do
  if ← atEnd then return .array
  let _ ← n.expression true
  if ← atEnd then return .array
  if ← operator? "," then
    let _ ← commaList (n.expression true)
    return .array
  else if ← operator? ";" then
    let _ ← n.expression true
    return .repeated
  else fail (.expected "`,` or `;`")

def breakExpression (n : Nested) (structs : Bool) : Rule Unit := do
  word "break"
  if ← sees Ahead.isLifetime then
    lifetime
    if ← seesOperator ":" then fail (.excluded "parentheses required")
  let ts ← ahead
  if startsExpression ts && (structs || !Ahead.isGroup .brace ts) then
    let _ ← n.expression true

/-- A word with an optional expression behind it. -/
def leaving (n : Nested) (w : String) : Rule Unit := do
  word w
  if ← sees startsExpression then
    let _ ← n.expression true

def startsClosure (ts : List Token) : Bool :=
  let second := Ahead.next ts
  Ahead.isOperator "|" ts || Ahead.isWord "move" ts || Ahead.isWord "static" ts
    || Ahead.isWord "for" ts && Ahead.isOperator "<" second
      && (Ahead.isLifetime (Ahead.next second) || Ahead.isOperator ">" (Ahead.next second))
    || Ahead.isWord "const" ts && !Ahead.isGroup .brace second
    || Ahead.isWord "async" ts && (Ahead.isOperator "|" second || Ahead.isWord "move" second)

/-- A word that introduces a block, perhaps with `move` between them. -/
def seesBlock (w : String) (ts : List Token) : Bool :=
  let second := Ahead.next ts
  Ahead.isWord w ts && (Ahead.isGroup .brace second
    || w == "async" && Ahead.isWord "move" second && Ahead.isGroup .brace (Ahead.next second))

def startsPathExpression (ts : List Token) : Bool :=
  let second := Ahead.next ts
  startsPath ts
    || Ahead.isWord "try" ts && (Ahead.isOperator "!" second || Ahead.isOperator "::" second)

/-- The words before a block, and the form of the whole. -/
def blockWords : List (String × ExpressionForm) :=
  [("async", .asyncBlock), ("try", .tryBlock), ("unsafe", .unsafeBlock), ("const", .constBlock)]

def atom (n : Nested) (operand : Rule ExpressionForm) (structs : Bool) : Rule ExpressionForm := do
  let ts ← ahead
  if let some t ← literal? then return .literal t
  if let some (w, form) := blockWords.find? fun b => seesBlock b.1 ts then
    word w
    let _ ← word? "move"
    n.block
    return form
  if startsClosure ts then
    closure n structs
    return .closure
  if startsPathExpression ts then pathExpression n structs
  else if Ahead.isGroup .paren ts then parenExpression n
  else if Ahead.isGroup .bracket ts then bracketExpression n
  else if Ahead.isOperator ".." ts then
    let closed ← rangeDots
    unless !closed && endsRange structs (← ahead) do
      let rhs ← operand
      let _ ← operators n operand structs (Precedence.range + 1) rhs
    return .range
  else if Ahead.isLifetime ts || Ahead.isGroup .brace ts
      || ["while", "for", "loop"].any (Ahead.isWord · ts) then
    labelled n
  else
    match Ahead.word? ts with
    | some "break" =>
      breakExpression n structs
      return .breakOut
    | some "continue" =>
      word "continue"
      if ← sees Ahead.isLifetime then lifetime
      return .continueOn
    | some "return" =>
      leaving n "return"
      return .returnOut
    | some "yield" =>
      leaving n "yield"
      return .yieldOut
    | some "become" =>
      verbatim do
        word "become"
        let _ ← n.expression true
      return .verbatim
    | some "let" =>
      word "let"
      alternatives n
      operator "="
      let rhs ← operand
      let _ ← operators n operand structs Precedence.comparison rhs
      return .letGuard
    | some "if" =>
      conditionalFor n ts.length
      return .ifElse
    | some "match" =>
      matchExpression n
      return .matchArms
    | some "_" =>
      word "_"
      return .infer
    | _ => fail (.expected "an expression")

/-! ## Operands -/

/-- The parts of a number behind a point, which the scanner took for one float; whether it ends in a
point of its own. -/
def tupleIndices (text : String) : Rule Bool := do
  let parts := text.splitOn "."
  let indices := if parts.getLast? = some "" then parts.dropLast else parts
  drop 1
  let phrases ← indices.mapM fun part =>
    match index? part with
    | some i => pure [Lexeme.literal (toString i)]
    | none => fail (.expected "integer")
  print (Phrase.separated (Phrase.operator ".") phrases)
  return parts.getLast? = some ""

/-- A field, an awaited value, or a call of a method, after the point. -/
def member (n : Nested) : Rule ExpressionForm := do
  match ← ahead with
  | ⟨.literal t, _⟩ :: _ =>
    match index? t with
    | some i =>
      drop 1
      print [.literal (toString i)]
      return .field
    | none => fail (.expected "identifier or integer")
  | _ =>
    if ← word? "await" then return .await
    let _ ← identifier
    let turbofish ← operator? "::"
    if turbofish then angled (genericArgument n)
    if turbofish || (← seesGroup .paren) then
      let _ ← group .paren (commaList (n.expression true))
      return .methodCall
    else return .field

/-- What stands behind the point: numbers of nested fields, and the members behind them. -/
def afterPoint (n : Nested) : Rule ExpressionForm := do
  match ← ahead with
  | ⟨.literal t, _⟩ :: _ =>
    if LiteralForm.ofText t = .float then
      if ← tupleIndices t then
        print (Phrase.operator ".")
        member n
      else return .field
    else member n
  | _ => member n

/-- Calls, fields, indices and question marks behind an operand. -/
def trailersFor (n : Nested) : Nat → ExpressionForm → Rule ExpressionForm
  | 0, form => return form
  | fuel + 1, form => do
    let ts ← ahead
    if Ahead.isGroup .paren ts then
      let _ ← group .paren (commaList (n.expression true))
      trailersFor n fuel .call
    else if Ahead.isOperator "." ts && !Ahead.isOperator ".." ts && form ≠ .range then
      operator "."
      trailersFor n fuel (← afterPoint n)
    else if Ahead.isGroup .bracket ts then
      group .bracket do
        let _ ← n.expression true
      trailersFor n fuel .index
    else if Ahead.isOperator "?" ts && form ≠ .range then
      operator "?"
      trailersFor n fuel .tryOperator
    else return form

def trailers (n : Nested) (form : ExpressionForm) : Rule ExpressionForm := do
  trailersFor n ((← ahead).length + 1) form

/-- The operator that takes the address of a place, raw or not. -/
def reference : Rule ExpressionForm := do
  operator "&"
  let ts ← ahead
  let second := Ahead.next ts
  if Ahead.isWord "raw" ts && (Ahead.isWord "mut" second || Ahead.isWord "const" second) then
    takeMany 2
    return .rawAddress
  else
    let _ ← word? "mut"
    return .reference

def operand (n : Nested) (structs : Bool) : Rule ExpressionForm := do
  let attributes ← outerAttributes n
  let ts ← ahead
  if Ahead.isOperator "&" ts then
    let form ← reference
    let _ ← n.operand structs
    return form
  else if let some sign := ["*", "!", "-"].find? (Ahead.isOperator · ts) then
    operator sign
    let _ ← n.operand structs
    return .unary
  else
    let form ← trailers n (← atom n (n.operand structs) structs)
    if form = .range && !attributes.isEmpty then
      fail (.excluded "attributes are not allowed on ranges")
    return form

def expression (n : Nested) (structs : Bool) : Rule ExpressionForm := do
  operators n (operand n structs) structs 0 (← operand n structs)

/-- An expression that ends at a closing brace where it can, unless a point or a question mark
follows. -/
def arm (n : Nested) : Rule ExpressionForm := do
  let _ ← outerAttributes n
  let ts ← ahead
  let isBlock := Ahead.isLifetime ts || Ahead.isGroup .brace ts
    || ["if", "while", "loop", "match", "unsafe"].any (Ahead.isWord · ts)
    || Ahead.isWord "for" ts && !startsClosure ts
    || ["try", "const"].any (seesBlock · ts)
  if isBlock then
    let form ← atom n (n.operand true) true
    let ts ← ahead
    if Ahead.isOperator "." ts && !Ahead.isOperator ".." ts || Ahead.isOperator "?" ts then
      operators n (operand n true) true 0 (← trailers n form)
    else return form
  else expression n true

end RecordRows.Source
