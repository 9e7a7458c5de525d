import RecordRows.Source.Rule

/-!
The forms of types and expressions, as far as the rules around them depend on them, and the rules
for what is nested. Types, expressions, patterns and blocks contain one another: each rule takes the
rules for one level deeper as an argument.
-/
namespace RecordRows.Source

/-- A path: whether it starts at the root, its words, and whether any of them, or the last one, has
arguments. -/
structure PathForm where
  rooted : Bool
  words : List String
  hasArguments : Bool := false
  endsInArguments : Bool := false
deriving DecidableEq, Repr

inductive TypeForm where
  /-- A path without a self type. -/
  | path (form : PathForm)
  /-- Bounds without a keyword before them; a lone one has no sign after it. -/
  | bounds (lone : Bool)
  | other
deriving DecidableEq, Repr

inductive ExpressionForm where
  | array
  | assign
  | asyncBlock
  | await
  | binary (comparison : Bool)
  | block
  | breakOut
  | call
  | cast
  | closure
  | constBlock
  | continueOn
  | field
  | forLoop
  | ifElse
  | index
  | infer
  | letGuard
  | literal (text : String)
  | endlessLoop
  | invocation (braced : Bool)
  | matchArms
  | methodCall
  | paren
  /-- A path; one that is a single identifier tells its name. -/
  | path (name? : Option String)
  | range
  | reference
  | repeated
  | returnOut
  | struct
  | tryOperator
  | tryBlock
  | tuple
  | unary
  | unsafeBlock
  | verbatim
  | whileLoop
  | yieldOut
  | rawAddress
deriving DecidableEq, Repr

/-- What a form is called in messages. -/
def ExpressionForm.name : ExpressionForm → String
  | .array => "array"
  | .assign => "assign"
  | .asyncBlock => "async"
  | .await => "await"
  | .binary _ => "binary"
  | .block => "block"
  | .breakOut => "break"
  | .call => "call"
  | .cast => "cast"
  | .closure => "closure"
  | .constBlock => "const"
  | .continueOn => "continue"
  | .field => "field"
  | .forLoop => "for_loop"
  | .ifElse => "if"
  | .index => "index"
  | .infer => "infer"
  | .letGuard => "let"
  | .literal _ => "lit"
  | .endlessLoop => "loop"
  | .invocation _ => "macro"
  | .matchArms => "match"
  | .methodCall => "method_call"
  | .paren => "paren"
  | .path _ => "path"
  | .range => "range"
  | .reference => "reference"
  | .repeated => "repeat"
  | .returnOut => "return"
  | .struct => "struct"
  | .tryOperator => "try"
  | .tryBlock => "try_block"
  | .tuple => "tuple"
  | .unary => "unary"
  | .unsafeBlock => "unsafe"
  | .verbatim => "verbatim"
  | .whileLoop => "while"
  | .yieldOut => "yield"
  | .rawAddress => "unknown"

/-- Where bounds stand: in some places captures of lifetimes are bounds, and in some a trait may be
marked as constant. -/
structure BoundPlace where
  captures : Bool := false
  constants : Bool := true

inductive BoundForm where
  | lifetime | trait | capture
deriving DecidableEq, Repr

/-- The rules for what is nested one level deeper. Where `sums` is false a type does not take a
plus sign, and where `structs` is false an expression does not take the braces of a struct. An
`arm` is an expression that may end at a closing brace, as statements and match arms do. -/
structure Nested where
  type : (sums : Bool) → Rule TypeForm
  bound : BoundPlace → Rule BoundForm
  expression : (structs : Bool) → Rule ExpressionForm
  operand : (structs : Bool) → Rule ExpressionForm
  arm : Rule ExpressionForm
  pattern : Rule Unit
  block : Rule Unit

/-- Nothing is nested here. -/
def Nested.none : Nested where
  type _ := Rule.fail .excessToken
  bound _ := Rule.fail .excessToken
  expression _ := Rule.fail .excessToken
  operand _ := Rule.fail .excessToken
  arm := Rule.fail .excessToken
  pattern := Rule.fail .excessToken
  block := Rule.fail .excessToken

end RecordRows.Source
