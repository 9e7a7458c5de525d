import RecordRows.Derive.CaseRule
import RecordRows.Source.Declaration

/-!
Naming: how a declared name becomes the name of a table or a column. A rule is applied at once; a
function is called by the generated code.
-/
namespace RecordRows

open Source

inductive Naming where
  | identity
  | rule (r : CaseRule)
  | function (path : Phrase)
deriving Repr

/-- An expression for a name: a constant, or a function applied to one. -/
inductive NameExpression where
  | constant (name : String)
  | applied (path : Phrase) (name : String)
deriving Repr

/-- The name that an expression denotes, where `call` evaluates functions. -/
def NameExpression.eval (call : Phrase → String → String) : NameExpression → String
  | .constant name => name
  | .applied path name => call path name

/-- A text as a literal. -/
def textLiteral (s : String) : Lexeme := .literal (String.ofList (Text.quote s.toList))

def NameExpression.phrase (e : NameExpression) : Phrase :=
  Phrase.spelled ":: std :: string :: String :: from" ++ Phrase.grouped .paren
    (match e with
      | .constant name => [textLiteral name]
      | .applied path name => path ++ Phrase.grouped .paren [textLiteral name])

namespace Naming

/-- The word for naming that changes nothing. ASCII letter case does not matter in it. -/
def identityWord : String := "identity"

def isIdentity (value : String) : Bool :=
  value.toList.map Char.toLower == identityWord.toList

/-- Reads a path and nothing else. -/
def readPath? (value : String) : Option Phrase :=
  match Source.read (path · false) value with
  | .ok (_, phrase) => some phrase
  | .error _ => none

/-- The naming that a text stands for: the identity, a case rule, or the path of a function. -/
def ofText? (value : String) : Option Naming :=
  if isIdentity value then some .identity
  else
    match CaseRule.ofName? value with
    | some r => some (.rule r)
    | none => (readPath? value).map .function

/-- The converted name, where it is known before the generated code runs. -/
def convert? : Naming → String → Option String
  | .identity, name => some name
  | .rule r, name => some (r.convert name)
  | .function _, _ => none

/-- The expression for the converted name. -/
def expression : Naming → String → NameExpression
  | .identity, name => .constant name
  | .rule r, name => .constant (r.convert name)
  | .function path, name => .applied path name

end Naming

end RecordRows
