import RecordRows.Derive.Refusal
import RecordRows.Source.Rule

/-!
Problems that a derivation reports, with the stretch of source each of them points at.
-/
namespace RecordRows

open Source

/-- The form of an attribute item that a key does not take. -/
inductive ItemForm where
  | word | list | literal
deriving DecidableEq, Repr

def ItemForm.name : ItemForm → String
  | .word => "word"
  | .list => "list"
  | .literal => "literal"

inductive ProblemCause where
  /-- The list of an attribute cannot be read. -/
  | malformed (e : SyntaxError)
  /-- The attribute has a value instead of a list. -/
  | valueForList
  | unexpectedForm (form : ItemForm)
  | unknownKey (key : String) (similar? : Option String)
  | duplicateKey (key : String)
  | unexpectedType (name : String)
  | unknownValue (value : String)
  | refusal (r : Refusal)
deriving DecidableEq, Repr

/-- The keys of the attribute, in alphabetical order. -/
inductive OptionKey where
  | columnNaming | idDerive | idName | idType | tableNaming
deriving DecidableEq, Repr

namespace OptionKey

def name : OptionKey → String
  | .columnNaming => "column_naming"
  | .idDerive => "id_derive"
  | .idName => "id_name"
  | .idType => "id_type"
  | .tableNaming => "table_naming"

def all : List OptionKey := [.columnNaming, .idDerive, .idName, .idType, .tableNaming]

def ofName? (s : String) : Option OptionKey := all.find? (·.name == s)

end OptionKey

namespace ProblemCause

def message : ProblemCause → String
  | .malformed e => e.message
  | .valueForList => "Name-value arguments are not supported. Use #[entity(...)]"
  | .unexpectedForm form => s!"Unexpected meta-item format `{form.name}`"
  | .unknownKey key (some similar) => s!"Unknown field: `{key}`. Did you mean `{similar}`?"
  | .unknownKey key none =>
    s!"Unknown field: `{key}`. Available values: "
      ++ String.intercalate ", " (OptionKey.all.map fun k => s!"`{k.name}`")
  | .duplicateKey key => s!"Duplicate field `{key}`"
  | .unexpectedType name => s!"Unexpected type `{name}`"
  | .unknownValue value => s!"Unknown value: `{value}`"
  | .refusal r => r.message

end ProblemCause

structure Problem where
  cause : ProblemCause
  place? : Option Span
deriving DecidableEq, Repr

def Problem.message (p : Problem) : String := p.cause.message

end RecordRows
