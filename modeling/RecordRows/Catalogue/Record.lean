import RecordRows.Catalogue.Identifier
import RecordRows.Derive.Expansion
import RecordRows.Row.Codec

/-!
Records at work: a declaration whose field types are resolved to column types decodes and encodes
rows, and tells the names of its table and columns.
-/
namespace RecordRows

open Source

/-- Resolves the text of a type without blanks, at most `depth` optional layers deep. -/
def ColumnType.resolve? (named : List (String × ColumnType)) : (depth : Nat) → List Char → Option ColumnType
  | 0, _ => none
  | depth + 1, text =>
    let optionalMark := "Option<".toList
    if optionalMark.isPrefixOf text && text.getLast? == some '>' then
      (resolve? named depth (text.drop optionalMark.length).dropLast).map .optional
    else
      let name := String.ofList text
      ((named.lookup name).orElse fun _ => if name == "Value" then some .value else none).orElse
        fun _ => (Scalar.ofName? name).map .scalar

/-- The column type that a text names; some further names may be given. -/
def ColumnType.ofText? (named : List (String × ColumnType)) (text : String) : Option ColumnType :=
  resolve? named (text.length + 1) text.toList

/-- The column type that a phrase names. -/
def ColumnType.ofPhrase? (named : List (String × ColumnType)) (p : Phrase) : Option ColumnType :=
  ofText? named (String.ofList (p.text.toList.filter (· != ' ')))

/-- A record with its column types. -/
structure Record where
  name : String
  shape : Shape
  schema : Schema
  entity? : Option Entity

namespace Record

/-- The name of a table and the names of columns; `call` evaluates the functions that naming may
call. -/
def tableName? (r : Record) (call : Phrase → String → String) : Option String :=
  r.entity?.map fun e => e.table.eval call

def columnNames? (r : Record) (call : Phrase → String → String) : Option (List String) :=
  r.entity?.map fun e => e.columns.map (·.eval call)

end Record

/-- Records and the identifier types they introduce. -/
structure Catalogue where
  records : List Record := []
  identifiers : List IdentifierType := []

namespace Catalogue

def types (c : Catalogue) : List (String × ColumnType) :=
  c.identifiers.map fun t => (t.name, t.type)

/-- The column type that a text names, identifier types included. -/
def type? (c : Catalogue) (text : String) : Option ColumnType := ColumnType.ofText? c.types text

def record? (c : Catalogue) (name : String) : Option Record := c.records.find? (·.name == name)

def identifier? (c : Catalogue) (name : String) : Option IdentifierType :=
  c.identifiers.find? (·.name == name)

/-- The identifier type of an entity, if it wraps a scalar. -/
def identifierOf? (e : Entity) : Option IdentifierType := do
  let named := [("::rowbind::BigInt", ColumnType.scalar .bigInt)]
  match ← ColumnType.ofPhrase? named e.options.idType with
  | .scalar s => some ⟨e.identifier, s, e.options.capabilities⟩
  | _ => none

/-- The record of a declaration, where `arguments` stand for its type parameters. -/
def read? (c : Catalogue) (name : String) (arguments : List (String × ColumnType))
    (isEntity : Bool) (text : String) : Option Record := do
  let d ← (Declaration.read text).toOption
  let shape ← (Shape.inspect d Derivation.fromRow.name false).toOption
  let schema ← shape.fields.types.mapM (ColumnType.ofPhrase? (arguments ++ c.types))
  let entity? ← if isEntity then d.entity.toOption.map some else some none
  return ⟨name, shape, schema, entity?⟩

/-- Adds a record and its identifier type; a text that is no record adds nothing. -/
def add (c : Catalogue) (name : String) (arguments : List (String × ColumnType)) (isEntity : Bool)
    (text : String) : Catalogue :=
  match c.read? name arguments isEntity text with
  | none => c
  | some r => ⟨c.records ++ [r], c.identifiers ++ (r.entity?.bind identifierOf?).toList⟩

end Catalogue

end RecordRows
