import RecordRows.Derive.Options
import RecordRows.Derive.RowImpl

/-!
The generated identifier type of an entity, and the implementation that names its table and columns.
-/
namespace RecordRows

open Source

/-- Everything the generated items of an entity depend on. -/
structure Entity where
  shape : Shape
  options : EntityOptions
  identifier : String

namespace Entity

/-- The name of the table as an expression. -/
def table (e : Entity) : NameExpression := e.options.tableNaming.expression e.shape.name.plain

/-- The names of the columns as expressions, in the order of the fields. -/
def columns (e : Entity) : List NameExpression :=
  e.shape.fields.names.map e.options.columnNaming.expression

/-- The attribute that derives traits; none when there is nothing to derive. -/
def deriveMark (traits : List DerivedTrait) : Phrase :=
  if traits.isEmpty then []
  else mark (.word "derive" :: Phrase.grouped .paren
    (Phrase.separated (Phrase.operator ",") (traits.map DerivedTrait.phrase)))

/-- An implementation of a trait for the identifier type. -/
def identifierImpl (e : Entity) (path body : Phrase) : Phrase :=
  derivedMark ++ [.word "impl"] ++ path
    ++ [.word "for", .word e.identifier] ++ Phrase.grouped .brace body

def identifierStruct (e : Entity) : Phrase :=
  mark (Phrase.spelled "doc ="
      ++ [textLiteral s!"Identifier of a `{e.shape.name.plain}` row."])
    ++ deriveMark e.options.capabilities.derived
    ++ e.shape.visibility ++ [.word "struct", .word e.identifier]
    ++ Phrase.grouped .paren (.word "pub" :: e.options.idType) ++ Phrase.spelled ";"

def fromContent (e : Entity) : Phrase :=
  e.identifierImpl
    (Phrase.spelled ":: core :: convert :: From <" ++ e.options.idType ++ Phrase.spelled ">")
    (Phrase.spelled "fn from" ++ Phrase.grouped .paren (Phrase.spelled "value :" ++ e.options.idType)
      ++ Phrase.spelled "-> Self"
      ++ Phrase.grouped .brace (.word "Self" :: Phrase.grouped .paren [.word "value"]))

def fromColumn (e : Entity) : Phrase :=
  e.identifierImpl (Phrase.spelled ":: rowbind :: FromColumn")
    (Phrase.spelled "fn from_column"
      ++ Phrase.grouped .paren (Phrase.spelled "value : & :: rowbind :: Value")
      ++ Phrase.spelled "-> :: core :: result :: Result < Self , :: rowbind :: ColumnError >"
      ++ Phrase.grouped .brace (Phrase.spelled "<" ++ e.options.idType
        ++ Phrase.spelled "as :: rowbind :: FromColumn > :: from_column"
        ++ Phrase.grouped .paren [.word "value"]
        ++ Phrase.spelled ". map" ++ Phrase.grouped .paren [.word "Self"]))

def toColumn (e : Entity) : Phrase :=
  e.identifierImpl (Phrase.spelled ":: rowbind :: ToColumn")
    (Phrase.spelled "fn to_column" ++ Phrase.grouped .paren (Phrase.spelled "& self")
      ++ Phrase.spelled "-> :: rowbind :: Value"
      ++ Phrase.grouped .brace (Phrase.spelled ":: rowbind :: ToColumn :: to_column"
        ++ Phrase.grouped .paren (Phrase.spelled "& self . 0")))

/-- Printing is left to the content. -/
def display (e : Entity) : Phrase :=
  e.identifierImpl (Phrase.spelled ":: core :: fmt :: Display")
    (Phrase.spelled "fn fmt"
      ++ Phrase.grouped .paren
        (Phrase.spelled "& self , f : & mut :: core :: fmt :: Formatter < '_ >")
      ++ Phrase.spelled "-> :: core :: fmt :: Result"
      ++ Phrase.grouped .brace (Phrase.spelled ":: core :: fmt :: Display :: fmt"
        ++ Phrase.grouped .paren (Phrase.spelled "& self . 0 , f")))

/-- The implementation with the names of table and columns; it keeps the declared clause. -/
def metadata (e : Entity) : Phrase :=
  implementation e.shape (Phrase.spelled ":: rowbind :: Entity") e.shape.generics.whereClause
    (Phrase.spelled "type Id =" ++ [.word e.identifier] ++ Phrase.spelled "; fn table_name"
      ++ Phrase.grouped .paren [] ++ Phrase.spelled "-> :: std :: string :: String"
      ++ Phrase.grouped .brace e.table.phrase
      ++ Phrase.spelled "fn column_names" ++ Phrase.grouped .paren []
      ++ Phrase.spelled "-> :: std :: vec :: Vec < :: std :: string :: String >"
      ++ Phrase.grouped .brace (Phrase.spelled ":: std :: vec !" ++ Phrase.grouped .bracket
        (Phrase.separated (Phrase.operator ",") (e.columns.map NameExpression.phrase))))

def phrase (e : Entity) : Phrase :=
  e.identifierStruct ++ e.fromContent ++ e.fromColumn ++ e.toColumn
    ++ (if e.options.capabilities.contains .display then e.display else []) ++ e.metadata

end Entity

end RecordRows
