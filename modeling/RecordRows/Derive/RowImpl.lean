import RecordRows.Derive.Shape

/-!
The generated implementations that read a record from a row and write it to one. Each is built as a
small program first: its statements, and then their text.
-/
namespace RecordRows

open Source

/-- An attribute that marks what follows. -/
def mark (content : Phrase) : Phrase := Phrase.spelled "#" ++ Phrase.grouped .bracket content

/-- The mark of generated items. -/
def derivedMark : Phrase := mark [.word "automatically_derived"]

/-- An implementation of a trait for a record, with the parameters of the record. -/
def implementation (s : Shape) (path clause body : Phrase) : Phrase :=
  derivedMark ++ [.word "impl"] ++ s.generics.bounded ++ path ++ [.word "for", s.name.lexeme]
    ++ s.generics.applied ++ clause ++ Phrase.grouped .brace body

/-- The constant that tells the number of columns. -/
def columnsConstant (columns : Nat) : Phrase :=
  Phrase.spelled "const COLUMNS : usize =" ++ [.literal s!"{columns}usize"] ++ Phrase.spelled ";"

/-! ## Reading -/

/-- A local name for the next column, read at a type. -/
structure ColumnRead where
  binding : String
  type : Phrase
deriving Repr

/-- The body of the reading function: columns are read in order, the first failure is returned, and
the results are put together. -/
structure Decoder where
  columns : Nat
  reads : List ColumnRead
  result : Assembly
deriving Repr

def Shape.decoder (s : Shape) : Decoder where
  columns := s.arity
  reads := List.zipWith ColumnRead.mk s.fields.bindings s.fields.types
  result := s.fields.assembleBindings

def ColumnRead.phrase (r : ColumnRead) : Phrase :=
  [.word "let", .word r.binding] ++ Phrase.spelled "= row . next_column :: <" ++ r.type
    ++ Phrase.spelled ">" ++ Phrase.grouped .paren [] ++ Phrase.spelled "? ;"

def Decoder.phrase (d : Decoder) : Phrase :=
  columnsConstant d.columns ++ Phrase.spelled "fn from_row"
    ++ Phrase.grouped .paren (Phrase.spelled "row : & mut :: rowbind :: RowParser < '_ >")
    ++ Phrase.spelled "-> :: core :: result :: Result < Self , :: rowbind :: RowError >"
    ++ Phrase.grouped .brace (d.reads.flatMap ColumnRead.phrase
      ++ Phrase.spelled ":: core :: result :: Result :: Ok"
      ++ Phrase.grouped .paren d.result.phrase)

/-! ## Writing -/

/-- The body of the writing function: the record is taken apart, and the parts become the columns
in order. -/
structure Encoder where
  columns : Nat
  pattern : Assembly
  outputs : List String
deriving Repr

def Shape.encoder (s : Shape) : Encoder where
  columns := s.arity
  pattern := s.fields.assembleBindings
  outputs := s.fields.bindings

def Encoder.phrase (e : Encoder) : Phrase :=
  let column (b : String) : Phrase :=
    Phrase.spelled ":: rowbind :: ToColumn :: to_column" ++ Phrase.grouped .paren [.word b]
  columnsConstant e.columns ++ Phrase.spelled "fn to_row"
    ++ Phrase.grouped .paren (Phrase.spelled "& self")
    ++ Phrase.spelled "-> :: std :: vec :: Vec < :: rowbind :: Value >"
    ++ Phrase.grouped .brace ([.word "let"] ++ e.pattern.phrase ++ Phrase.spelled "= self ;"
      ++ Phrase.spelled ":: std :: vec !" ++ Phrase.grouped .bracket
        (Phrase.separated (Phrase.operator ",") (e.outputs.map column)))

/-! ## Implementations -/

/-- A clause prints nothing when it is absent. -/
def whereText (w? : Option WhereClause) : Phrase := (w?.map WhereClause.phrase).getD []

def Shape.fromRow (s : Shape) : Except UnboundableType Phrase := do
  let w? ← s.boundedWhere (Phrase.spelled ":: rowbind :: FromColumn")
  return implementation s (Phrase.spelled ":: rowbind :: FromRow") (whereText w?) s.decoder.phrase

def Shape.toRow (s : Shape) : Except UnboundableType Phrase := do
  let w? ← s.boundedWhere (Phrase.spelled ":: rowbind :: ToColumn")
  return implementation s (Phrase.spelled ":: rowbind :: ToRow") (whereText w?) s.encoder.phrase

end RecordRows
