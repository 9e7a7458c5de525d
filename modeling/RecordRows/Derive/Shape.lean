import RecordRows.Derive.Refusal
import RecordRows.Source.Declaration

/-!
The shape of a record: a struct with at least one field. Fields are put together and taken apart by
member where they have names, and by position where they have none.
-/
namespace RecordRows

open Source

/-- The fields of a record. -/
inductive RecordFields where
  | named (fields : List NamedField)
  | positional (types : List Phrase)
deriving Repr

/-- How a field is accessed. -/
inductive Member where
  | name (n : Name)
  | index (i : Nat)
deriving DecidableEq, Repr

def Member.text : Member → String
  | .name n => n.text
  | .index i => toString i

/-- The record's own type with a part for each member, or with a list of parts. It stands for a
value when the parts are expressions, and for a pattern when they are names. -/
inductive Assembly where
  | byName (parts : List (Name × Phrase))
  | byPosition (parts : List Phrase)
deriving Repr

def Assembly.phrase : Assembly → Phrase
  | .byName parts =>
    .word "Self" :: Phrase.grouped .brace (Phrase.separated (Phrase.operator ",")
      (parts.map fun (name, part) => name.lexeme :: Phrase.operator ":" ++ part))
  | .byPosition parts =>
    .word "Self" :: Phrase.grouped .paren (Phrase.separated (Phrase.operator ",") parts)

namespace RecordFields

/-- The declared types, in order. -/
def types : RecordFields → List Phrase
  | .named fields => fields.map (·.type)
  | .positional types => types

def members : RecordFields → List Member
  | .named fields => fields.map fun f => .name f.name
  | .positional types => (List.range types.length).map .index

/-- The names of the fields without raw marks; none when there are no names. -/
def names : RecordFields → List String
  | .named fields => fields.map (·.name.plain)
  | .positional _ => []

/-- The local name that holds the field at a position. -/
def binding (i : Nat) : String := s!"field_{i}"

def bindings (fs : RecordFields) : List String := (List.range fs.types.length).map binding

/-- Members paired with parts, up to the shorter list; positions take all parts. -/
def assemble (fs : RecordFields) (parts : List Phrase) : Assembly :=
  match fs with
  | .named fields => .byName ((fields.map (·.name)).zip parts)
  | .positional _ => .byPosition parts

/-- Every field with its local name. -/
def assembleBindings (fs : RecordFields) : Assembly :=
  fs.assemble (fs.bindings.map fun b => [.word b])

end RecordFields

structure Shape where
  name : Name
  visibility : Phrase
  generics : Generics
  fields : RecordFields
  nonempty : fields.types ≠ []

namespace Shape

/-- The number of fields. -/
def arity (s : Shape) : Nat := s.fields.types.length

/-- The shape of a declaration with fields that a derivation accepts. -/
def ofFields (d : Declaration) (derive : String) (fields : RecordFields) : Except Refusal Shape :=
  if h : fields.types = [] then .error (.noFields derive)
  else .ok ⟨d.name, d.visibility, d.generics, fields, h⟩

/-- The shape of a declaration, if the derivation that goes by the given name accepts it. A record
without fields is refused before one that lacks names. -/
def inspect (d : Declaration) (derive : String) (namesRequired : Bool) : Except Refusal Shape :=
  match d.body with
  | .enum => .error (.notStruct derive .enum)
  | .union => .error (.notStruct derive .union)
  | .struct .unit => .error (.noFields derive)
  | .struct (.named fields) => ofFields d derive (.named fields)
  | .struct (.positional types) => do
    let s ← ofFields d derive (.positional types)
    if namesRequired then .error (.namesRequired derive) else .ok s

end Shape

/-! ## Bounds on the fields -/

/-- A type that cannot be given a bound. -/
structure UnboundableType where
  type : Phrase
deriving Repr

/-- Tokens without a place in any source. -/
def Source.Phrase.unplaced (p : Phrase) : List Token := p.map fun l => ⟨l, ⟨0, 0⟩⟩

/-- The predicate that a type meets a bound, if it reads as one. -/
def boundPredicate (bound type : Phrase) : Except UnboundableType Phrase :=
  let p := type ++ Phrase.operator ":" ++ bound
  match readTokens predicate p.unplaced with
  | .ok _ => .ok p
  | .error _ => .error ⟨type⟩

/-- Further predicates behind those of a clause, with commas between all of them. -/
def Source.WhereClause.extend (w : WhereClause) (predicates : List Phrase) : WhereClause :=
  predicates.foldl
    (fun w p => ⟨(w.predicates.map fun (q, _) => (q, true)) ++ [(p, false)]⟩) w

/-- The declared where clause. In a record with type parameters it is extended: every field's type
meets the bound. -/
def Shape.boundedWhere (s : Shape) (bound : Phrase) :
    Except UnboundableType (Option WhereClause) := do
  if s.generics.hasTypes then
    let predicates ← s.fields.types.mapM (boundPredicate bound)
    return some ((s.generics.where?.getD ⟨[]⟩).extend predicates)
  else return s.generics.where?

end RecordRows
