import RecordRows.Source.Scanner
import RecordRows.Source.Statement

/-!
Declarations of structs, enums and unions. What is read is kept in parts, so that it can be printed
again in other places.
-/
namespace RecordRows.Source

open Rule

/-- An identifier where it stands in the source. -/
structure Name where
  text : String
  place? : Option Span
deriving DecidableEq, Repr

namespace Name

/-- Without the mark of a raw identifier. -/
def plainText (text : String) : String :=
  match text.toList with
  | 'r' :: '#' :: cs => String.ofList cs
  | _ => text

def plain (n : Name) : String := plainText n.text

def lexeme (n : Name) : Lexeme := .word n.text

end Name

structure NamedField where
  name : Name
  type : Phrase
deriving Repr

inductive Fields where
  | named (fields : List NamedField)
  | positional (types : List Phrase)
  | unit
deriving Repr

/-- Predicates, each with the comma that followed it. -/
structure WhereClause where
  predicates : List (Phrase × Bool)
deriving Repr

/-- A clause without predicates prints nothing. -/
def WhereClause.phrase (w : WhereClause) : Phrase :=
  if w.predicates.isEmpty then []
  else .word "where"
    :: w.predicates.flatMap fun (p, comma) => p ++ if comma then Phrase.operator "," else []

structure Generics where
  parameters : List (Parameter × Bool) := []
  where? : Option WhereClause := none
deriving Repr

namespace Generics

/-- The parameters in angles, each printed by `text`; nothing when there are none. -/
def angled (g : Generics) (text : Parameter → Phrase) : Phrase :=
  if g.parameters.isEmpty then []
  else Phrase.operator "<"
    ++ Listed.lifetimesFirst (g.parameters.map fun (p, comma) => ⟨p.kind = .lifetime, text p, comma⟩)
    ++ Phrase.operator ">"

/-- The parameters as declared. -/
def declared (g : Generics) : Phrase := g.angled Parameter.declared

/-- The parameters of an implementation, with bounds and without defaults. -/
def bounded (g : Generics) : Phrase := g.angled Parameter.bounded

/-- The names of the parameters, as arguments of the declared type. -/
def applied (g : Generics) : Phrase := g.angled Parameter.name

def hasTypes (g : Generics) : Bool := g.parameters.any (·.1.kind = .type)

def whereClause (g : Generics) : Phrase := (g.where?.map WhereClause.phrase).getD []

end Generics

inductive Body where
  | struct (fields : Fields)
  | enum
  | union
deriving Repr

structure Declaration where
  attributes : List MetaItem
  visibility : Phrase
  name : Name
  generics : Generics
  body : Body
deriving Repr

/-! ## Rules -/

def nameOf (r : Rule String) : Rule Name := do
  let (text, place?) ← spanned r
  return ⟨text, place?⟩

/-- The restriction of a visibility, if the parentheses hold one. -/
def restriction : Rule Unit := group .paren do
  if ["crate", "self", "super"].any (Ahead.isWord · (← ahead)) then
    let _ ← anyWord
  else
    word "in"
    let _ ← modulePath

/-- Parentheses after `pub` belong to it when they hold a single word of the three, or start with
`in`. -/
def visibility : Rule Unit := do
  if ← word? "pub" then
    match ← ahead with
    | ⟨.opening .paren, _⟩ :: ts =>
      let isWord := ["crate", "self", "super"].any (Ahead.isWord · ts)
      if isWord && Ahead.isEnd (Ahead.next ts) || Ahead.isWord "in" ts then restriction
    | _ => return

/-- A predicate of a where clause, which may have no bounds. -/
def endsPredicate (ts : List Token) : Bool :=
  Ahead.isEnd ts || Ahead.isGroup .brace ts || [",", ";", "="].any (Ahead.isOperator · ts)
    || isLoneColon ts

def predicate (n : Nested) : Rule Unit := do
  let ts ← ahead
  if Ahead.isLifetime ts && Ahead.isOperator ":" (Ahead.next ts) then
    lifetime
    operator ":"
    boundsUntil endsPredicate lifetime
  else
    let _ ← binder? n
    let _ ← n.type true
    operator ":"
    boundsUntil endsPredicate (n.bound {})

/-- A where clause, if there is one; it is not printed. -/
def whereClause? (n : Nested) : Rule (Option WhereClause) := do
  let (found, _) ← captured (word? "where")
  if found then
    let predicates ← collectPredicates ((← ahead).length + 1)
    return some ⟨predicates⟩
  else return none
where
  collectPredicates : Nat → Rule (List (Phrase × Bool))
    | 0 => return []
    | fuel + 1 => do
      if ← sees endsPredicate then return []
      let (_, p) ← captured (predicate n)
      let (comma, _) ← captured (operator? ",")
      if comma then return (p, true) :: (← collectPredicates fuel) else return [(p, false)]

/-- The parameters in angles, if there are any; they are not printed. -/
def genericParameters (n : Nested) : Rule (List (Parameter × Bool)) := do
  let (ps, _) ← captured do
    if ← operator? "<" then
      let ps ← parameters n
      operator ">"
      return ps
    else return []
  return ps

/-- The fields of an anonymous record, as they stand. -/
def anonymousRecord (fields : Rule Unit) : Rule Unit := verbatim do
  let _ ← anyWord
  fields

/-- A named field. The field named by an underscore may be an anonymous record. -/
def namedFieldFor (n : Nested) : Nat → Rule NamedField
  | 0 => fail .excessToken
  | fuel + 1 => do
    let _ ← outerAttributes n
    visibility
    let unnamed ← seesWord "_"
    let name ← nameOf (if unnamed then anyWord else identifier)
    operator ":"
    let ts ← ahead
    let (_, type) ← captured do
      if unnamed && (Ahead.isWord "struct" ts
          || Ahead.isWord "union" ts && Ahead.isGroup .brace (Ahead.next ts)) then
        anonymousRecord do
          let _ ← group .brace (commaList (namedFieldFor n fuel))
      else
        let _ ← n.type true
    return ⟨name, type⟩

def namedField (n : Nested) : Rule NamedField := do namedFieldFor n ((← ahead).length + 1)

/-- The type of a field without a name. -/
def positionalField (n : Nested) : Rule Phrase := do
  let _ ← outerAttributes n
  visibility
  let (_, type) ← captured (n.type true)
  return type

def namedFields (n : Nested) : Rule (List NamedField) := group .brace (commaList (namedField n))

def positionalFields (n : Nested) : Rule (List Phrase) :=
  group .paren (commaList (positionalField n))

/-- The fields of a struct with its where clause, which stands before braces and after
parentheses. -/
def structBody (n : Nested) : Rule (Option WhereClause × Fields) := do
  let before? ← whereClause? n
  if before?.isNone && (← seesGroup .paren) then
    let fields ← positionalFields n
    let after? ← whereClause? n
    operator ";"
    return (after?, .positional fields)
  else if ← seesGroup .brace then return (before?, .named (← namedFields n))
  else
    operator ";"
    return (before?, .unit)

def variant (n : Nested) : Rule Unit := do
  let _ ← outerAttributes n
  visibility
  let _ ← identifier
  if ← seesGroup .brace then
    let _ ← namedFields n
  else if ← seesGroup .paren then
    let _ ← positionalFields n
  if ← operator? "=" then
    let _ ← n.expression true

/-- The keyword of a declaration. -/
def keyword : Rule String := do
  let ts ← ahead
  match ["struct", "enum", "union"].find? (Ahead.isWord · ts) with
  | some w =>
    word w
    return w
  | none => fail (.expected "`struct`, `enum` or `union`")

def declarationOf (n : Nested) : Rule Declaration := do
  let attributes ← outerAttributes n
  let (_, visibility) ← captured visibility
  let w ← keyword
  let name ← nameOf identifier
  let parameters ← genericParameters n
  match w with
  | "struct" =>
    let (where?, fields) ← structBody n
    return ⟨attributes, visibility, name, { parameters, where? }, .struct fields⟩
  | "enum" =>
    let where? ← whereClause? n
    let _ ← group .brace (commaList (variant n))
    return ⟨attributes, visibility, name, { parameters, where? }, .enum⟩
  | _ =>
    let where? ← whereClause? n
    let _ ← namedFields n
    return ⟨attributes, visibility, name, { parameters, where? }, .union⟩

/-! ## Whole texts -/

/-- Why a text is not what it should be. -/
inductive ReadError where
  /-- It cannot be split into tokens. -/
  | tokens
  | grammar (e : SyntaxError)
deriving DecidableEq, Repr

/-- Reads all tokens by a rule. -/
def readTokens {α : Type} (r : Nested → Rule α) (ts : List Token) : Except SyntaxError (α × Phrase) :=
  readAll (r (nestedFor ts)) ts

/-- Reads all of a text by a rule. -/
def read {α : Type} (r : Nested → Rule α) (source : String) : Except ReadError (α × Phrase) :=
  match scan? source with
  | none => .error .tokens
  | some ts => (readTokens r ts).mapError .grammar

def Declaration.read (source : String) : Except ReadError Declaration :=
  (Source.read declarationOf source).map (·.1)

end RecordRows.Source
