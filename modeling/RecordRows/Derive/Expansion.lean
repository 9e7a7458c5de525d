import RecordRows.Derive.EntityImpl

/-!
The three derivations. A derivation answers with the items it generates or with its problems, and
as generated code each problem becomes a compile error.
-/
namespace RecordRows

open Source

inductive Derivation where
  | fromRow | toRow | entity
deriving DecidableEq, Repr

namespace Derivation

def name : Derivation → String
  | .fromRow => "FromRow"
  | .toRow => "ToRow"
  | .entity => "Entity"

def all : List Derivation := [.fromRow, .toRow, .entity]

def ofName? (s : String) : Option Derivation := all.find? (·.name == s)

/-- Only entities need names for their fields. -/
def namesRequired : Derivation → Bool
  | .fromRow | .toRow => false
  | .entity => true

end Derivation

/-- Why an expansion fails: with problems to report, or on a type that cannot be given a bound. -/
inductive ExpansionError where
  | problems (ps : List Problem)
  | unboundable (t : UnboundableType)
deriving Repr

/-- A refusal that points at the name of the record. -/
def refuseAt {α : Type} (d : Declaration) (r : Except Refusal α) : Except ExpansionError α :=
  r.mapError fun r => .problems [⟨.refusal r, d.name.place?⟩]

/-- The entity that a declaration describes. Its shape is checked before its options. -/
def Source.Declaration.entity (d : Declaration) : Except ExpansionError Entity := do
  let shape ← refuseAt d (Shape.inspect d Derivation.entity.name Derivation.entity.namesRequired)
  let options ← (EntityOptions.ofAttributes d.attributes).mapError .problems
  let identifier ← refuseAt d (options.identifierName shape)
  return ⟨shape, options, identifier⟩

def Source.Declaration.expand (d : Declaration) (derivation : Derivation) :
    Except ExpansionError Phrase :=
  let shape := refuseAt d (Shape.inspect d derivation.name derivation.namesRequired)
  match derivation with
  | .fromRow => do (← shape).fromRow.mapError .unboundable
  | .toRow => do (← shape).toRow.mapError .unboundable
  | .entity => d.entity.map Entity.phrase

/-- The compile error with a message. -/
def compileError (message : String) : Phrase :=
  Phrase.spelled ":: core :: compile_error !" ++ Phrase.grouped .brace [textLiteral message]

/-- The generated code of a derivation, problems included. -/
def Source.Declaration.derive (d : Declaration) (derivation : Derivation) :
    Except UnboundableType Phrase :=
  match d.expand derivation with
  | .ok items => .ok items
  | .error (.problems ps) => .ok (ps.flatMap fun p => compileError p.message)
  | .error (.unboundable t) => .error t

end RecordRows
