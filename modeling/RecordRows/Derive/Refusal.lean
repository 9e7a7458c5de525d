/-!
Why a record is refused: its shape does not fit, or a name it needs is taken or cannot be resolved.
-/
namespace RecordRows

/-- A declaration that is no struct. -/
inductive NonStruct where
  | enum | union
deriving DecidableEq, Repr

def NonStruct.plural : NonStruct → String
  | .enum => "enums"
  | .union => "unions"

inductive RefusalKind where
  | unsupportedShape | emptyConstructor | missingFieldNames | nameCollision | lookupFailure
deriving DecidableEq, Repr

def RefusalKind.label : RefusalKind → String
  | .unsupportedShape => "unsupported shape"
  | .emptyConstructor => "empty constructor"
  | .missingFieldNames => "missing field names"
  | .nameCollision => "name collision"
  | .lookupFailure => "lookup failure"

/-- A reason for refusal. Those about the shape tell for which derivation it is needed. -/
inductive Refusal where
  | notStruct (derive : String) (found : NonStruct)
  | noFields (derive : String)
  | namesRequired (derive : String)
  | shadows (identifier : String)
  | unresolvedType (raw : String)
  | unresolvedFunction (raw : String)
deriving DecidableEq, Repr

namespace Refusal

def kind : Refusal → RefusalKind
  | .notStruct .. => .unsupportedShape
  | .noFields _ => .emptyConstructor
  | .namesRequired _ => .missingFieldNames
  | .shadows _ => .nameCollision
  | .unresolvedType _ | .unresolvedFunction _ => .lookupFailure

/-- The message without the label of its kind. -/
def detail : Refusal → String
  | .notStruct derive found => s!"{derive} can only be derived for structs, not {found.plural}"
  | .noFields derive => s!"{derive} requires at least one field"
  | .namesRequired derive => s!"{derive} requires named fields, found a tuple struct"
  | .shadows identifier => s!"identifier type `{identifier}` would shadow the record itself"
  | .unresolvedType raw => s!"cannot resolve id_type `{raw}`"
  | .unresolvedFunction raw => s!"cannot resolve naming function `{raw}`"

def message (r : Refusal) : String := r.kind.label ++ ": " ++ r.detail

end Refusal

end RecordRows
