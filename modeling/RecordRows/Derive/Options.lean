import RecordRows.Derive.Capability
import RecordRows.Derive.Naming
import RecordRows.Derive.Problem
import RecordRows.Derive.Shape
import RecordRows.Text.Similarity

/-!
The options of an entity. All attributes named `entity` are read in order; each entry of their lists
sets one option or is reported, and only when nothing is reported the options count.
-/
namespace RecordRows

open Source

/-! ## Single entries -/

/-- What an entry sets. The type of identifiers is kept as text, with its place. -/
inductive Setting where
  | columnNaming (n : Naming)
  | idDerive (cs : List Capability)
  | idName (name : String)
  | idType (raw : String) (place? : Option Span)
  | tableNaming (n : Naming)
deriving Repr

/-- A failure that points at a place. -/
def problemAt {α : Type} (place? : Option Span) (cause : ProblemCause) : Except (List Problem) α :=
  .error [⟨cause, place?⟩]

/-- The entries of a list of tokens. -/
def readEntries (content : List Token) : Except (List Problem) (List ListEntry) :=
  match readTokens listEntries content with
  | .ok (entries, _) => .ok entries
  | .error e => problemAt e.place? (.malformed e)

/-- The text of an item's path. -/
def Source.MetaItem.key (m : MetaItem) : String :=
  (if m.rooted then "::" else "") ++ String.intercalate "::" m.words

/-- The text that is the value of an item, with its place. -/
def textValue (m : MetaItem) : Except (List Problem) (String × Option Span) :=
  match m.argument with
  | .none => problemAt m.place? (.unexpectedForm .word)
  | .list content => do
    let _ ← readEntries content
    problemAt m.place? (.unexpectedForm .list)
  | .value (.literal text) place? =>
    match stringContent? text with
    | some s => .ok (s, place?)
    | none => problemAt place? (.unexpectedType (LiteralForm.ofText text).name)
  | .value form place? => problemAt place? (.unexpectedType form.name)

def namingValue (m : MetaItem) : Except (List Problem) Naming := do
  let (raw, place?) ← textValue m
  match Naming.ofText? raw with
  | some n => return n
  | none => problemAt place? (.refusal (.unresolvedFunction raw))

/-- Reads an identifier and nothing else. -/
def readIdentifier? (raw : String) : Option String :=
  match Source.read (fun _ => Rule.identifier) raw with
  | .ok (name, _) => some name
  | .error _ => none

/-- A name, given as a bare identifier or as a text without a suffix. -/
def nameValue (m : MetaItem) : Except (List Problem) String :=
  match m.argument with
  | .value (.path (some w)) _ => .ok w
  | .value (.literal text) place? => do
    let (raw, _) ← textValue m
    if hasSuffix text then problemAt place? (.unknownValue raw)
    else
      match readIdentifier? raw with
      | some name => .ok name
      | none => problemAt place? (.unknownValue raw)
  | _ => (textValue m).map (·.1)
where
  hasSuffix (text : String) : Bool := (Text.unquote? text.toList).any fun r => !r.2.isEmpty

/-- The results of all, or the problems of those that fail, in order. -/
def settle {α : Type} (outcomes : List (Except (List Problem) α)) : Except (List Problem) (List α) :=
  let problems := outcomes.flatMap fun
    | .error problems => problems
    | .ok _ => []
  if problems.isEmpty then .ok (outcomes.filterMap Except.toOption) else .error problems

/-- The capability that an entry of a list names. -/
def capabilityEntry : ListEntry → Except (List Problem) Capability
  | .item m =>
    match m.argument, m.words with
    | .none, [w] =>
      match Capability.ofName? w with
      | some c => .ok c
      | none => problemAt m.place? (.unknownValue m.key)
    | .none, _ => problemAt m.place? (.unknownValue m.key)
    | _, _ => problemAt m.place? (.unexpectedType "non-word")
  | .literal place? => problemAt place? (.unexpectedType "non-word")

def capabilitiesValue (m : MetaItem) : Except (List Problem) (List Capability) :=
  match m.argument with
  | .list content => do settle ((← readEntries content).map capabilityEntry)
  | _ => do
    let (_, place?) ← textValue m
    problemAt place? (.unexpectedType "string")

def settingFor (m : MetaItem) : OptionKey → Except (List Problem) Setting
  | .columnNaming => (namingValue m).map .columnNaming
  | .idDerive => (capabilitiesValue m).map .idDerive
  | .idName => (nameValue m).map .idName
  | .idType => (textValue m).map fun (raw, place?) => .idType raw place?
  | .tableNaming => (namingValue m).map .tableNaming

/-! ## All entries -/

/-- What each entry sets; the keys in `seen` may not occur again, whether their values were good or
not. -/
def settings (seen : List OptionKey) :
    List (Except (List Problem) ListEntry) → List (Except (List Problem) Setting)
  | [] => []
  | .error problems :: rest => .error problems :: settings seen rest
  | .ok (.literal place?) :: rest =>
    problemAt place? (.unexpectedForm .literal) :: settings seen rest
  | .ok (.item m) :: rest =>
    match OptionKey.ofName? m.key with
    | none =>
      let similar? := Text.nearest? m.key (OptionKey.all.map OptionKey.name)
      problemAt m.place? (.unknownKey m.key similar?) :: settings seen rest
    | some key =>
      if seen.contains key then problemAt m.place? (.duplicateKey key.name) :: settings seen rest
      else settingFor m key :: settings (key :: seen) rest

/-- The entries of an attribute, or its one problem. -/
def attributeEntries (m : MetaItem) : List (Except (List Problem) ListEntry) :=
  match m.argument with
  | .none => []
  | .value .. => [problemAt m.place? .valueForList]
  | .list content =>
    match readEntries content with
    | .ok entries => entries.map .ok
    | .error problems => [.error problems]

/-- Whether an attribute holds options. -/
def isEntityAttribute (m : MetaItem) : Bool := !m.rooted && m.words == ["entity"]

structure EntityOptions where
  tableNaming : Naming := .identity
  columnNaming : Naming := .identity
  capabilities : Capabilities := .standard
  /-- The type that identifiers wrap; an integer of any size unless it is set. -/
  idType : Phrase := Phrase.spelled ":: rowbind :: BigInt"
  idName? : Option String := none

namespace EntityOptions

/-- Reads a type and nothing else. -/
def readType? (raw : String) : Option Phrase :=
  match Source.read (type · true) raw with
  | .ok (_, phrase) => some phrase
  | .error _ => none

/-- Applies a setting to options. Only the type of identifiers can still fail. -/
def set (o : EntityOptions) : Setting → Except (List Problem) EntityOptions
  | .columnNaming n => .ok { o with columnNaming := n }
  | .idDerive cs => .ok { o with capabilities := .ofList cs }
  | .idName name => .ok { o with idName? := some name }
  | .idType raw place? =>
    match readType? raw with
    | some phrase => .ok { o with idType := phrase }
    | none => problemAt place? (.refusal (.unresolvedType raw))
  | .tableNaming n => .ok { o with tableNaming := n }

/-- The options that the attributes of a declaration set. -/
def ofAttributes (attributes : List MetaItem) : Except (List Problem) EntityOptions := do
  let entries := (attributes.filter isEntityAttribute).flatMap attributeEntries
  (← settle (settings [] entries)).foldlM set {}

/-- The name of the identifier type: the one that is set, or the record's name and `Id`. It must
differ from the name of the record. -/
def identifierName (o : EntityOptions) (s : Shape) : Except Refusal String :=
  let name := o.idName?.getD (s.name.plain ++ "Id")
  if name = s.name.plain then .error (.shadows name) else .ok name

end EntityOptions

end RecordRows
