import RecordRows.Proofs.Derive.Acceptance
import RecordRows.Proofs.Derive.Attributes
import RecordRows.Proofs.Derive.Metadata

/-!
What an entity is reported with. The problems of all attributes are reported together and hide what
is checked after them: the type of identifiers, and then their name. As generated code, every
reported problem is one compile error, and nothing else is generated (`entity_reported`).
-/
namespace RecordRows

open Source Phrase

namespace Generated

/-! ## Compile errors read back -/

/-- The message of a compile error. -/
def readCompileError : Reader String := fun p => do
  let p ← behind (spelled ":: core :: compile_error !" ++ [Lexeme.opening .brace]) p
  let (message, p) ← readLiteral p
  let p ← behind [Lexeme.closing .brace] p
  return (message, p)

/-- The messages of compile errors, up to the end. -/
def readCompileErrors : Nat → Phrase → Option (List String)
  | _, [] => some []
  | 0, _ => none
  | fuel + 1, p => do
    let (message, p) ← readCompileError p
    let messages ← readCompileErrors fuel p
    return message :: messages

/-- The messages of generated code that consists of compile errors. -/
def messages? (p : Phrase) : Option (List String) := readCompileErrors p.length p

theorem readCompileError_append (message : String) (rest : Phrase) :
    readCompileError (compileError message ++ rest) = some (message, rest) := by
  have split : compileError message ++ rest =
      (spelled ":: core :: compile_error !" ++ [Lexeme.opening .brace])
        ++ textLiteral message :: ([Lexeme.closing .brace] ++ rest) := by
    simp [compileError, grouped]
  rw [readCompileError, split]
  simp only [behind_append, Option.bind_eq_bind, Option.bind_some, readLiteral_textLiteral,
    Option.pure_def]

theorem readCompileErrors_flatMap (messages : List String) (fuel : Nat)
    (enough : messages.length ≤ fuel) :
    readCompileErrors fuel (messages.flatMap compileError) = some messages := by
  induction messages generalizing fuel with
  | nil => cases fuel <;> rfl
  | cons message messages ih =>
    cases fuel with
    | zero => cases enough
    | succ fuel =>
      rw [List.flatMap_cons, readCompileErrors]
      · simp [readCompileError_append, ih fuel (Nat.le_of_succ_le_succ enough)]
      · simp [compileError, grouped]

theorem messages?_flatMap (messages : List String) :
    messages? (messages.flatMap compileError) = some messages := by
  apply readCompileErrors_flatMap
  induction messages with
  | nil => exact Nat.le_refl 0
  | cons message messages ih =>
    have nonempty : 0 < (compileError message).length := by simp [compileError, grouped]
    rw [List.flatMap_cons, List.length_append, List.length_cons]
    omega

end Generated

open Generated EntityOptions

/-! ## Reports of an entity -/

variable {d : Declaration} {s : Shape}

theorem Source.Declaration.derive_of_problems {ps : List Problem}
    (failed : d.entity = .error (.problems ps)) :
    ∃ out, d.derive .entity = .ok out ∧ messages? out = some (ps.map Problem.message) := by
  refine ⟨(ps.map Problem.message).flatMap compileError, ?_, messages?_flatMap _⟩
  rw [Declaration.derive, Declaration.expand, failed, List.flatMap_map]
  rfl

theorem Source.Declaration.entity_of_error {ps : List Problem} (accepted : d.shapeFor .entity = .ok s)
    (failed : ofAttributes d.attributes = .error ps) : d.entity = .error (.problems ps) := by
  have accepted : Shape.inspect d Derivation.entity.name Derivation.entity.namesRequired = .ok s :=
    accepted
  rw [Declaration.entity, accepted, failed]
  rfl

/-- The name that identifiers get. -/
def EntityOptions.identifier (o : EntityOptions) (s : Shape) : String :=
  o.idName?.getD (s.name.plain ++ "Id")

theorem Source.Declaration.entity_of_ok {o : EntityOptions} (accepted : d.shapeFor .entity = .ok s)
    (ok : ofAttributes d.attributes = .ok o) :
    d.entity = if o.identifier s = s.name.plain
      then .error (.problems [⟨.refusal (.shadows (o.identifier s)), d.name.place?⟩])
      else .ok ⟨s, o, o.identifier s⟩ := by
  have accepted : Shape.inspect d Derivation.entity.name Derivation.entity.namesRequired = .ok s :=
    accepted
  have name : o.identifierName s = if o.identifier s = s.name.plain
      then .error (.shadows (o.identifier s)) else .ok (o.identifier s) := rfl
  rw [Declaration.entity, accepted, ok]
  change refuseAt d (o.identifierName s) >>= _ = _
  rw [name]
  split <;> rfl

/-- The problems of all entries are reported, as many as there are. Where there are none, a type of
identifiers that cannot be resolved is the only problem, and where that is resolved, a name that is
the record's own. Each problem becomes a compile error, and there is nothing beside them. -/
theorem entity_reported {items : List ListEntry} (listed : Itemized d.attributes items) :
    let sayings := items.map ListEntry.saying
    (0 < problemCount [] sayings → ∃ ps, ofAttributes d.attributes = .error ps ∧
      ps.length = problemCount [] sayings ∧ (∀ p ∈ ps, p.cause.OfEntry) ∧
      ∀ s, d.shapeFor .entity = .ok s → d.entity = .error (.problems ps)) ∧
    (problemCount [] sayings = 0 → (∃ raw, Unresolved sayings raw) →
      ∃ raw place?, Unresolved sayings raw ∧
        ofAttributes d.attributes = .error [⟨.refusal (.unresolvedType raw), place?⟩] ∧
        ∀ s, d.shapeFor .entity = .ok s →
          d.entity = .error (.problems [⟨.refusal (.unresolvedType raw), place?⟩])) ∧
    (problemCount [] sayings = 0 → (¬ ∃ raw, Unresolved sayings raw) →
      ∃ o, ofAttributes d.attributes = .ok o ∧ ∀ s, d.shapeFor .entity = .ok s →
        d.entity = if o.identifier s = s.name.plain
          then .error (.problems [⟨.refusal (.shadows (o.identifier s)), d.name.place?⟩])
          else .ok ⟨s, o, o.identifier s⟩) ∧
    ∀ ps, d.entity = .error (.problems ps) →
      ∃ out, d.derive .entity = .ok out ∧ messages? out = some (ps.map Problem.message) := by
  intro sayings
  refine ⟨?_, ?_, ?_, fun ps failed => d.derive_of_problems failed⟩
  all_goals
    have outcome := outcome_ofAttributes listed
    generalize result : ofAttributes d.attributes = r at outcome
  · intro positive
    cases outcome with
    | reported _ count entry =>
      exact ⟨_, rfl, count, entry, fun s accepted => d.entity_of_error accepted result⟩
    | unresolved sound => exact absurd sound positive.ne'
    | accepted sound => exact absurd sound positive.ne'
  · rintro sound ⟨raw, type⟩
    cases outcome with
    | reported positive => exact absurd sound positive.ne'
    | unresolved _ type =>
      exact ⟨_, _, type, rfl, fun s accepted => d.entity_of_error accepted result⟩
    | accepted _ describes => exact absurd type (describes.resolved raw)
  · intro sound resolved
    cases outcome with
    | reported positive => exact absurd sound positive.ne'
    | unresolved _ type => exact absurd ⟨_, type⟩ resolved
    | accepted => exact ⟨_, rfl, fun s accepted => d.entity_of_ok accepted result⟩

/-- Entries that are a literal, an unknown key, a value that is no text, and a list with two words
that name no capability. -/
def flawedEntries : List Token :=
  Phrase.unplaced (spelled "7 , tables , column_naming = snake , id_derive"
    ++ grouped .paren (spelled "Debug , Tag , 3"))

/-- An entry whose key has been used. -/
def repeatedEntry : List Token :=
  Phrase.unplaced (spelled "column_naming =" ++ [.literal "\"identity\""])

/-- A record with fields that are named like the cursor, like a keyword and like the local name of
another field. -/
def Shape.awkward : Shape where
  name := ⟨"r#struct", none⟩
  visibility := []
  generics := {}
  fields := .named [⟨⟨"row", none⟩, [.word "u8"]⟩, ⟨⟨"r#type", none⟩,
      spelled "Option < Box < dyn Fn" ++ grouped .paren [] ++ spelled "-> u8 > >"⟩,
    ⟨⟨"field_1", none⟩, [.word "u8"]⟩]
  nonempty := by simp [RecordFields.types]

/-- A record with problems in two attributes. -/
def flawed : Declaration where
  attributes := [⟨false, ["entity"], .list flawedEntries, none⟩, ⟨false, ["doc"], .none, none⟩,
    ⟨false, ["entity"], .list repeatedEntry, none⟩]
  visibility := []
  name := Shape.awkward.name
  generics := {}
  body := Shape.awkward.fields.body

theorem entity_reported_flawed :
    ∃ ps out, flawed.entity = .error (.problems ps) ∧ ps.length = 6 ∧
      flawed.derive .entity = .ok out ∧ messages? out = some (ps.map Problem.message) := by
  let item (word : String) (argument : MetaArgument) : ListEntry :=
    .item ⟨false, [word], argument, some ⟨0, 0⟩⟩
  let items : List ListEntry := [.literal (some ⟨0, 0⟩), item "tables" .none,
    item "column_naming" (.value (.path (some "snake")) (some ⟨0, 0⟩)),
    item "id_derive" (.list (Phrase.unplaced (spelled "Debug , Tag , 3")))]
  let repeated := item "column_naming" (.value (.literal "\"identity\"") (some ⟨0, 0⟩))
  have first : readEntries flawedEntries = .ok items := by decide +kernel
  have second : readEntries repeatedEntry = .ok [repeated] := by decide +kernel
  have listed : Itemized flawed.attributes (items ++ ([repeated] ++ [])) :=
    .list rfl rfl first (.unrelated rfl (.list rfl rfl second .nil))
  have count : problemCount [] ((items ++ ([repeated] ++ [])).map ListEntry.saying) = 6 := by
    decide +kernel
  obtain ⟨reported, -, -, derived⟩ := entity_reported listed
  obtain ⟨ps, -, length, -, reportedFor⟩ := reported (by rw [count]; decide)
  have failed := reportedFor Shape.awkward rfl
  obtain ⟨out, generated, messages⟩ := derived ps failed
  exact ⟨ps, out, failed, length.trans count, generated, messages⟩

end RecordRows
