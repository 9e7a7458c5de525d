import RecordRows.Proofs.Derive.Reading
import RecordRows.Proofs.Derive.Shape
import RecordRows.Proofs.Source.Nesting

/-!
The bodies of the two row implementations as programs: what is read back from the tokens of any
decoder and any encoder of a shape. A type ends before the first angle that closes none of its own;
so every balanced type is read back as it stands (`readsTypes_of_balanced`).
-/
namespace RecordRows.Generated

open Source Phrase

/-- The record's own type with a local name for each part. Members are spelled as they stand. -/
inductive Parts where
  | byName (parts : List (String × String))
  | byPosition (parts : List String)
deriving DecidableEq, Repr

/-- A local name that is given the next column of a cursor, read at a type. -/
structure Statement where
  binding : String
  cursor : String
  type : Phrase
deriving DecidableEq, Repr

/-- The body of an implementation that reads a record: its constant, and a function of a cursor. -/
structure ReadingBody where
  columns : Nat
  parameter : String
  statements : List Statement
  result : Parts
  /-- The tokens that `result` was read from. -/
  resultTokens : Phrase

/-- The body of an implementation that writes a record: its constant, the pattern that the record is
taken apart with, and the names whose columns are put in a row. -/
structure WritingBody where
  columns : Nat
  pattern : Parts
  /-- The tokens that `pattern` was read from. -/
  patternTokens : Phrase
  outputs : List String

/-! ## Readers -/

/-- A count with its suffix. -/
def count? (text : String) : Option Nat :=
  let digits := text.toList.takeWhile Char.isDigit
  if digits ≠ [] ∧ text.toList.dropWhile Char.isDigit = "usize".toList then
    some (Nat.ofDigitChars 10 digits 0)
  else none

def readColumns : Reader Nat := fun p => do
  match ← behind (spelled "const COLUMNS : usize =") p with
  | .literal text :: p =>
    let n ← count? text
    let p ← behind (spelled ";") p
    return (n, p)
  | _ => none

/-- A member with the local name of its part. -/
def readMember : Reader (String × String)
  | .word m :: .punct ':' false :: p => do
    let (x, p) ← readName p
    return ((m, x), p)
  | _ => none

def readParts : Reader Parts := fun p => do
  let p ← behind [Lexeme.word "Self"] p
  match readList readMember .brace p with
  | some (parts, p) => return (.byName parts, p)
  | none =>
    let (parts, p) ← readList readName .paren p
    return (.byPosition parts, p)

def readStatement (type : Reader Phrase) : Reader Statement := fun p => do
  let p ← behind [Lexeme.word "let"] p
  let (binding, p) ← readName p
  let p ← behind (spelled "=") p
  let (cursor, p) ← readName p
  let p ← behind (spelled ". next_column :: <") p
  let (t, p) ← type p
  let p ← behind (spelled ">" ++ grouped .paren [] ++ spelled "? ;") p
  return (⟨binding, cursor, t⟩, p)

/-- As many statements as there are. -/
def readStatements (type : Reader Phrase) : Nat → Reader (List Statement)
  | 0, _ => none
  | fuel + 1, p =>
    if p.head? = some (.word "let") then do
      let (s, p) ← readStatement type p
      let (ss, p) ← readStatements type fuel p
      return (s :: ss, p)
    else some ([], p)

/-- Reads all of a body. The last expression builds the record. -/
def readingBody (type : Reader Phrase) (p : Phrase) : Option ReadingBody := do
  let (columns, p) ← readColumns p
  let p ← behind (spelled "fn from_row" ++ [Lexeme.opening .paren]) p
  let (parameter, p) ← readName p
  let p ← behind (spelled ": & mut :: rowbind :: RowParser < '_ >" ++ [Lexeme.closing .paren]
    ++ spelled "-> :: core :: result :: Result < Self , :: rowbind :: RowError >"
    ++ [Lexeme.opening .brace]) p
  let (statements, p) ← readStatements type p.length p
  let p ← behind (spelled ":: core :: result :: Result :: Ok" ++ [Lexeme.opening .paren]) p
  let ((result, resultTokens), p) ← withTokens readParts p
  if p = [Lexeme.closing .paren, .closing .brace] then
    return ⟨columns, parameter, statements, result, resultTokens⟩
  else none

/-- A local name whose column is taken. -/
def readOutput : Reader String := fun p => do
  let p ← behind (spelled ":: rowbind :: ToColumn :: to_column" ++ [Lexeme.opening .paren]) p
  let (x, p) ← readName p
  let p ← behind [Lexeme.closing .paren] p
  return (x, p)

/-- Reads all of a body. The first statement takes the record apart. -/
def writingBody (p : Phrase) : Option WritingBody := do
  let (columns, p) ← readColumns p
  let p ← behind (spelled "fn to_row" ++ grouped .paren (spelled "& self")
    ++ spelled "-> :: std :: vec :: Vec < :: rowbind :: Value >"
    ++ [Lexeme.opening .brace, Lexeme.word "let"]) p
  let ((pattern, patternTokens), p) ← withTokens readParts p
  let p ← behind (spelled "= self ; :: std :: vec !") p
  let (outputs, p) ← readList readOutput .bracket p
  if p = [Lexeme.closing .brace] then return ⟨columns, pattern, patternTokens, outputs⟩ else none

/-! ## Reading back -/

theorem count?_usize (n : Nat) : count? s!"{n}usize" = some n := by
  have digits : ∀ c ∈ Nat.toDigits 10 n, c.isDigit := fun c hc =>
    Nat.isDigit_of_mem_toDigits (by decide) (by decide) hc
  have text : s!"{n}usize".toList = Nat.toDigits 10 n ++ "usize".toList := by
    simp [toString, Nat.toList_repr]
  have nonempty : Nat.toDigits 10 n ≠ [] := by
    intro h
    have := Nat.length_toDigits_pos (b := 10) (n := n)
    simp [h] at this
  rw [count?, text, List.takeWhile_append_of_pos digits, List.dropWhile_append_of_pos digits]
  simp [nonempty]

theorem readColumns_append (n : Nat) (rest : Phrase) :
    readColumns (columnsConstant n ++ rest) = some (n, rest) := by
  simp only [readColumns, columnsConstant, List.append_assoc, List.cons_append, List.nil_append,
    behind_append, Option.bind_eq_bind, Option.bind_some, count?_usize, Option.pure_def]

/-- The parts of a record that is put together from the local names of its fields. -/
def parts : RecordFields → Parts
  | .named fields => .byName ((fields.map (·.name.text)).zip (RecordFields.named fields).bindings)
  | .positional types => .byPosition (RecordFields.positional types).bindings

theorem readable_binding {d : Delimiter} (i : Nat) :
    Readable readName d (fun x => [Lexeme.word x]) (RecordFields.binding i) where
  reads rest := readName_cons (RecordFields.isKeyword_binding i) rest
  nonempty := by simp
  isItem := by simp

theorem readable_member {d : Delimiter} (m : String) (i : Nat) :
    Readable readMember d (fun p => [Lexeme.word p.1, .punct ':' false, .word p.2])
      (m, RecordFields.binding i) where
  reads rest := by simp [readMember, readName_cons (RecordFields.isKeyword_binding i)]
  nonempty := by simp
  isItem := by simp

/-- The text of a local name whose column is taken. -/
def outputPhrase (x : String) : Phrase :=
  spelled ":: rowbind :: ToColumn :: to_column" ++ grouped .paren [Lexeme.word x]

theorem readable_output {d : Delimiter} (i : Nat) :
    Readable readOutput d outputPhrase (RecordFields.binding i) where
  reads rest := by
    have split : outputPhrase (RecordFields.binding i) ++ rest =
        (spelled ":: rowbind :: ToColumn :: to_column" ++ [Lexeme.opening .paren])
          ++ .word (RecordFields.binding i) :: ([Lexeme.closing .paren] ++ rest) := by
      simp [outputPhrase, grouped]
    rw [readOutput, split]
    simp only [behind_append, Option.bind_eq_bind, Option.bind_some,
      readName_cons (RecordFields.isKeyword_binding i), Option.pure_def]
  nonempty := by simp [outputPhrase, grouped]
  isItem := by
    have colon : (spelled ":: rowbind :: ToColumn :: to_column").head? = some (.punct ':' true) := by
      decide
    simp [outputPhrase, List.head?_append, colon]

/-- The text of a member with the local name of its part. -/
def memberPhrase (p : String × String) : Phrase := [Lexeme.word p.1, .punct ':' false, .word p.2]

theorem assembleBindings_named (fields : List NamedField) :
    (RecordFields.named fields).assembleBindings.phrase =
      [Lexeme.word "Self"] ++ grouped .brace (separated (operator ",")
        (((fields.map (·.name.text)).zip (RecordFields.named fields).bindings).map
          memberPhrase)) := by
  have colon : operator ":" = [.punct ':' false] := rfl
  have names : fields.map (·.name.text) = (fields.map (·.name)).map Name.text := by simp
  rw [names, List.zip_map_left, List.map_map]
  simp [RecordFields.assembleBindings, RecordFields.assemble, Assembly.phrase, List.zip_map_right,
    Function.comp_def, Name.lexeme, memberPhrase, colon]

/-- A record that is put together from its local names is read back member by member. -/
theorem readParts_assembleBindings (fs : RecordFields) (rest : Phrase) :
    readParts (fs.assembleBindings.phrase ++ rest) = some (parts fs, rest) := by
  cases fs with
  | named fields =>
    have readable : ∀ p ∈ (fields.map (·.name.text)).zip (RecordFields.named fields).bindings,
        Readable readMember .brace memberPhrase p := by
      rintro ⟨m, x⟩ h
      obtain ⟨i, rfl⟩ := RecordFields.exists_binding (List.of_mem_zip h).2
      exact readable_member m i
    have listed := readList_grouped readable rest
    rw [assembleBindings_named, readParts, List.append_assoc]
    simp only [behind_append, Option.bind_eq_bind, Option.bind_some, listed, Option.pure_def, parts]
  | positional types =>
    have readable : ∀ x ∈ (RecordFields.positional types).bindings,
        Readable readName .paren (fun x => [Lexeme.word x]) x := by
      intro x h
      obtain ⟨i, rfl⟩ := RecordFields.exists_binding h
      exact readable_binding i
    have listed := readList_grouped readable rest
    have printed : (RecordFields.positional types).assembleBindings.phrase =
        [Lexeme.word "Self"] ++ grouped .paren (separated (operator ",")
          ((RecordFields.positional types).bindings.map fun x => [Lexeme.word x])) := by
      simp [RecordFields.assembleBindings, RecordFields.assemble, Assembly.phrase]
    have unnamed : readList readMember .brace (grouped .paren (separated (operator ",")
        ((RecordFields.positional types).bindings.map fun x => [Lexeme.word x])) ++ rest) = none := rfl
    rw [printed, readParts, List.append_assoc]
    simp only [behind_append, Option.bind_eq_bind, Option.bind_some, listed, unnamed,
      Option.pure_def, parts]

/-! ## Types in angles -/

/-- The types that stand before a closing angle are delimited as they are declared. -/
def ReadsTypes (type : Reader Phrase) (types : List Phrase) : Prop :=
  ∀ t ∈ types, ∀ rest, type (t ++ spelled ">" ++ rest) = some (t, spelled ">" ++ rest)

/-- Reads up to the angle that closes the ones around a type. -/
def typeBeforeAngle : (groups angles : Nat) → Reader Phrase
  | _, _, [] => none
  | g, a, .punct '-' true :: .punct '>' j :: p =>
    (typeBeforeAngle g a p).map fun (t, rest) => (.punct '-' true :: .punct '>' j :: t, rest)
  | g, a, .opening d :: p =>
    (typeBeforeAngle (g + 1) a p).map fun (t, rest) => (.opening d :: t, rest)
  | 0, _, .closing _ :: _ => none
  | g + 1, a, .closing d :: p =>
    (typeBeforeAngle g a p).map fun (t, rest) => (.closing d :: t, rest)
  | 0, a, .punct '<' j :: p =>
    (typeBeforeAngle 0 (a + 1) p).map fun (t, rest) => (.punct '<' j :: t, rest)
  | 0, 0, .punct '>' j :: p => some ([], .punct '>' j :: p)
  | 0, a + 1, .punct '>' j :: p =>
    (typeBeforeAngle 0 a p).map fun (t, rest) => (.punct '>' j :: t, rest)
  | g, a, l :: p => (typeBeforeAngle g a p).map fun (t, rest) => (l :: t, rest)

section
variable {t : Phrase}

/-- Inside of groups every token is read as it stands, angles and arrows among them. -/
theorem typeBeforeAngle_inside {l : Lexeme} (free : isDelimiter l = false) (g a : Nat) (p : Phrase) :
    typeBeforeAngle (g + 1) a (l :: p) =
      (typeBeforeAngle (g + 1) a p).map fun (u, rest) => (l :: u, rest) := by
  by_cases arrow : ∃ j q, l = .punct '-' true ∧ p = .punct '>' j :: q
  · obtain ⟨j, q, rfl, rfl⟩ := arrow
    simp [typeBeforeAngle, Function.comp_def]
  · rw [typeBeforeAngle]
    all_goals grind [isDelimiter]

/-- A token that means nothing for the balance of a type is read as it stands. -/
theorem typeBeforeAngle_free {l : Lexeme} (free : isFree l = true) (a : Nat) (p : Phrase) :
    typeBeforeAngle 0 a (l :: p) =
      (typeBeforeAngle 0 a p).map fun (u, rest) => (l :: u, rest) := by
  rw [typeBeforeAngle]
  all_goals grind [isFree]

theorem typeBeforeAngle_closed (h : Closed t) (g a : Nat) (p : Phrase) :
    typeBeforeAngle (g + 1) a (t ++ p) =
      (typeBeforeAngle (g + 1) a p).map fun (u, rest) => (t ++ u, rest) := by
  induction h generalizing g p with
  | nil => simp
  | leaf free _ ih =>
    rw [List.cons_append, typeBeforeAngle_inside free, ih, Option.map_map]
    rfl
  | group d e _ _ inner outer =>
    rw [List.cons_append, List.append_assoc, List.cons_append, typeBeforeAngle, inner,
      typeBeforeAngle, outer]
    simp [Function.comp_def]

/-- What is balanced is read as it stands, whatever angles it stands in. -/
theorem typeBeforeAngle_balanced (h : Balanced t) (a : Nat) (p : Phrase) :
    typeBeforeAngle 0 a (t ++ p) =
      (typeBeforeAngle 0 a p).map fun (u, rest) => (t ++ u, rest) := by
  induction h generalizing a p with
  | nil => simp
  | leaf free _ ih =>
    rw [List.cons_append, typeBeforeAngle_free free, ih, Option.map_map]
    rfl
  | arrow joint _ ih =>
    rw [List.cons_append, List.cons_append, typeBeforeAngle, ih, Option.map_map]
    rfl
  | negative joint text _ ih =>
    rw [List.cons_append, List.cons_append, typeBeforeAngle, typeBeforeAngle_free rfl, ih]
    · simp [Function.comp_def]
    all_goals simp
  | group d e content _ ih =>
    rw [List.cons_append, List.append_assoc, List.cons_append, typeBeforeAngle,
      typeBeforeAngle_closed content, typeBeforeAngle, ih]
    simp [Function.comp_def]
  | angles i j _ _ content more =>
    rw [List.cons_append, List.append_assoc, List.cons_append, typeBeforeAngle, content,
      typeBeforeAngle, more]
    simp [Function.comp_def]

end

/-- Balanced types are delimited by counting groups and angles. -/
theorem readsTypes_of_balanced {types : List Phrase} (h : ∀ t ∈ types, Balanced t) :
    ReadsTypes (typeBeforeAngle 0 0) types := by
  have angle : spelled ">" = [.punct '>' false] := by decide
  intro t member rest
  rw [angle, List.append_assoc, typeBeforeAngle_balanced (h t member), List.singleton_append,
    typeBeforeAngle, Option.map_some]
  simp

/-! ## Statements -/

/-- The statement of a column, as it is read back. -/
def statement (r : ColumnRead) : Statement := ⟨r.binding, "row", r.type⟩

theorem readStatement_phrase {type : Reader Phrase} {r : ColumnRead}
    (binding : Ahead.isKeyword r.binding = false) (reads : ReadsTypes type [r.type])
    (rest : Phrase) : readStatement type (r.phrase ++ rest) = some (statement r, rest) := by
  have cursor : Ahead.isKeyword "row" = false := by decide
  have spelling : spelled "= row . next_column :: <" =
      spelled "=" ++ .word "row" :: spelled ". next_column :: <" := by decide
  have type' := reads r.type (by simp)
  have split : r.phrase ++ rest =
      [Lexeme.word "let"] ++ .word r.binding :: (spelled "=" ++ .word "row" ::
        (spelled ". next_column :: <" ++ (r.type ++ spelled ">"
          ++ (grouped .paren [] ++ spelled "? ;" ++ rest)))) := by
    simp [ColumnRead.phrase, spelling]
  rw [readStatement, split]
  simp only [behind_append, Option.bind_eq_bind, Option.bind_some, readName_cons binding,
    readName_cons cursor, type']
  rw [← List.append_assoc, ← List.append_assoc]
  simp only [behind_append, Option.bind_some, Option.pure_def, statement]

theorem head?_phrase (r : ColumnRead) (rest : Phrase) :
    (r.phrase ++ rest).head? = some (.word "let") := by
  simp [ColumnRead.phrase]

theorem readStatements_flatMap {type : Reader Phrase} {rest : Phrase}
    (stops : rest.head? ≠ some (.word "let")) :
    ∀ (reads : List ColumnRead) (fuel : Nat),
      (∀ r ∈ reads, Ahead.isKeyword r.binding = false) → ReadsTypes type (reads.map (·.type)) →
      reads.length < fuel →
      readStatements type fuel (reads.flatMap ColumnRead.phrase ++ rest)
        = some (reads.map statement, rest) := by
  intro reads
  induction reads with
  | nil =>
    intro fuel _ _ enough
    cases fuel with
    | zero => exact absurd enough (Nat.not_lt_zero _)
    | succ fuel =>
      rw [List.flatMap_nil, List.nil_append, readStatements, if_neg stops, List.map_nil]
  | cons r reads ih =>
    intro fuel names types enough
    cases fuel with
    | zero => exact absurd enough (Nat.not_lt_zero _)
    | succ fuel =>
      have first := readStatement_phrase (names r (by simp))
        (fun t ht => types t (by simp at ht; simp [ht])) (reads.flatMap ColumnRead.phrase ++ rest)
      have more := ih fuel (fun q hq => names q (by simp [hq]))
        (fun t ht => types t (by rw [List.map_cons]; exact List.mem_cons_of_mem _ ht))
        (by simpa using enough)
      rw [List.flatMap_cons, List.append_assoc, readStatements, if_pos (head?_phrase r _), first]
      simp only [Option.bind_eq_bind, Option.bind_some, more, Option.pure_def, List.map_cons]

theorem length_le_length_flatMap (reads : List ColumnRead) :
    reads.length ≤ (reads.flatMap ColumnRead.phrase).length := by
  induction reads with
  | nil => simp
  | cons r reads ih =>
    simp only [List.flatMap_cons, List.length_append, List.length_cons]
    have := List.length_pos_iff.mpr (show r.phrase ≠ [] by simp [ColumnRead.phrase])
    omega

/-! ## Bodies of a shape -/

/-- The body that reads records with these fields, as a program. -/
def reading (fs : RecordFields) : ReadingBody where
  columns := fs.types.length
  parameter := "row"
  statements := (fs.bindings.zip fs.types).map fun (x, t) => ⟨x, "row", t⟩
  result := parts fs
  resultTokens := fs.assembleBindings.phrase

/-- The body that writes records with these fields, as a program. -/
def writing (fs : RecordFields) : WritingBody where
  columns := fs.types.length
  pattern := parts fs
  patternTokens := fs.assembleBindings.phrase
  outputs := fs.bindings

theorem decoder_reads (s : Shape) :
    s.decoder.reads = (s.fields.bindings.zip s.fields.types).map fun (x, t) => ⟨x, t⟩ := by
  rw [Shape.decoder, List.map_zip_eq_zipWith]
  rfl

theorem decoder_types (s : Shape) : s.decoder.reads.map (·.type) = s.fields.types := by
  rw [decoder_reads, List.map_map]
  exact List.map_snd_zip (Nat.le_of_eq s.fields.length_bindings.symm)

theorem isKeyword_of_mem_reads {s : Shape} {r : ColumnRead} (h : r ∈ s.decoder.reads) :
    Ahead.isKeyword r.binding = false := by
  rw [decoder_reads] at h
  obtain ⟨⟨x, t⟩, hp, rfl⟩ := List.mem_map.mp h
  obtain ⟨i, rfl⟩ := RecordFields.exists_binding (List.of_mem_zip hp).1
  exact RecordFields.isKeyword_binding i

/-- The tokens behind the last statement of a reading body. -/
def resultPhrase (fs : RecordFields) : Phrase :=
  spelled ":: core :: result :: Result :: Ok" ++ [Lexeme.opening .paren]
    ++ (fs.assembleBindings.phrase ++ [Lexeme.closing .paren, .closing .brace])

theorem head?_resultPhrase (fs : RecordFields) : (resultPhrase fs).head? ≠ some (.word "let") := by
  have colon : (spelled ":: core :: result :: Result :: Ok").head? = some (.punct ':' true) := by
    decide
  simp [resultPhrase, List.head?_append, colon]

theorem readingBody_decoder {type : Reader Phrase} {s : Shape}
    (types : ReadsTypes type s.fields.types) :
    readingBody type s.decoder.phrase = some (reading s.fields) := by
  have cursor : Ahead.isKeyword "row" = false := by decide
  have spelling : spelled "row : & mut :: rowbind :: RowParser < '_ >" =
      .word "row" :: spelled ": & mut :: rowbind :: RowParser < '_ >" := by decide
  have split : s.decoder.phrase = columnsConstant s.arity ++ ((spelled "fn from_row"
      ++ [Lexeme.opening .paren]) ++ .word "row" :: ((spelled ": & mut :: rowbind :: RowParser < '_ >"
      ++ [Lexeme.closing .paren]
      ++ spelled "-> :: core :: result :: Result < Self , :: rowbind :: RowError >"
      ++ [Lexeme.opening .brace]) ++ (s.decoder.reads.flatMap ColumnRead.phrase
      ++ resultPhrase s.fields))) := by
    simp [Decoder.phrase, grouped, spelling, resultPhrase, Shape.decoder]
  have statements := readStatements_flatMap (head?_resultPhrase s.fields) s.decoder.reads
    (s.decoder.reads.flatMap ColumnRead.phrase ++ resultPhrase s.fields).length
    (fun r => isKeyword_of_mem_reads) (by rw [decoder_types]; exact types) (by
      have := length_le_length_flatMap s.decoder.reads
      have : 0 < (resultPhrase s.fields).length := List.length_pos_iff.mpr (by simp [resultPhrase])
      rw [List.length_append]
      omega)
  have assembled := withTokens_append
    (readParts_assembleBindings s.fields [Lexeme.closing .paren, .closing .brace])
  rw [readingBody, split]
  simp only [readColumns_append, behind_append, readName_cons cursor, Option.bind_eq_bind,
    Option.bind_some, statements]
  rw [resultPhrase]
  simp only [behind_append, Option.bind_some, assembled, if_true, Option.pure_def]
  simp only [reading, decoder_reads, List.map_map, Shape.arity]
  rfl

theorem writingBody_encoder (s : Shape) :
    writingBody s.encoder.phrase = some (writing s.fields) := by
  have readable : ∀ x ∈ s.fields.bindings, Readable readOutput .bracket outputPhrase x := by
    intro x h
    obtain ⟨i, rfl⟩ := RecordFields.exists_binding h
    exact readable_output i
  have split : s.encoder.phrase = columnsConstant s.arity ++ ((spelled "fn to_row"
      ++ grouped .paren (spelled "& self")
      ++ spelled "-> :: std :: vec :: Vec < :: rowbind :: Value >"
      ++ [Lexeme.opening .brace, Lexeme.word "let"]) ++ (s.fields.assembleBindings.phrase
      ++ (spelled "= self ; :: std :: vec !" ++ (grouped .bracket (separated (operator ",")
        (s.fields.bindings.map outputPhrase)) ++ [Lexeme.closing .brace])))) := by
    have joined : spelled "= self ; :: std :: vec !" =
        spelled "= self ;" ++ spelled ":: std :: vec !" := by decide
    have column : (fun b => spelled ":: rowbind :: ToColumn :: to_column"
        ++ grouped .paren [Lexeme.word b]) = outputPhrase := rfl
    simp only [Encoder.phrase, Shape.encoder, joined, column]
    simp [grouped]
  have pattern := withTokens_append (readParts_assembleBindings s.fields
    (spelled "= self ; :: std :: vec !" ++ (grouped .bracket (separated (operator ",")
      (s.fields.bindings.map outputPhrase)) ++ [Lexeme.closing .brace])))
  have outputs := readList_grouped readable [Lexeme.closing .brace]
  rw [writingBody, split]
  simp only [readColumns_append, behind_append, Option.bind_eq_bind, Option.bind_some, pattern,
    outputs, if_true, Option.pure_def]
  rfl

end RecordRows.Generated
