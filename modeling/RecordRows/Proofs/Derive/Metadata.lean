import RecordRows.Proofs.Derive.Attributes
import RecordRows.Proofs.Derive.Layout
import RecordRows.Proofs.Text.StringLiteral

/-!
The names that an entity tells for its table and its columns, read back from the generated
accessors: they are the converted names of the record and its fields, and they stand in the order
in which the row implementations of the same declaration read and write the fields.
-/
namespace RecordRows

open Source Phrase

/-- A converted name, where `call` evaluates functions. -/
def Naming.apply (call : Phrase → String → String) : Naming → String → String
  | .identity, name => name
  | .rule r, name => r.convert name
  | .function path, name => call path name

theorem Naming.eval_expression (call : Phrase → String → String) (n : Naming) (name : String) :
    (n.expression name).eval call = n.apply call name := by
  cases n <;> rfl

/-- The path of a function, if the naming is one. -/
def Naming.path? : Naming → Option Phrase
  | .function path => some path
  | _ => none

theorem Naming.eq_function_of_path? {n : Naming} {path : Phrase} (h : n.path? = some path) :
    n = .function path := by
  cases n <;> cases h
  rfl

namespace Generated

/-! ## Accessors -/

/-- The accessors of an entity, with an expression for each name. -/
structure Accessors where
  table : NameExpression
  columns : List NameExpression

/-- The text that a literal denotes. -/
def readLiteral : Reader String
  | .literal text :: p =>
    match Text.unquote? text.toList with
    | some (cs, []) => some (String.ofList cs, p)
    | _ => none
  | _ => none

/-- An expression for a name, with a function that has a path or without one. -/
def readNameExpression (path : Reader Phrase) : Reader NameExpression := fun p => do
  let p ← behind (spelled ":: std :: string :: String :: from" ++ [Lexeme.opening .paren]) p
  match path p with
  | some (function, p) =>
    let p ← behind [Lexeme.opening .paren] p
    let (name, p) ← readLiteral p
    let p ← behind [Lexeme.closing .paren, .closing .paren] p
    return (.applied function name, p)
  | none =>
    let (name, p) ← readLiteral p
    let p ← behind [Lexeme.closing .paren] p
    return (.constant name, p)

/-- Reads all of the body of an implementation that names table and columns. -/
def readAccessors (path : Reader Phrase) (p : Phrase) : Option Accessors := do
  match ← behind (spelled "type Id =") p with
  | .word _ :: p =>
    let p ← behind (spelled "; fn table_name" ++ grouped .paren []
      ++ spelled "-> :: std :: string :: String" ++ [Lexeme.opening .brace]) p
    let (table, p) ← readNameExpression path p
    let p ← behind ([Lexeme.closing .brace] ++ spelled "fn column_names" ++ grouped .paren []
      ++ spelled "-> :: std :: vec :: Vec < :: std :: string :: String >" ++ [Lexeme.opening .brace]
      ++ spelled ":: std :: vec !") p
    let (columns, p) ← readList (readNameExpression path) .bracket p
    if p = [Lexeme.closing .brace] then return ⟨table, columns⟩ else none
  | _ => none

/-- The paths that stand before arguments are delimited as they are configured, and none starts
with a literal. -/
structure ReadsPaths (path : Reader Phrase) (namings : List Naming) : Prop where
  reads : ∀ n ∈ namings, ∀ p, n.path? = some p → ∀ rest,
    path (p ++ .opening .paren :: rest) = some (p, .opening .paren :: rest)
  literal : ∀ text rest, path (.literal text :: rest) = none

theorem readLiteral_textLiteral (s : String) (rest : Phrase) :
    readLiteral (textLiteral s :: rest) = some (s, rest) := by
  simp [readLiteral, textLiteral, Text.unquote?_quote]

theorem readable_expression {path : Reader Phrase} {namings : List Naming}
    (paths : ReadsPaths path namings) {d : Delimiter} {n : Naming} (h : n ∈ namings)
    (name : String) :
    Readable (readNameExpression path) d NameExpression.phrase (n.expression name) where
  reads rest := by
    have constant (text : String) : readNameExpression path
        ((NameExpression.constant text).phrase ++ rest) = some (.constant text, rest) := by
      have split : (NameExpression.constant text).phrase ++ rest =
          (spelled ":: std :: string :: String :: from" ++ [Lexeme.opening .paren])
            ++ textLiteral text :: ([Lexeme.closing .paren] ++ rest) := by
        simp [NameExpression.phrase, grouped]
      have unapplied : path (textLiteral text :: ([Lexeme.closing .paren] ++ rest)) = none :=
        paths.literal _ _
      rw [readNameExpression, split]
      simp only [behind_append, Option.bind_eq_bind, Option.bind_some, unapplied,
        readLiteral_textLiteral, Option.pure_def]
    cases n with
    | identity => exact constant name
    | rule r => exact constant (r.convert name)
    | function p =>
      have split : (NameExpression.applied p name).phrase ++ rest =
          (spelled ":: std :: string :: String :: from" ++ [Lexeme.opening .paren])
            ++ (p ++ .opening .paren :: textLiteral name
              :: ([Lexeme.closing .paren, .closing .paren] ++ rest)) := by
        simp [NameExpression.phrase, grouped]
      have applied := paths.reads _ h p rfl
        (textLiteral name :: ([Lexeme.closing .paren, .closing .paren] ++ rest))
      have opened (q : Phrase) : behind [Lexeme.opening .paren] (.opening .paren :: q) = some q :=
        behind_append [Lexeme.opening .paren] q
      rw [Naming.expression, readNameExpression, split]
      simp only [behind_append, Option.bind_eq_bind, Option.bind_some, applied, opened,
        readLiteral_textLiteral, Option.pure_def]
  nonempty := by simp [NameExpression.phrase, grouped]
  isItem := by
    have colon : (spelled ":: std :: string :: String :: from").head?
        = some (.punct ':' true) := by
      decide
    simp [NameExpression.phrase, List.head?_append, colon]

/-! ## Paths of functions -/

/-- Reads a path up to the arguments of its call: words and colons, with what stands in angles. -/
def pathBeforeCall : Nat → Reader Phrase
  | 0, _ => none
  | fuel + 1, .word w :: p => (pathBeforeCall fuel p).map fun (q, rest) => (.word w :: q, rest)
  | fuel + 1, .punct ':' i :: p =>
    (pathBeforeCall fuel p).map fun (q, rest) => (.punct ':' i :: q, rest)
  | fuel + 1, .punct '<' i :: p => do
    match ← typeBeforeAngle 0 0 p with
    | (arguments, .punct '>' j :: p) =>
      let (q, rest) ← pathBeforeCall fuel p
      return (.punct '<' i :: (arguments ++ .punct '>' j :: q), rest)
    | _ => none
  | _ + 1, .opening .paren :: p => some ([], .opening .paren :: p)
  | _ + 1, _ => none

def readPath : Reader Phrase := fun p => pathBeforeCall p.length p

theorem pathBeforeCall_append {p : Phrase} (h : IsPath p) (rest : Phrase) {fuel : Nat}
    (enough : p.length < fuel) :
    pathBeforeCall fuel (p ++ .opening .paren :: rest) = some (p, .opening .paren :: rest) := by
  induction h generalizing fuel with
  | nil =>
    obtain ⟨fuel, rfl⟩ := Nat.exists_eq_succ_of_ne_zero (Nat.ne_of_gt enough)
    rfl
  | word w _ ih =>
    obtain ⟨fuel, rfl⟩ := Nat.exists_eq_succ_of_ne_zero (Nat.ne_zero_of_lt enough)
    rw [List.cons_append, pathBeforeCall, ih (Nat.lt_of_succ_lt_succ enough)]
    rfl
  | colon i _ ih =>
    obtain ⟨fuel, rfl⟩ := Nat.exists_eq_succ_of_ne_zero (Nat.ne_zero_of_lt enough)
    rw [List.cons_append, pathBeforeCall, ih (Nat.lt_of_succ_lt_succ enough)]
    rfl
  | @angles i j p q content _ ih =>
    obtain ⟨fuel, rfl⟩ := Nat.exists_eq_succ_of_ne_zero (Nat.ne_zero_of_lt enough)
    have fewer : q.length < fuel := by
      simp only [List.length_cons, List.length_append] at enough
      omega
    rw [List.cons_append, List.append_assoc, List.cons_append, pathBeforeCall,
      typeBeforeAngle_balanced content, typeBeforeAngle]
    simp [ih fewer]

/-- Paths are delimited by what they are made of. -/
theorem readsPaths_of_isPath {namings : List Naming}
    (h : ∀ n ∈ namings, ∀ p, n.path? = some p → IsPath p) : ReadsPaths readPath namings where
  reads n member p path rest :=
    pathBeforeCall_append (h n member p path) rest (by simp)
  literal text rest := rfl

/-- What is read as the path of a function is a path. -/
theorem isPath_of_ofText? {value : String} {n : Naming} (read : Naming.ofText? value = some n)
    {p : Phrase} (path : n.path? = some p) : IsPath p := by
  unfold Naming.ofText? at read
  split at read
  · cases read
    cases path
  split at read
  · cases read
    cases path
  · obtain ⟨q, read, rfl⟩ := Option.map_eq_some_iff.mp read
    cases path
    unfold Naming.readPath? at read
    split at read
    · next form phrase whole =>
      cases read
      exact Rule.Keeps.read (fun m _ => inferInstanceAs (Rule.Keeps IsPath (Source.path m false))) whole
    · cases read

/-! ## Alignment -/

/-- The member that a local name stands for. -/
def Parts.member? : Parts → String → Option String
  | .byName ps, x => (ps.map Prod.swap).lookup x
  | .byPosition _, _ => none

/-- The field that is read from a column. -/
def ReadingBody.field? (b : ReadingBody) (i : Nat) : Option String :=
  b.statements[i]?.bind fun s => b.result.member? s.binding

/-- The field whose column is written at a position. -/
def WritingBody.field? (b : WritingBody) (i : Nat) : Option String :=
  b.outputs[i]?.bind fun x => b.pattern.member? x

theorem member?_parts {fields : List NamedField} {i : Nat} {f : NamedField}
    (h : fields[i]? = some f) :
    (parts (.named fields)).member? (RecordFields.binding i) = some f.name.text := by
  have names := names_parts (.named fields)
  have bindings := (RecordFields.named fields).nodup_bindings
  obtain ⟨inside, rfl⟩ := List.getElem?_eq_some_iff.mp h
  rw [parts, Parts.names] at names
  rw [parts, Parts.member?]
  apply lookup_eq_some_of_mem
  · have swapped : (Prod.fst ∘ Prod.swap : String × String → String) = fun p => p.2 := rfl
    rw [List.map_map, swapped, names]
    exact bindings
  · have member : (fields[i].name.text, RecordFields.binding i) ∈
        (fields.map (·.name.text)).zip (RecordFields.named fields).bindings := by
      apply List.mem_of_getElem? (i := i)
      rw [List.getElem?_zip_eq_some]
      simp [RecordFields.bindings, RecordFields.types, inside]
    exact List.mem_map.mpr ⟨_, member, rfl⟩

/-- A column is read into the field that is declared at its position. -/
theorem field?_reading {fields : List NamedField} {i : Nat} {f : NamedField}
    (h : fields[i]? = some f) : (reading (.named fields)).field? i = some f.name.text := by
  obtain ⟨inside, rfl⟩ := List.getElem?_eq_some_iff.mp h
  have statement : (reading (.named fields)).statements[i]?
      = some ⟨RecordFields.binding i, "row", fields[i].type⟩ := by
    simp [reading, RecordFields.bindings, RecordFields.types, inside]
  rw [ReadingBody.field?, statement]
  exact member?_parts h

/-- The column of a field is written at the position where the field is declared. -/
theorem field?_writing {fields : List NamedField} {i : Nat} {f : NamedField}
    (h : fields[i]? = some f) : (writing (.named fields)).field? i = some f.name.text := by
  obtain ⟨inside, rfl⟩ := List.getElem?_eq_some_iff.mp h
  have output : (writing (.named fields)).outputs[i]? = some (RecordFields.binding i) := by
    simp [writing, RecordFields.bindings, RecordFields.types, inside]
  rw [WritingBody.field?, output]
  exact member?_parts h

end Generated

namespace Entity

open Generated

/-- The body of the implementation that names table and columns. -/
def accessors (e : Entity) : Phrase :=
  spelled "type Id =" ++ [Lexeme.word e.identifier] ++ spelled "; fn table_name"
    ++ grouped .paren [] ++ spelled "-> :: std :: string :: String"
    ++ grouped .brace e.table.phrase
    ++ spelled "fn column_names" ++ grouped .paren []
    ++ spelled "-> :: std :: vec :: Vec < :: std :: string :: String >"
    ++ grouped .brace (spelled ":: std :: vec !" ++ grouped .bracket
      (separated (operator ",") (e.columns.map NameExpression.phrase)))

/-- The namings of an entity. -/
def namings (e : Entity) : List Naming := [e.options.tableNaming, e.options.columnNaming]

theorem readAccessors_accessors {e : Entity} {path : Reader Phrase}
    (paths : ReadsPaths path e.namings) :
    readAccessors path e.accessors = some ⟨e.table, e.columns⟩ := by
  have table : Readable (readNameExpression path) .brace NameExpression.phrase e.table :=
    readable_expression paths (by simp [namings]) _
  have columns : ∀ c ∈ e.columns,
      Readable (readNameExpression path) .bracket NameExpression.phrase c := by
    intro c h
    obtain ⟨name, -, rfl⟩ := List.mem_map.mp h
    exact readable_expression paths (by simp [namings]) name
  have listed := readList_grouped columns [Lexeme.closing .brace]
  have split : e.accessors = spelled "type Id =" ++ .word e.identifier
      :: ((spelled "; fn table_name" ++ grouped .paren []
        ++ spelled "-> :: std :: string :: String" ++ [Lexeme.opening .brace]) ++ (e.table.phrase
      ++ (([Lexeme.closing .brace] ++ spelled "fn column_names" ++ grouped .paren []
        ++ spelled "-> :: std :: vec :: Vec < :: std :: string :: String >" ++ [Lexeme.opening .brace]
        ++ spelled ":: std :: vec !") ++ (grouped .bracket
          (separated (operator ",") (e.columns.map NameExpression.phrase))
        ++ [Lexeme.closing .brace])))) := by
    simp [accessors, grouped]
  rw [readAccessors, split]
  simp only [behind_append, Option.bind_eq_bind, Option.bind_some, table.reads, listed, if_true,
    Option.pure_def]

/-- The items of an entity end with the implementation that names table and columns. -/
theorem phrase_eq (e : Entity) : ∃ before, e.phrase = before
    ++ implementation e.shape (spelled ":: rowbind :: Entity") e.shape.generics.whereClause
      e.accessors :=
  ⟨_, rfl⟩

/-- An entity has an accepted shape with names for its fields, and the options that its attributes
set. -/
theorem eq_ok_of_entity {d : Declaration} {e : Entity} (accepted : d.entity = .ok e) :
    Shape.inspect d "Entity" true = .ok e.shape ∧
      EntityOptions.ofAttributes d.attributes = .ok e.options := by
  obtain ⟨s, shape, accepted⟩ := exists_of_bind_eq_ok accepted
  obtain ⟨o, options, accepted⟩ := exists_of_bind_eq_ok accepted
  obtain ⟨identifier, -, accepted⟩ := exists_of_bind_eq_ok accepted
  cases accepted
  exact ⟨eq_ok_of_mapError shape, eq_ok_of_mapError options⟩

theorem inspect_of_entity {d : Declaration} {e : Entity} (accepted : d.entity = .ok e) :
    Shape.inspect d "Entity" true = .ok e.shape :=
  (eq_ok_of_entity accepted).1

/-- The paths of an entity's functions are delimited, since they have been read. -/
theorem readsPaths {d : Declaration} {e : Entity} (accepted : d.entity = .ok e) :
    ReadsPaths readPath e.namings := by
  refine readsPaths_of_isPath fun n member p path => ?_
  rcases EntityOptions.naming_of_ofAttributes (eq_ok_of_entity accepted).2 n member with
    rfl | ⟨value, read⟩
  · cases path
  · exact isPath_of_ofText? read path

end Entity

/-! ## The three derivations together -/

namespace Generated

/-- Accessors that name the record with these fields and the columns of its rows, by these namings:
column by column, the name is that of the field which is read from the column and of the field which
is written to it. -/
structure Aligned (call : Phrase → String → String) (table column : Naming) (record : Name)
    (fields : List NamedField) (a : Accessors) (r : ReadingBody) (w : WritingBody) : Prop where
  table : a.table.eval call = table.apply call record.plain
  columns : a.columns.map (·.eval call) = fields.map fun f => column.apply call f.name.plain
  columnsRead : a.columns.length = r.columns
  columnsWritten : a.columns.length = w.columns
  read : ∀ (i : Nat) (c : NameExpression), a.columns[i]? = some c →
    ∃ k, r.field? i = some k ∧ c.eval call = column.apply call (Name.plainText k)
  written : ∀ (i : Nat) (c : NameExpression), a.columns[i]? = some c →
    ∃ k, w.field? i = some k ∧ c.eval call = column.apply call (Name.plainText k)

end Generated

namespace Entity

open Generated

variable {d : Declaration} {e : Entity}

theorem aligned {fields : List NamedField} (named : e.shape.fields = .named fields)
    (call : Phrase → String → String) :
    Aligned call e.options.tableNaming e.options.columnNaming e.shape.name fields
      ⟨e.table, e.columns⟩ (reading (.named fields)) (writing (.named fields)) := by
  have columns : e.columns =
      fields.map fun f => e.options.columnNaming.expression f.name.plain := by
    rw [Entity.columns, named, RecordFields.names, List.map_map]
    rfl
  have entry : ∀ (i : Nat) (c : NameExpression), e.columns[i]? = some c →
      ∃ f : NamedField, fields[i]? = some f
      ∧ c.eval call = e.options.columnNaming.apply call (Name.plainText f.name.text) := by
    intro i c h
    rw [columns, List.getElem?_map, Option.map_eq_some_iff] at h
    obtain ⟨f, hf, rfl⟩ := h
    exact ⟨f, hf, Naming.eval_expression _ _ _⟩
  constructor
  · exact Naming.eval_expression _ _ _
  · rw [columns, List.map_map]
    exact List.map_congr_left fun f _ => Naming.eval_expression _ _ _
  · simp [columns, reading, RecordFields.types]
  · simp [columns, writing, RecordFields.types]
  · intro i c h
    obtain ⟨f, hf, name⟩ := entry i c h
    exact ⟨f.name.text, field?_reading hf, name⟩
  · intro i c h
    obtain ⟨f, hf, name⟩ := entry i c h
    exact ⟨f.name.text, field?_writing hf, name⟩

end Entity

end RecordRows
