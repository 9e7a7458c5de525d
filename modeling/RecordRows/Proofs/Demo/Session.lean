import RecordRows.Catalogue.Records
import RecordRows.Demo.Session
import RecordRows.Proofs.Derive.Collision
import RecordRows.Proofs.Derive.Metadata
import RecordRows.Proofs.Row.Outcome
import RecordRows.Proofs.Row.RoundTrip

/-!
A session on any rows. The insert statement names the columns in order and has one numbered place
for each of them, which belongs to the value that is written at its index
(`inserts_insertStatement`, `fits_entity`). Every row is logged once, as the account it holds or
with the column that is to blame; the accounts are those of the rows that decode, and the first of
them is found again (`session_settled`).
-/
namespace RecordRows.Demo

open Source Generated

/-! ## Statements -/

/-- Texts one after another, with a comma and a blank between two of them. -/
inductive Listed : List (List Char) → List Char → Prop
  | one (x : List Char) : Listed [x] x
  | more {x cs : List Char} {xs : List (List Char)} :
      Listed xs cs → Listed (x :: xs) (x ++ ',' :: ' ' :: cs)

/-- The place for the column at an index; places count from one. -/
def place (i : Nat) : List Char := '$' :: Nat.toDigits 10 (i + 1)

/-- The items of the last list in parentheses. -/
def lastItems (cs : List Char) : List (List Char) :=
  (((cs.reverse.drop 1).takeWhile (· != '(')).reverse.splitOn ',').map (·.dropWhile (· == ' '))

/-- The text inserts a row into a table: it lists columns and numbered places for their values. -/
structure Inserts (table : String) (columns : List String) (text : String) : Prop where
  spelled : ∃ names places, text.toList = "INSERT INTO ".toList ++ table.toList ++ " (".toList
    ++ names ++ ") VALUES (".toList ++ places ++ ")".toList ∧
    Listed (columns.map String.toList) names ∧
    Listed ((List.range columns.length).map place) places
  places : lastItems text.toList = (List.range columns.length).map place

theorem listed_intercalate {xs : List (List Char)} (some : xs ≠ []) :
    Listed xs ([',', ' '].intercalate xs) := by
  induction xs with
  | nil => exact absurd rfl some
  | cons x xs ih =>
    cases xs with
    | nil =>
      rw [List.intercalate_singleton]
      exact .one x
    | cons y ys =>
      rw [List.intercalate_cons_cons, List.append_assoc]
      exact .more (ih (by simp))

/-- A list splits at its commas, which leaves the blanks behind them. -/
theorem intercalate_blank (x : List Char) (xs : List (List Char)) :
    [',', ' '].intercalate (x :: xs) = [','].intercalate (x :: xs.map (' ' :: ·)) := by
  induction xs generalizing x with
  | nil => simp
  | cons y ys ih =>
    rw [List.intercalate_cons_cons, ih y, List.map_cons, List.intercalate_cons_cons]
    cases ys <;> simp

theorem mem_place {i : Nat} {c : Char} (h : c ∈ place i) : c = '$' ∨ c.isDigit = true :=
  (List.mem_cons.mp h).imp_right (Nat.isDigit_of_mem_toDigits (by decide) (by decide))

theorem notMem_place {c : Char} (dollar : c ≠ '$') (digit : c.isDigit = false) (i : Nat) :
    c ∉ place i := by
  intro h
  rcases mem_place h with rfl | h
  · exact dollar rfl
  · rw [digit] at h
    cases h

/-- Numbered places are read back from a list of them. -/
theorem splitOn_places {is : List Nat} (nonempty : is ≠ []) :
    (([',', ' '].intercalate (is.map place)).splitOn ',').map (·.dropWhile (· == ' '))
      = is.map place := by
  cases is with
  | nil => exact absurd rfl nonempty
  | cons i is =>
    have comma (j : Nat) : ',' ∉ place j := notMem_place (by decide) (by decide) j
    rw [List.map_cons, intercalate_blank, List.splitOn_intercalate]
    · simp [place]
    · simp only [List.mem_cons, List.mem_map]
      rintro l (rfl | ⟨_, ⟨j, -, rfl⟩, rfl⟩)
      · exact comma i
      · simpa using comma j
    · simp

theorem notMem_intercalate {c : Char} {s : List Char} {xs : List (List Char)} (separator : c ∉ s)
    (items : ∀ x ∈ xs, c ∉ x) : c ∉ s.intercalate xs := by
  induction xs with
  | nil => simp
  | cons x xs ih =>
    have more := ih fun y h => items y (List.mem_cons_of_mem _ h)
    cases xs with
    | nil => simpa using items x
    | cons y ys =>
      rw [List.intercalate_cons_cons]
      simp only [List.mem_append, not_or]
      exact ⟨⟨items x (by simp), separator⟩, more⟩

theorem lastItems_append {items : List Char} (inside : '(' ∉ items) (before : List Char) :
    lastItems (before ++ '(' :: (items ++ [')']))
      = (items.splitOn ',').map (·.dropWhile (· == ' ')) := by
  have kept : (items.reverse ++ '(' :: before.reverse).takeWhile (· != '(') = items.reverse := by
    rw [List.takeWhile_append_of_pos fun c h => ?_]
    · simp
    · have : c ≠ '(' := by
        rintro rfl
        exact inside (List.mem_reverse.mp h)
      simpa using this
  simp [lastItems, kept]

theorem toList_insertStatement (table : String) (columns : List String) :
    (insertStatement table columns).toList = "INSERT INTO ".toList ++ table.toList ++ " (".toList
      ++ [',', ' '].intercalate (columns.map String.toList) ++ ") VALUES (".toList
      ++ [',', ' '].intercalate ((List.range columns.length).map place) ++ ")".toList := by
  have numbered (i : Nat) : (s!"${i + 1}").toList = place i := by simp [toString, place]
  have places : ((List.range columns.length).map fun i => s!"${i + 1}").map String.toList
      = (List.range columns.length).map place := by
    rw [List.map_map]
    exact List.map_congr_left fun i _ => numbered i
  have blank : ", ".toList = [',', ' '] := by decide
  rw [← places, ← blank, ← String.toList_intercalate, ← String.toList_intercalate]
  simp only [← String.toList_append]
  rfl

theorem inserts_insertStatement (table : String) {columns : List String}
    (nonempty : columns ≠ []) : Inserts table columns (insertStatement table columns) where
  spelled := ⟨_, _, toList_insertStatement table columns,
    listed_intercalate (by simpa using nonempty), listed_intercalate (by simpa using nonempty)⟩
  places := by
    have parenthesis (i : Nat) : '(' ∉ place i := notMem_place (by decide) (by decide) i
    have inside : '(' ∉ [',', ' '].intercalate ((List.range columns.length).map place) :=
      notMem_intercalate (by decide) (by simpa using fun i _ => parenthesis i)
    have opening : ") VALUES (".toList = ") VALUES ".toList ++ ['('] := by decide
    have closing : ")".toList = [')'] := by decide
    have numbers : List.range columns.length ≠ [] := by simpa using nonempty
    have read (before : List Char) :=
      (lastItems_append inside before).trans (splitOn_places numbers)
    rw [toList_insertStatement, opening, closing]
    simpa using read ("INSERT INTO ".toList ++ table.toList ++ " (".toList
      ++ [',', ' '].intercalate (columns.map String.toList) ++ ") VALUES ".toList)

/-! ## Entities -/

/-- The column of a field. -/
def column (c : Cell) : Value := c.1.encode c.2

theorem toRow_eq_map_cells (ts : Schema) (xs : ts.Fields) :
    ts.toRow xs = (ts.cells xs).map column := by
  induction ts with
  | nil => rfl
  | cons t ts ih =>
    obtain ⟨x, xs⟩ := xs
    exact congrArg (t.encode x :: ·) (ih xs)

theorem map_fst_cells (ts : Schema) (xs : ts.Fields) : (ts.cells xs).map Sigma.fst = ts := by
  induction ts with
  | nil => rfl
  | cons t ts ih =>
    obtain ⟨x, xs⟩ := xs
    exact congrArg (t :: ·) (ih xs)

/-- The names of the columns of an entity, where `call` evaluates functions. -/
def names (call : Phrase → String → String) (e : Entity) : List String :=
  e.columns.map (·.eval call)

/-- The statement that inserts a row of an entity. -/
def statement (call : Phrase → String → String) (e : Entity) : String :=
  insertStatement (e.table.eval call) (names call e)

/-- The rows that are written for a record fit the statement of its entity: the field at an index
has its name there, its place, and the value that is written for it. -/
structure Fits (call : Phrase → String → String) (e : Entity) (fields : List NamedField)
    (type : Phrase → ColumnType) : Prop where
  inserts : Inserts (e.table.eval call) (names call e) (statement call e)
  written : ∀ xs : Schema.Fields ((RecordFields.named fields).types.map type),
    (writing (.named fields)).run column (.named fields) (Schema.cells _ xs)
      = some (Schema.encodeRow _ xs).result
  width : ∀ xs : Schema.Fields ((RecordFields.named fields).types.map type),
    (Schema.encodeRow _ xs).result.length = (lastItems (statement call e).toList).length
  bound : ∀ (xs : Schema.Fields ((RecordFields.named fields).types.map type)) (i : Nat) f,
    fields[i]? = some f →
      (names call e)[i]? = some (e.options.columnNaming.apply call f.name.plain) ∧
      (lastItems (statement call e).toList)[i]? = some (place i) ∧
      (writing (.named fields)).field? i = some f.name.text ∧
      ∃ x, (Schema.cells _ xs)[i]? = some ⟨type f.type, x⟩ ∧
        (Schema.encodeRow _ xs).result[i]? = some ((type f.type).encode x)

theorem fits_entity {e : Entity} {fields : List NamedField} (named : e.shape.fields = .named fields)
    (call : Phrase → String → String) (type : Phrase → ColumnType) : Fits call e fields type := by
  have aligned := Entity.aligned named call
  have nonempty : fields ≠ [] := by
    rintro rfl
    exact e.shape.nonempty (by rw [named]; rfl)
  have columns : names call e =
      fields.map fun f => e.options.columnNaming.apply call f.name.plain := aligned.columns
  have inserts : Inserts (e.table.eval call) (names call e) (statement call e) :=
    inserts_insertStatement _ (by simpa [columns] using nonempty)
  have places : lastItems (statement call e).toList = (List.range fields.length).map place := by
    rw [inserts.places, columns, List.length_map]
  have cells (xs : Schema.Fields ((RecordFields.named fields).types.map type)) :
      (Schema.cells _ xs).length = fields.length := by
    rw [← List.length_map (f := Sigma.fst), map_fst_cells]
    simp [RecordFields.types]
  refine ⟨inserts, fun xs => ?_, fun xs => ?_, fun xs i f found => ?_⟩
  · rw [Schema.encodeRow, toRow_eq_map_cells]
    exact run_writing column (by rw [cells]; simp [RecordFields.types])
  · rw [Schema.encodeRow, toRow_eq_map_cells, List.length_map, cells, places]
    simp
  · obtain ⟨inside, rfl⟩ := List.getElem?_eq_some_iff.mp found
    refine ⟨by simp [columns, inside], by simp [places, inside], field?_writing found, ?_⟩
    have typed : ((Schema.cells _ xs).map Sigma.fst)[i]? = some (type fields[i].type) := by
      rw [map_fst_cells]
      simp [RecordFields.types, inside]
    rw [List.getElem?_map, Option.map_eq_some_iff] at typed
    obtain ⟨⟨t, x⟩, cell, rfl⟩ := typed
    refine ⟨x, cell, ?_⟩
    rw [Schema.encodeRow, toRow_eq_map_cells, List.getElem?_map, cell]
    rfl

/-! ## Accounts -/

/-- The declaration of accounts. -/
def declaration : String :=
  "#[entity(table_naming = \"snake_case\", id_type = \"i64\", "
    ++ "id_derive(Eq, Ord, Hash, Debug, Clone, Copy, Display))] pub struct UserAccount "
    ++ Catalogue.braced
      "pub id: i64, pub name: String, pub email: Option<String>, pub active: bool"

/-- The name that an expression denotes without calling a function. -/
def constant? : NameExpression → Option String
  | .constant name => some name
  | .applied .. => none

theorem eval_of_constant? {c : NameExpression} {name : String} (h : constant? c = some name)
    (call : Phrase → String → String) : c.eval call = name := by
  cases c with
  | constant text => exact Option.some_inj.mp h
  | applied path text => cases h

theorem map_eval_of_constant? {cs : List NameExpression} {names : List String}
    (h : cs.map constant? = names.map some) (call : Phrase → String → String) :
    cs.map (·.eval call) = names := by
  induction cs generalizing names with
  | nil => simpa using h.symm
  | cons c cs ih =>
    cases names with
    | nil => cases h
    | cons name names =>
      rw [List.map_cons, List.map_cons, List.cons.injEq] at h
      rw [List.map_cons, eval_of_constant? h.1, ih h.2]

theorem append_eq_ofList {s t : String} {cs ds : List Char} (hs : s = String.ofList cs)
    (ht : t = String.ofList ds) : s ++ t = String.ofList (cs ++ ds) := by
  rw [hs, ht, String.ofList_append]

/-- The declaration derives an entity that tells the table and the columns of the session, and its
fields have the column types of an account. -/
theorem declared : ∃ (d : Declaration) (e : Entity),
    Declaration.read declaration = .ok d ∧ d.entity = .ok e ∧
      e.shape.fields.types.mapM (ColumnType.ofPhrase? []) = some Account.schema ∧
      ∀ call, e.table.eval call = table ∧ names call e = columns := by
  have told : (Declaration.read declaration).toOption.bind (fun d => d.entity.toOption.map fun e =>
      (e.shape.fields.types.mapM (ColumnType.ofPhrase? []), constant? e.table,
        e.columns.map constant?))
      = some (some Account.schema, some table, columns.map some) := by
    have text : declaration = String.ofList _ :=
      append_eq_ofList (append_eq_ofList rfl rfl)
        (append_eq_ofList (append_eq_ofList rfl rfl) rfl)
    rw [Declaration.read, text, Source.read, scan?_ofList]
    decide +kernel
  obtain ⟨d, read, told⟩ := Option.bind_eq_some_iff.mp told
  obtain ⟨e, entity, told⟩ := Option.map_eq_some_iff.mp told
  simp only [Prod.mk.injEq] at told
  exact ⟨d, e, eq_ok_of_toOption read, eq_ok_of_toOption entity, told.1, fun call =>
    ⟨eval_of_constant? told.2.1 call, map_eval_of_constant? told.2.2 call⟩⟩

namespace Account

/-- The account that a row holds. -/
def ofRow? (row : Row) : Option Account := ((schema.decodeRow row).result.map ofFields).toOption

theorem fields_ofFields (xs : schema.Fields) : (ofFields xs).fields = xs := rfl

theorem ofRow?_eq_some_iff {row : Row} {a : Account} :
    ofRow? row = some a ↔ (schema.decodeRow row).result = .ok a.fields := by
  rw [ofRow?]
  cases (schema.decodeRow row).result with
  | error e => simp [Except.map, Except.toOption]
  | ok xs =>
    simp only [Except.map, Except.toOption, Option.some_inj, Except.ok.injEq]
    constructor
    · rintro rfl
      exact (fields_ofFields xs).symm
    · rintro rfl
      rfl

/-- An account has no field that encoding could lose. -/
theorem decodeRow_encodeRow_fields (a : Account) :
    (schema.decodeRow (schema.encodeRow a.fields).result).result = .ok a.fields := by
  have settled : schema.quiet (schema.norm a.fields) = a.fields := by
    obtain ⟨id, name, email, active⟩ := a
    cases email <;> rfl
  exact (schema.decodeRow_toRow a.fields).trans (congrArg Except.ok settled)

end Account

/-! ## The log -/

/-- What is logged of a row. -/
inductive Tells (row : Row) : LogRecord → Prop
  /-- The row holds an account. -/
  | decoded {a : Account} : Account.ofRow? row = some a →
      Tells row (record .info "decoded user" [("id", toString a.id.val), ("name", a.name)])
  /-- The row has the right width, and this column is the first one that is refused. -/
  | refused {i : Nat} {e : ColumnError} : row.length = Account.schema.columns →
      Account.schema.RefusesFirst row i e →
      Tells row (record .warn "skipping row"
        [("error", (RowError.column i e).message), ("column", s!"Some({i})")])
  /-- The row has another width, for which no column is to blame. -/
  | misfit : row.length ≠ Account.schema.columns →
      Tells row (record .warn "skipping row"
        [("error", (RowError.columnCount Account.schema.columns row.length).message),
          ("column", "None")])

theorem admits_record {level : Level} (severe : level.rank ≤ 3) (message : String)
    (fields : List (String × String)) :
    standardFilter.admits (record level message fields) = true := by
  have decisive : standardFilter.decisive? "demo_basic".toList
      = some { target? := some "demo_basic".toList, level := some .info } := by
    decide
  rw [LogFilter.admits, record, decisive]
  exact decide_eq_true severe

/-- The events of rows are not among what is logged by default. -/
theorem admits_ofRowEvent (e : RowEvent) :
    standardFilter.admits (LogRecord.ofRowEvent e) = false := by
  have decisive : standardFilter.decisive? LogRecord.rowTarget.toList = none := by
    decide
  rw [LogFilter.admits, LogRecord.ofRowEvent, decisive]
  rfl

theorem filter_events (es : List RowEvent) :
    (es.map LogRecord.ofRowEvent).filter standardFilter.admits = [] := by
  rw [List.filter_eq_nil_iff]
  intro r h
  obtain ⟨e, -, rfl⟩ := List.mem_map.mp h
  simp [admits_ofRowEvent]

/-- Reading a row logs one record of it, and finds the account that it holds. -/
theorem readAccount_settled (row : Row) :
    (readAccount row).2 = Account.ofRow? row ∧
      ∃ r, Tells row r ∧ (readAccount row).1.filter standardFilter.admits = [r] := by
  have one {level : Level} (severe : level.rank ≤ 3) (message : String)
      (fields : List (String × String)) (es : List RowEvent) :
      (es.map LogRecord.ofRowEvent ++ [record level message fields]).filter standardFilter.admits
        = [record level message fields] := by
    rw [List.filter_append, filter_events, List.nil_append, List.filter_singleton,
      admits_record severe]
    rfl
  by_cases width : row.length = Account.schema.columns
  · obtain accepted | ⟨i, e, first⟩ := Account.schema.accepts_or_refusesFirst row
    · obtain ⟨xs, -, run⟩ := Schema.decodeRow_of_accepts width accepted
      have holds : Account.ofRow? row = some (Account.ofFields xs) := by
        rw [Account.ofRow?, run]
        rfl
      rw [holds, readAccount, run]
      exact ⟨rfl, _, .decoded holds, one (by decide) ..⟩
    · have run := Schema.decodeRow_of_refusesFirst width first
      rw [Account.ofRow?, readAccount, run]
      exact ⟨rfl, _, .refused width first, one (by decide) ..⟩
  · have run : Account.schema.decodeRow row
        = ⟨.error (.columnCount Account.schema.columns row.length),
          [.widthMismatch Account.schema.columns row.length]⟩ := by
      rw [Schema.decodeRow, if_pos width]
    rw [Account.ofRow?, readAccount, run]
    exact ⟨rfl, _, .misfit width, one (by decide) ..⟩

/-- What is logged of an account whose parameters are bound. -/
def boundRecord (a : Account) : LogRecord :=
  record .info "bound insert parameters" [("id", toString a.id.val),
    ("columns", toString Account.schema.columns), ("expected", toString Account.schema.columns)]

theorem filter_bindAccount (a : Account) :
    (bindAccount a).filter standardFilter.admits = [boundRecord a] := by
  have width : (Account.schema.encodeRow a.fields).result.length = Account.schema.columns :=
    Account.schema.length_toRow a.fields
  rw [bindAccount, List.filter_append, filter_events, List.nil_append, List.filter_singleton,
    admits_record (by decide), width]
  rfl

theorem rereadAccount_settled (a : Account) :
    (rereadAccount a).2 = .ok () ∧
      (rereadAccount a).1.filter standardFilter.admits
        = [record .info "re-decoded first user" [("round_trip", "true")]] := by
  have same : (Account.ofFields a.fields == a) = true := beq_self_eq_true a
  rw [rereadAccount]
  simp only [Account.decodeRow_encodeRow_fields, Except.map, same, true_and]
  rw [List.filter_append, filter_events, List.nil_append, List.filter_singleton,
    admits_record (by decide)]
  rfl

/-! ## The session -/

theorem forall₂_tells (rows : List Row) : ∃ lines, List.Forall₂ Tells rows lines ∧
    (rows.map readAccount).filterMap (·.2) = rows.filterMap Account.ofRow? ∧
    ((rows.map readAccount).flatMap (·.1)).filter standardFilter.admits = lines := by
  induction rows with
  | nil => exact ⟨[], .nil, rfl, rfl⟩
  | cons row rows ih =>
    obtain ⟨lines, tells, accounts, logged⟩ := ih
    obtain ⟨found, r, told, one⟩ := readAccount_settled row
    refine ⟨r :: lines, .cons told tells, ?_, ?_⟩
    · rw [List.map_cons, List.filterMap_cons, List.filterMap_cons, found, accounts]
    · rw [List.map_cons, List.flatMap_cons, List.filter_append, one, logged]
      rfl

theorem filter_flatMap_bindAccount (accounts : List Account) :
    (accounts.flatMap bindAccount).filter standardFilter.admits = accounts.map boundRecord := by
  induction accounts with
  | nil => rfl
  | cons a accounts ih =>
    rw [List.flatMap_cons, List.filter_append, filter_bindAccount, ih]
    rfl

/-- What a session logs by default: the statement, one record for each row, one for each account
that it found, the outcome of reading the first of them again, and the widths. -/
def Logs (rows : List Row) (log : List LogRecord) : Prop :=
  ∃ lines, List.Forall₂ Tells rows lines ∧
    log.filter standardFilter.admits =
      record .info "prepared insert" [("sql", insertStatement table columns)] ::
        (lines ++ (rows.filterMap Account.ofRow?).map boundRecord
          ++ (if rows.filterMap Account.ofRow? = [] then []
            else [record .info "re-decoded first user" [("round_trip", "true")]])
          ++ [record .info "column counts" [("decoder_columns", "4"), ("metadata_columns", "4")]])

theorem session_logs (rows : List Row) :
    (session rows).2 = .ok () ∧ Logs rows (session rows).1 := by
  obtain ⟨lines, tells, found, logged⟩ := forall₂_tells rows
  have begun : (record .info "prepared insert" [("sql", insertStatement table columns)] ::
        (rows.map readAccount).flatMap (·.1)
        ++ (rows.filterMap Account.ofRow?).flatMap bindAccount).filter standardFilter.admits
      = record .info "prepared insert" [("sql", insertStatement table columns)] ::
        (lines ++ (rows.filterMap Account.ofRow?).map boundRecord) := by
    rw [List.cons_append, List.filter_cons_of_pos (admits_record (by decide) ..),
      List.filter_append, logged, filter_flatMap_bindAccount]
  have counted : [record .info "column counts"
        [("decoder_columns", toString Account.schema.columns),
          ("metadata_columns", toString columns.length)]].filter standardFilter.admits
      = [record .info "column counts" [("decoder_columns", "4"), ("metadata_columns", "4")]] := by
    rw [List.filter_singleton, admits_record (by decide)]
    rfl
  simp only [Logs, session, found]
  cases accounts : rows.filterMap Account.ofRow? with
  | nil =>
    rw [accounts] at begun
    refine ⟨rfl, lines, tells, ?_⟩
    rw [List.filter_append, begun, counted]
    simp
  | cons first others =>
    rw [accounts] at begun
    obtain ⟨ok, reread⟩ := rereadAccount_settled first
    rcases reading : rereadAccount first with ⟨log, result⟩
    rw [reading] at ok reread
    subst ok
    simp only [reading]
    refine ⟨trivial, lines, tells, ?_⟩
    rw [List.filter_append, List.filter_append, begun, counted, reread]
    simp

/-- An insert statement lists the columns and a numbered place for each of them, and for every
entity the places belong to the values that are written for its record. A session on any rows comes
to its end: it logs the rows one by one, binds as many parameters for each account that a row holds
as the statement has places, and finds the first account again. -/
theorem session_settled :
    (∀ table columns, columns ≠ [] → Inserts table columns (insertStatement table columns)) ∧
    (∀ {d : Declaration} {e : Entity}, d.entity = .ok e →
      ∃ fields, d.body = .struct (.named fields) ∧ ∀ call type, Fits call e fields type) ∧
    (∃ (d : Declaration) (e : Entity), Declaration.read declaration = .ok d ∧ d.entity = .ok e ∧
      e.shape.fields.types.mapM (ColumnType.ofPhrase? []) = some Account.schema ∧
      ∀ call, e.table.eval call = table ∧ names call e = columns) ∧
    ∀ rows : List Row,
      (rows.map readAccount).filterMap (·.2) = rows.filterMap Account.ofRow? ∧
      (session rows).2 = .ok () ∧ Logs rows (session rows).1 ∧
      ∀ a ∈ rows.filterMap Account.ofRow?,
        (Account.schema.encodeRow a.fields).result.length = Account.schema.columns ∧
        (lastItems (insertStatement table columns).toList).length = Account.schema.columns ∧
        Account.ofRow? (Account.schema.encodeRow a.fields).result = some a := by
  refine ⟨fun table _ => inserts_insertStatement table, fun {d e} accepted => ?_, declared,
    fun rows => ?_⟩
  · obtain ⟨body, -, -, -, names⟩ :=
      (Shape.inspect_eq_ok_iff _ _ _ _).mp (Entity.inspect_of_entity accepted)
    cases named : e.shape.fields with
    | positional types => exact absurd (names rfl) (by simp [named, RecordFields.IsNamed])
    | named fields =>
      rw [named] at body
      exact ⟨fields, body, fits_entity named⟩
  · obtain ⟨-, -, found, -⟩ := forall₂_tells rows
    obtain ⟨ok, logs⟩ := session_logs rows
    refine ⟨found, ok, logs, fun a _ => ⟨Account.schema.length_toRow a.fields, ?_, ?_⟩⟩
    · rw [(inserts_insertStatement table (by simp [columns])).places]
      rfl
    · exact Account.ofRow?_eq_some_iff.mpr a.decodeRow_encodeRow_fields

/-- A row of no width, one whose flag is no flag, and one with a number of the long form, without an
address and with a number as its flag. -/
def mixedRows : List Row :=
  [[], [.bigInt 4, .text "eve", .null, .bigInt 1],
    [.bigInt 5, .text "flo", .null, .int ⟨1, by decide, by decide⟩]]

theorem session_settled_mixed :
    columns ≠ [] ∧ Inserts table columns (insertStatement table columns) ∧
    (∃ (d : Declaration) (e : Entity) (fields : List NamedField), d.entity = .ok e ∧
      d.body = .struct (.named fields) ∧ ∀ call type, Fits call e fields type) ∧
    ∃ a ∈ mixedRows.filterMap Account.ofRow?, a.name = "flo" ∧ a.active = true ∧
      (Account.schema.encodeRow a.fields).result.length = Account.schema.columns ∧
      Account.ofRow? (Account.schema.encodeRow a.fields).result = some a := by
  obtain ⟨insert, entities, ⟨d, e, -, accepted, -⟩, sessions⟩ := session_settled
  have nonempty : columns ≠ [] := by decide
  let flo : Account := ⟨⟨5, by decide, by decide⟩, "flo", none, true⟩
  have found : flo ∈ mixedRows.filterMap Account.ofRow? := by decide
  obtain ⟨fields, body, fits⟩ := entities accepted
  obtain ⟨width, -, again⟩ := (sessions mixedRows).2.2.2 flo found
  exact ⟨nonempty, insert table columns nonempty, ⟨d, e, fields, accepted, body, fits⟩, flo, found,
    rfl, rfl, width, again⟩

end RecordRows.Demo
