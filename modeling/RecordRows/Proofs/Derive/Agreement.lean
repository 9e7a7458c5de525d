import RecordRows.Proofs.Derive.Header

/-!
The emitted implementations of a declaration, read back from its expansions. What stands behind the
heads of the two row implementations are programs that read and write the declared fields
(`expand_faithful`), and what stands behind the head of the entity names the columns of the same
rows (`expand_aligned`).
-/
namespace RecordRows

open Source Phrase Generated

/-- The bodies of the row implementations of a declaration read back as these programs. Where a
derivation is stuck on one of the types there is no implementation. -/
structure Source.Declaration.RowPrograms (d : Declaration) (types : List Phrase) (r : ReadingBody)
    (w : WritingBody) : Prop where
  reading : d.Stuck .fromRow types ∨ ∃ body, d.Emits .fromRow types [] body ∧
    readingBody (typeBeforeAngle 0 0) body = some r
  writing : d.Stuck .toRow types ∨ ∃ body, d.Emits .toRow types [] body ∧
    writingBody body = some w

variable {d : Declaration} {source : String}

/-! ## Row implementations -/

namespace Shape

variable {derive : String} {namesRequired : Bool} {s : Shape}

theorem rowPrograms (read : Declaration.read source = .ok d)
    (accepted : inspect d derive namesRequired = .ok s) :
    d.RowPrograms s.fields.types (reading s.fields) (writing s.fields) where
  reading := by
    have types := readsTypes_of_balanced (balanced_types read accepted)
    refine (Declaration.emits_fromRow read (inspect_of_inspect accepted _)).symm.imp_right ?_
    exact fun emits => ⟨_, emits, readingBody_decoder types⟩
  writing := by
    refine (Declaration.emits_toRow read (inspect_of_inspect accepted _)).symm.imp_right ?_
    exact fun emits => ⟨_, emits, writingBody_encoder s⟩

/-- Whatever the names, the types and the parameters of an accepted declaration are, the bodies of
its row implementations read back as programs that read and write its declared fields. -/
theorem expand_faithful (read : Declaration.read source = .ok d)
    (accepted : inspect d derive namesRequired = .ok s) :
    d.body = s.fields.body ∧ ∃ (r : ReadingBody) (w : WritingBody),
      d.RowPrograms s.fields.types r w ∧ Faithful s.fields r w :=
  ⟨((inspect_eq_ok_iff _ _ _ _).mp accepted).1, _, _, rowPrograms read accepted, faithful s.fields⟩

/-- A record with fields that are named like the cursor, like a keyword and like the local name of
another field. -/
def awkwardText : String :=
  "struct r#struct \x7b row: u8, r#type: Option<Box<dyn Fn() -> u8>>, field_1: u8 \x7d"

theorem expand_faithful_awkward : ∃ (d : Declaration) (s : Shape) (fromBody toBody : Phrase)
    (r : ReadingBody) (w : WritingBody), Declaration.read awkwardText = .ok d
      ∧ inspect d "ToRow" false = .ok s ∧ s.fields.names = ["row", "type", "field_1"]
      ∧ s.fields.types = [[.word "u8"],
        spelled "Option < Box < dyn Fn" ++ grouped .paren [] ++ spelled "-> u8 > >", [.word "u8"]]
      ∧ d.expand .fromRow = .ok (derivedMark ++ [.word "impl"] ++ spelled ":: rowbind :: FromRow"
        ++ [.word "for", .word "r#struct"] ++ grouped .brace fromBody)
      ∧ d.expand .toRow = .ok (derivedMark ++ [.word "impl"] ++ spelled ":: rowbind :: ToRow"
        ++ [.word "for", .word "r#struct"] ++ grouped .brace toBody)
      ∧ readingBody (typeBeforeAngle 0 0) fromBody = some r ∧ writingBody toBody = some w
      ∧ Faithful s.fields r w := by
  have outcome : ((Declaration.read awkwardText).toOption.bind fun d =>
      (inspect d "ToRow" false).toOption.filter fun s =>
        s.fields.names = ["row", "type", "field_1"] ∧
        s.fields.types = [[.word "u8"],
          spelled "Option < Box < dyn Fn" ++ grouped .paren [] ++ spelled "-> u8 > >",
          [.word "u8"]] ∧
        d.name.lexeme = .word "r#struct" ∧ d.generics.parameters = [] ∧
        d.generics.where? = none).isSome := by
    have text : awkwardText = String.ofList _ := rfl
    rw [Declaration.read, text, Source.read, scan?_ofList]
    decide +kernel
  obtain ⟨s, outcome⟩ := Option.isSome_iff_exists.mp outcome
  obtain ⟨d, read, outcome⟩ := Option.bind_eq_some_iff.mp outcome
  obtain ⟨accepted, same⟩ := Option.filter_eq_some_iff.mp outcome
  obtain ⟨names, types, name, parameters, clause⟩ := of_decide_eq_true same
  have untyped : d.generics.hasTypes = false := by
    rw [Generics.hasTypes, parameters]
    rfl
  obtain ⟨-, r, w, ⟨reading, writing⟩, agree⟩ :=
    expand_faithful (eq_ok_of_toOption read) (eq_ok_of_toOption accepted)
  obtain ⟨fromBody, ⟨h, hfrom, fits⟩, hr⟩ :=
    reading.resolve_left (Declaration.not_stuck_of_untyped untyped)
  obtain ⟨toBody, ⟨h', hto, fits'⟩, hw⟩ :=
    writing.resolve_left (Declaration.not_stuck_of_untyped untyped)
  rw [fits.phrase_bare parameters clause, name] at hfrom
  rw [fits'.phrase_bare parameters clause, name] at hto
  exact ⟨d, s, fromBody, toBody, r, w, eq_ok_of_toOption read, eq_ok_of_toOption accepted, names,
    types, hfrom, hto, hr, hw, agree⟩

end Shape

/-! ## Entities -/

namespace Entity

variable {e : Entity}

/-- The names that an entity tells, by the namings that its attributes describe, line up with the
rows that its record is read from and written to, whatever functions convert them. -/
theorem expand_aligned (read : Declaration.read source = .ok d) (accepted : d.entity = .ok e) :
    ∃ (fields : List NamedField) (items : List ListEntry) (before body : Phrase) (a : Accessors)
      (r : ReadingBody) (w : WritingBody),
      d.body = .struct (.named fields) ∧ Itemized d.attributes items ∧
      e.options.Describes (items.map ListEntry.saying) ∧
      d.Emits .entity (RecordFields.named fields).types before body ∧
      readAccessors readPath body = some a ∧
      d.RowPrograms (RecordFields.named fields).types r w ∧ Faithful (.named fields) r w ∧
      ∀ call, Aligned call e.options.tableNaming e.options.columnNaming d.name fields a r w := by
  have inspected := inspect_of_entity accepted
  obtain ⟨declared, name, -, -, names⟩ := (Shape.inspect_eq_ok_iff _ _ _ _).mp inspected
  obtain ⟨items, listed, describes⟩ :=
    EntityOptions.exists_described_of_ok (eq_ok_of_entity accepted).2
  obtain ⟨before, emits⟩ := Declaration.emits_entity read accepted
  have rows := Shape.rowPrograms read inspected
  cases hf : e.shape.fields with
  | positional types => exact absurd (names rfl) (by simp [hf, RecordFields.IsNamed])
  | named fields =>
    rw [hf] at declared emits rows
    refine ⟨fields, items, before, e.accessors, ⟨e.table, e.columns⟩, _, _, declared, listed,
      describes, emits, readAccessors_accessors (readsPaths accepted), rows, faithful _, ?_⟩
    rw [← name]
    exact aligned hf

/-- A record whose columns are named by a function. -/
def aliased : String :=
  "#[entity(column_naming = \"names::Short<u8>::of\")] struct Unit \x7b r#type: u8, row: u8 \x7d"

theorem expand_aligned_aliased : ∃ (d : Declaration) (e : Entity) (fields : List NamedField)
    (before body fromBody toBody : Phrase) (a : Accessors) (r : ReadingBody) (w : WritingBody),
      Declaration.read aliased = .ok d ∧ d.entity = .ok e ∧ d.body = .struct (.named fields)
        ∧ d.expand .entity = .ok (before ++ (derivedMark ++ [.word "impl"]
          ++ spelled ":: rowbind :: Entity" ++ [.word "for", .word "Unit"]) ++ grouped .brace body)
        ∧ d.expand .fromRow = .ok (derivedMark ++ [.word "impl"] ++ spelled ":: rowbind :: FromRow"
          ++ [.word "for", .word "Unit"] ++ grouped .brace fromBody)
        ∧ d.expand .toRow = .ok (derivedMark ++ [.word "impl"] ++ spelled ":: rowbind :: ToRow"
          ++ [.word "for", .word "Unit"] ++ grouped .brace toBody)
        ∧ readAccessors readPath body = some a
        ∧ readingBody (typeBeforeAngle 0 0) fromBody = some r ∧ writingBody toBody = some w
        ∧ ∀ call,
          Aligned call e.options.tableNaming e.options.columnNaming d.name fields a r w ∧
            a.columns.map (·.eval call) =
              ["type", "row"].map (call (spelled "names :: Short < u8 > :: of")) := by
  have outcome : ((Declaration.read aliased).toOption.bind fun d =>
      d.entity.toOption.filter fun e => e.shape.fields.names = ["type", "row"] ∧
        e.options.columnNaming.path? = some (spelled "names :: Short < u8 > :: of") ∧
        d.name.lexeme = .word "Unit" ∧ d.generics.parameters = [] ∧
        d.generics.where? = none).isSome := by
    have text : aliased = String.ofList _ := rfl
    rw [Declaration.read, text, Source.read, scan?_ofList]
    decide +kernel
  obtain ⟨e, outcome⟩ := Option.isSome_iff_exists.mp outcome
  obtain ⟨d, read, outcome⟩ := Option.bind_eq_some_iff.mp outcome
  obtain ⟨accepted, same⟩ := Option.filter_eq_some_iff.mp outcome
  obtain ⟨names, path, name, parameters, clause⟩ := of_decide_eq_true same
  have accepted := eq_ok_of_toOption accepted
  have untyped : d.generics.hasTypes = false := by
    rw [Generics.hasTypes, parameters]
    rfl
  obtain ⟨fields, items, before, body, a, r, w, declared, -, -, ⟨h, hentity, fits⟩, ha,
    ⟨reading, writing⟩, -, aligned⟩ := expand_aligned (eq_ok_of_toOption read) accepted
  obtain ⟨fromBody, ⟨h', hfrom, fits'⟩, hr⟩ :=
    reading.resolve_left (Declaration.not_stuck_of_untyped untyped)
  obtain ⟨toBody, ⟨h'', hto, fits''⟩, hw⟩ :=
    writing.resolve_left (Declaration.not_stuck_of_untyped untyped)
  rw [fits.phrase_bare parameters clause, name] at hentity
  rw [fits'.phrase_bare parameters clause, name] at hfrom
  rw [fits''.phrase_bare parameters clause, name] at hto
  have inspected := (Shape.inspect_eq_ok_iff _ _ _ _).mp (inspect_of_entity accepted)
  have same : e.shape.fields = .named fields :=
    RecordFields.body_injective (inspected.1.symm.trans declared)
  have names : fields.map (·.name.plain) = ["type", "row"] := by
    rw [same] at names
    exact names
  refine ⟨d, e, fields, before, body, fromBody, toBody, a, r, w, eq_ok_of_toOption read, accepted,
    declared, hentity, hfrom, hto, ha, hr, hw, fun call => ⟨aligned call, ?_⟩⟩
  rw [(aligned call).columns, Naming.eq_function_of_path? path, ← names, List.map_map]
  rfl

end Entity

end RecordRows
