import RecordRows.Proofs.Derive.Shape

/-!
Which declarations the three derivations accept, what the accepted shape lists, and why the others
are refused: enums and unions first, then structs without fields, and last structs whose fields
lack the names that entities need (`shapeFor_characterized`).
-/
namespace RecordRows

open Source

/-! ## Declared fields -/

/-- A field as it is declared. -/
structure DeclaredField where
  name? : Option Name
  type : Phrase

/-- How a field at a position is accessed: by its name, or by the position if it has none. -/
def DeclaredField.member (f : DeclaredField) (i : Nat) : Member := (f.name?.map .name).getD (.index i)

/-- The fields of a struct, in order. -/
def Source.Fields.declared : Fields → List DeclaredField
  | .named fields => fields.map fun f => ⟨some f.name, f.type⟩
  | .positional types => types.map fun t => ⟨none, t⟩
  | .unit => []

/-- A shape with these fields at these positions. There is at least one, and all of them have names
or none has one. -/
structure Shape.Lists (s : Shape) (fields : List DeclaredField) : Prop where
  positive : 1 ≤ s.arity
  arity : s.arity = fields.length
  field : ∀ (i : Nat) (f : DeclaredField), fields[i]? = some f →
    s.fields.types[i]? = some f.type ∧ s.fields.members[i]? = some (f.member i)
      ∧ s.fields.bindings[i]? = some (RecordFields.binding i)
  names : s.fields.names = fields.filterMap fun f => f.name?.map Name.plain
  style : s.fields.IsNamed ∧ (∀ f ∈ fields, f.name?.isSome) ∨
    ¬ s.fields.IsNamed ∧ ∀ f ∈ fields, f.name? = none

/-- Why a body is refused. Only the last reason depends on a demand for names. -/
inductive Source.Body.Refused (namesRequired : Bool) : Body → RefusalKind → Prop where
  | enum : Refused namesRequired .enum .unsupportedShape
  | union : Refused namesRequired .union .unsupportedShape
  | empty {fields : Fields} (nothing : fields.declared = []) :
    Refused namesRequired (.struct fields) .emptyConstructor
  | unnamed {fields : Fields} (nonempty : fields.declared ≠ [])
    (names : ∀ f ∈ fields.declared, f.name? = none) (required : namesRequired = true) :
    Refused namesRequired (.struct fields) .missingFieldNames

/-- The shape of a declaration as a derivation inspects it. -/
def Source.Declaration.shapeFor (d : Declaration) (v : Derivation) : Except Refusal Shape :=
  Shape.inspect d v.name v.namesRequired

namespace RecordFields

variable {fs : RecordFields} {fields : Fields}

theorem types_eq_declared (h : fs.body = .struct fields) :
    fs.types = fields.declared.map DeclaredField.type := by
  cases fs <;> cases h <;> simp [types, Fields.declared, Function.comp_def]

theorem names_eq_declared (h : fs.body = .struct fields) :
    fs.names = fields.declared.filterMap fun f => f.name?.map Name.plain := by
  cases fs <;> cases h <;> simp [names, Fields.declared, List.filterMap_map]

theorem style_declared (h : fs.body = .struct fields) :
    fs.IsNamed ∧ (∀ f ∈ fields.declared, f.name?.isSome) ∨
      ¬ fs.IsNamed ∧ ∀ f ∈ fields.declared, f.name? = none := by
  cases fs <;> cases h <;> simp [IsNamed, Fields.declared]

theorem members_declared (h : fs.body = .struct fields) {i : Nat} {f : DeclaredField}
    (field : fields.declared[i]? = some f) : fs.members[i]? = some (f.member i) := by
  obtain ⟨bound, rfl⟩ := List.getElem?_eq_some_iff.mp field
  cases fs with
  | named fs =>
    cases h
    have bound : i < fs.length := by simpa [Fields.declared] using bound
    simp [members, Fields.declared, DeclaredField.member, bound]
  | positional ts =>
    cases h
    have bound : i < ts.length := by simpa [Fields.declared] using bound
    simp [members, Fields.declared, DeclaredField.member, bound]

end RecordFields

namespace Shape

variable {d : Declaration} {derive : String} {namesRequired : Bool} {s : Shape}

/-! ## Acceptance -/

theorem lists_declared (s : Shape) {fields : Fields} (h : s.fields.body = .struct fields) :
    s.Lists fields.declared where
  positive := List.length_pos_iff.mpr s.nonempty
  arity := by rw [arity, RecordFields.types_eq_declared h, List.length_map]
  field i f field := by
    have type : s.fields.types[i]? = some f.type := by
      rw [RecordFields.types_eq_declared h, List.getElem?_map, field, Option.map_some]
    have bound : i < s.fields.types.length := (List.getElem?_eq_some_iff.mp type).1
    exact ⟨type, RecordFields.members_declared h field, by simp [RecordFields.bindings, bound]⟩
  names := RecordFields.names_eq_declared h
  style := RecordFields.style_declared h

/-- Structs with fields are those that can be put together by name or by position. -/
theorem exists_body_iff {b : Body} :
    (∃ fs : RecordFields, b = fs.body ∧ fs.types ≠ [])
      ↔ ∃ fields, b = .struct fields ∧ fields.declared ≠ [] := by
  constructor
  · rintro ⟨fs, rfl, nonempty⟩
    obtain ⟨fields, declared⟩ : ∃ fields, fs.body = .struct fields := by
      cases fs <;> exact ⟨_, rfl⟩
    refine ⟨fields, declared, fun nothing => nonempty ?_⟩
    rw [RecordFields.types_eq_declared declared, nothing, List.map_nil]
  · rintro ⟨fields, rfl, nonempty⟩
    cases fields with
    | named fs => exact ⟨.named fs, rfl, by simpa [Fields.declared, RecordFields.types] using nonempty⟩
    | positional ts =>
      exact ⟨.positional ts, rfl, by simpa [Fields.declared, RecordFields.types] using nonempty⟩
    | unit => exact absurd rfl nonempty

theorem exists_inspect_iff :
    (∃ s, inspect d derive false = .ok s)
      ↔ ∃ fields, d.body = .struct fields ∧ fields.declared ≠ [] := by
  rw [← exists_body_iff]
  constructor
  · rintro ⟨s, accepted⟩
    exact ⟨s.fields, ((inspect_eq_ok_iff _ _ _ _).mp accepted).1, s.nonempty⟩
  · rintro ⟨fs, declared, nonempty⟩
    exact ⟨⟨d.name, d.visibility, d.generics, fs, nonempty⟩,
      (inspect_eq_ok_iff _ _ _ _).mpr ⟨declared, rfl, rfl, rfl, nofun⟩⟩

/-- A demand for names only asks that the accepted fields have names. -/
theorem inspect_required_iff :
    inspect d derive true = .ok s ↔ inspect d derive false = .ok s ∧ s.fields.IsNamed := by
  simp only [inspect_eq_ok_iff]
  tauto

/-! ## Refusal -/

theorem ofFields_eq_error_iff {fields : RecordFields} {r : Refusal} :
    ofFields d derive fields = .error r ↔ fields.types = [] ∧ r = .noFields derive := by
  unfold ofFields
  split
  · next empty => simp [empty, eq_comm]
  · next nonempty => simp [nonempty]

theorem inspect_eq_error_iff {fields : Fields} {r : Refusal} (h : d.body = .struct fields) :
    inspect d derive namesRequired = .error r ↔
      fields.declared = [] ∧ r = .noFields derive ∨
        fields.declared ≠ [] ∧ (∀ f ∈ fields.declared, f.name? = none) ∧ namesRequired = true ∧
          r = .namesRequired derive := by
  cases fields with
  | unit => simp [inspect, h, Fields.declared, eq_comm]
  | named fs =>
    have unnamed_iff : (∀ f ∈ (Fields.named fs).declared, f.name? = none) ↔ fs = [] := by
      cases fs <;> simp [Fields.declared]
    have nothing_iff : (Fields.named fs).declared = [] ↔ fs = [] := by simp [Fields.declared]
    rw [unnamed_iff, ne_eq, nothing_iff]
    simp only [inspect, h, ofFields_eq_error_iff, RecordFields.types, List.map_eq_nil_iff]
    tauto
  | positional types =>
    have unnamed_iff : (∀ f ∈ (Fields.positional types).declared, f.name? = none) ↔ True := by
      simp [Fields.declared]
    have nothing_iff : (Fields.positional types).declared = [] ↔ types = [] := by
      simp [Fields.declared]
    rw [unnamed_iff, ne_eq, nothing_iff]
    simp only [inspect, h, ofFields]
    split
    · next empty =>
      have empty : types = [] := empty
      simpa [empty, bind, Except.bind] using eq_comm
    · next nonempty =>
      have nonempty : types ≠ [] := nonempty
      cases namesRequired with
      | false => simp [nonempty, bind, Except.bind]
      | true => simpa [nonempty, bind, Except.bind] using eq_comm

/-- A body is refused for the first reason that it gives. -/
theorem exists_error_iff {k : RefusalKind} :
    (∃ r, inspect d derive namesRequired = .error r ∧ r.kind = k)
      ↔ d.body.Refused namesRequired k := by
  cases hb : d.body with
  | enum =>
    simp only [inspect, hb]
    constructor
    · rintro ⟨r, ⟨⟩, rfl⟩
      exact .enum
    · rintro ⟨⟩
      exact ⟨_, rfl, rfl⟩
  | union =>
    simp only [inspect, hb]
    constructor
    · rintro ⟨r, ⟨⟩, rfl⟩
      exact .union
    · rintro ⟨⟩
      exact ⟨_, rfl, rfl⟩
  | struct fields =>
    simp only [inspect_eq_error_iff hb]
    constructor
    · rintro ⟨r, ⟨nothing, rfl⟩ | ⟨nonempty, names, required, rfl⟩, rfl⟩
      · exact .empty nothing
      · exact .unnamed nonempty names required
    · intro refused
      cases refused with
      | empty nothing => exact ⟨_, .inl ⟨nothing, rfl⟩, rfl⟩
      | unnamed nonempty names required => exact ⟨_, .inr ⟨nonempty, names, required, rfl⟩, rfl⟩

/-! ## All three derivations -/

/-- The shape is checked before anything else, so what is reported of a refused shape does not depend
on the attributes. -/
theorem expand_of_refused {v : Derivation} {r : Refusal} (refused : d.shapeFor v = .error r)
    (attributes : List MetaItem) :
    { d with attributes }.expand v = .error (.problems [⟨.refusal r, d.name.place?⟩]) := by
  have same : inspect { d with attributes } v.name v.namesRequired = .error r := refused
  cases v with
  | fromRow =>
    rw [Declaration.expand, same]
    rfl
  | toRow =>
    rw [Declaration.expand, same]
    rfl
  | entity =>
    rw [Declaration.expand, Declaration.entity, same]
    rfl

/-- The row derivations accept the structs with fields, at the same shape, and entities are those of
them whose fields have names. An accepted shape lists the declared fields in order. Everything else
is refused for a reason that the body gives, whatever attributes it has. -/
theorem shapeFor_characterized (d : Declaration) :
    (∀ s, d.shapeFor .fromRow = .ok s ↔ d.shapeFor .toRow = .ok s) ∧
    (∀ s, d.shapeFor .entity = .ok s ↔ d.shapeFor .fromRow = .ok s ∧ s.fields.IsNamed) ∧
    ((∃ s, d.shapeFor .fromRow = .ok s)
      ↔ ∃ fields, d.body = .struct fields ∧ fields.declared ≠ []) ∧
    ∀ v : Derivation,
      (∀ s, d.shapeFor v = .ok s → s.name = d.name ∧ s.visibility = d.visibility
        ∧ s.generics = d.generics ∧ ∃ fields, d.body = .struct fields ∧ s.Lists fields.declared) ∧
      (∀ k, (∃ r, d.shapeFor v = .error r ∧ r.kind = k) ↔ d.body.Refused v.namesRequired k) ∧
      ∀ r, d.shapeFor v = .error r → ∀ attributes, { d with attributes }.expand v
        = .error (.problems [⟨.refusal r, d.name.place?⟩]) := by
  have sameShape (s : Shape) (one other : String) :
      inspect d one false = .ok s ↔ inspect d other false = .ok s :=
    ⟨fun h => inspect_of_inspect h other, fun h => inspect_of_inspect h one⟩
  refine ⟨fun s => sameShape s _ _, fun s => ?_, exists_inspect_iff, fun v => ⟨?_, ?_, ?_⟩⟩
  · exact inspect_required_iff.trans (and_congr_left fun _ => sameShape s _ _)
  · intro s accepted
    obtain ⟨declared, name, visibility, generics, -⟩ := (inspect_eq_ok_iff _ _ _ _).mp accepted
    refine ⟨name, visibility, generics, ?_⟩
    cases hf : s.fields with
    | named fs => exact ⟨.named fs, by rw [declared, hf]; rfl, lists_declared s (by rw [hf]; rfl)⟩
    | positional ts =>
      exact ⟨.positional ts, by rw [declared, hf]; rfl, lists_declared s (by rw [hf]; rfl)⟩
  · exact fun k => exists_error_iff
  · exact fun r refused attributes => expand_of_refused refused attributes

/-- Two fields without names. -/
def pair : Declaration where
  attributes := []
  visibility := []
  name := ⟨"Pair", none⟩
  generics := {}
  body := .struct (.positional [[.word "u8"], [.word "String"]])

/-- An attribute with a value in place of its list. -/
def valuedAttribute : MetaItem := ⟨false, ["entity"], .value (.literal "1") none, none⟩

theorem shapeFor_characterized_pair :
    (∃ s, pair.shapeFor .toRow = .ok s ∧ s.Lists [⟨none, [.word "u8"]⟩, ⟨none, [.word "String"]⟩]) ∧
      ∃ r, pair.shapeFor .entity = .error r ∧ r.kind = .missingFieldNames ∧
        { pair with attributes := [valuedAttribute] }.expand .entity
          = .error (.problems [⟨.refusal r, none⟩]) := by
  obtain ⟨same, -, exists_iff, three⟩ := shapeFor_characterized pair
  obtain ⟨s, accepted⟩ := exists_iff.mpr ⟨_, rfl, by simp [Fields.declared]⟩
  obtain ⟨-, -, -, fields, declared, lists⟩ := (three .fromRow).1 s accepted
  obtain ⟨r, refused, kind⟩ := ((three .entity).2.1 .missingFieldNames).mpr
    (.unnamed (by simp [Fields.declared]) (by simp [Fields.declared]) rfl)
  refine ⟨⟨s, (same s).mp accepted, ?_⟩, r, refused, kind, (three .entity).2.2 r refused _⟩
  cases declared
  exact lists

end Shape

end RecordRows
