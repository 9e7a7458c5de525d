import RecordRows.Proofs.Derive.Meaning
import RecordRows.Proofs.Source.RuleBalance

/-!
The bodies of the two row implementations agree with the fields of a record and with each other
(`faithful`), and the expansions of every declaration whose shape is accepted are implementations
with these bodies.
-/
namespace RecordRows

open Source Phrase Generated

/-! ## Expansions -/

theorem mapError_bind_pure {ε ε' α β : Type} (r : Except ε α) (f : α → β) (g : ε → ε') :
    (r >>= fun a => pure (f a)).mapError g = (r.mapError g).map f := by
  cases r <;> rfl

namespace Shape

variable {d : Declaration} {derive : String} {namesRequired : Bool} {s : Shape}

/-- The expansion with a body in it. It fails on a type that cannot be given the bound. -/
def implementing (s : Shape) (path bound body : Phrase) : Except ExpansionError Phrase :=
  ((s.boundedWhere bound).mapError .unboundable).map fun w? =>
    implementation s path (whereText w?) body

theorem expand_fromRow (accepted : inspect d derive namesRequired = .ok s) :
    d.expand .fromRow = s.implementing (spelled ":: rowbind :: FromRow")
      (spelled ":: rowbind :: FromColumn") s.decoder.phrase := by
  have inspected := inspect_of_inspect accepted Derivation.fromRow.name
  simp only [Declaration.expand, Derivation.namesRequired, inspected, refuseAt]
  exact mapError_bind_pure (s.boundedWhere (spelled ":: rowbind :: FromColumn")) _ _

theorem expand_toRow (accepted : inspect d derive namesRequired = .ok s) :
    d.expand .toRow = s.implementing (spelled ":: rowbind :: ToRow")
      (spelled ":: rowbind :: ToColumn") s.encoder.phrase := by
  have inspected := inspect_of_inspect accepted Derivation.toRow.name
  simp only [Declaration.expand, Derivation.namesRequired, inspected, refuseAt]
  exact mapError_bind_pure (s.boundedWhere (spelled ":: rowbind :: ToColumn")) _ _

end Shape

/-! ## Agreement -/

namespace Generated

/-- All local names in the parts of a record. -/
def Parts.names : Parts → List String
  | .byName ps => ps.map (·.2)
  | .byPosition xs => xs

/-- Two bodies that read and write records with these fields: one column for each field, in the
order of declaration. -/
structure Faithful (fs : RecordFields) (r : ReadingBody) (w : WritingBody) : Prop where
  /-- One column is read for each field at its declared type, up to the first failure, and what is
  read at a position is the field at that position. -/
  reads : ∀ {σ ε V : Type} (next : Phrase → ExceptT ε (StateM σ) V),
    r.run next fs = some <$> fs.types.mapM next
  /-- The column of each field is written at the position of the field. -/
  writes : ∀ {V W : Type} (encode : V → W) (record : List V), record.length = fs.types.length →
    w.run encode fs record = some (record.map encode)
  types : r.statements.map (·.type) = fs.types
  columnsRead : r.columns = fs.types.length
  columnsWritten : w.columns = fs.types.length
  sameTokens : r.resultTokens = w.patternTokens
  /-- No local name hides the cursor or another local name. -/
  fresh : (r.parameter :: r.statements.map (·.binding)).Nodup
  patternFresh : w.pattern.names.Nodup

theorem names_parts (fs : RecordFields) : (parts fs).names = fs.bindings := by
  cases fs with
  | named fields =>
    rw [parts, Parts.names]
    exact List.map_snd_zip (by simp [RecordFields.bindings, RecordFields.types])
  | positional types => rfl

theorem faithful (fs : RecordFields) : Faithful fs (reading fs) (writing fs) where
  reads next := run_reading next fs
  writes encode _ length := run_writing encode length
  types := by
    rw [reading, List.map_map]
    exact List.map_snd_zip (Nat.le_of_eq fs.length_bindings.symm)
  columnsRead := rfl
  columnsWritten := rfl
  sameTokens := rfl
  fresh := by
    have names : (reading fs).statements.map (·.binding) = fs.bindings := by
      rw [reading, List.map_map]
      exact List.map_fst_zip (Nat.le_of_eq fs.length_bindings)
    rw [names, List.nodup_cons]
    exact ⟨fs.row_notMem_bindings, fs.nodup_bindings⟩
  patternFresh := by
    rw [writing, names_parts]
    exact fs.nodup_bindings

end Generated

namespace Shape

variable {d : Declaration} {derive : String} {namesRequired : Bool} {s : Shape}

/-- The types of a record that has been read are balanced. -/
theorem balanced_types {source : String} (read : Declaration.read source = .ok d)
    (accepted : inspect d derive namesRequired = .ok s) : ∀ t ∈ s.fields.types, Balanced t := by
  have declared := ((inspect_eq_ok_iff _ _ _ _).mp accepted).1
  cases hf : s.fields with
  | named fields =>
    rw [hf] at declared
    exact Declaration.balanced_types read declared
  | positional types =>
    rw [hf] at declared
    exact Declaration.balanced_types read declared

end Shape

end RecordRows
