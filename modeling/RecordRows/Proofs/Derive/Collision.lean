import RecordRows.Proofs.Derive.Acceptance
import RecordRows.Proofs.Source.Identifier

/-!
Whether identifiers get the name of their record. The name that is set is compared as it is written
with the record's name without its mark, so every collision is noticed but those of raw names
(`identifierName_settled`). A raw name that is set is never refused, even where it is the name of
the record (`shadowed_by_raw`).
-/
namespace RecordRows

open Source

/-! ## Names of records -/

variable {source : String} {d : Declaration} {s : Shape}

theorem Shape.name_of_shapeFor {v : Derivation} (accepted : d.shapeFor v = .ok s) :
    s.name = d.name :=
  ((Shape.inspect_eq_ok_iff _ _ _ _).mp accepted).2.1

/-- Without its mark the name of a record that is read from a text is a plain identifier. -/
theorem Shape.isPlain_name {v : Derivation} (read : Declaration.read source = .ok d)
    (accepted : d.shapeFor v = .ok s) : IsPlain s.name.plain.toList := by
  rw [Shape.name_of_shapeFor accepted]
  exact (isIdentifier_name read).1.isPlain

/-- A name that ends like those of identifiers is no keyword. -/
theorem isKeyword_append_id (name : String) : Ahead.isKeyword (name ++ "Id") = false := by
  have ends : ∀ w ∈ Ahead.keywords, ¬ "Id".toList <:+ w.toList := by decide
  rw [Ahead.isKeyword, List.contains_eq_mem, decide_eq_false_iff_not]
  intro h
  exact ends _ h (by rw [String.toList_append]; exact List.suffix_append _ _)

theorem isPlain_append_id {name : String} (h : IsPlain name.toList) :
    IsPlain (name ++ "Id").toList := by
  rw [String.toList_append]
  exact h.append (identifierContinue_of_all (by decide))

/-! ## Collisions -/

namespace EntityOptions

variable {o : EntityOptions}

theorem identifierName_of_none (unset : o.idName? = none) :
    o.identifierName s = .ok (s.name.plain ++ "Id") := by
  have longer : s.name.plain ++ "Id" ≠ s.name.plain := by
    intro h
    have lengths := congrArg String.length h
    simp at lengths
  rw [identifierName, unset]
  exact if_neg longer

theorem identifierName_of_some {name : String} (set : o.idName? = some name) :
    o.identifierName s = if name = s.name.plain then .error (.shadows name) else .ok name := by
  rw [identifierName, set]
  rfl

/-- Where no name is set, identifiers are named after their record and never collide with it. A name
without a mark is refused exactly when it is the record's own, raw or not. A name with a mark is
never refused. -/
theorem identifierName_settled (read : Declaration.read source = .ok d)
    (accepted : d.shapeFor .entity = .ok s) (o : EntityOptions) :
    (o.idName? = none → o.identifierName s = .ok (s.name.plain ++ "Id")
      ∧ ¬ SameName (s.name.plain ++ "Id") s.name.text) ∧
    (∀ name, o.idName? = some name → ¬ IsRaw name →
      (SameName name s.name.text → o.identifierName s = .error (.shadows name)) ∧
      (¬ SameName name s.name.text → o.identifierName s = .ok name)) ∧
    ∀ name, o.idName? = some name → IsRaw name → o.identifierName s = .ok name := by
  have plain := Shape.isPlain_name read accepted
  refine ⟨fun unset => ⟨identifierName_of_none unset, ?_⟩, fun name set unmarked => ?_,
    fun name set marked => ?_⟩
  · have longer := (isPlain_append_id plain).plainText
    intro same
    rw [SameName, longer] at same
    have lengths := congrArg String.length same
    simp [Name.plain] at lengths
  · rw [sameName_iff unmarked, identifierName_of_some set]
    exact ⟨fun same => if_pos same, fun apart => if_neg apart⟩
  · rw [identifierName_of_some set]
    refine if_neg ?_
    rintro rfl
    have unmarked := plain.not_isRaw
    rw [String.ofList_toList] at unmarked
    exact unmarked marked

/-- A record with a raw name. -/
def rawRecord : String := "struct r#Match \x7b score: i32 \x7d"

theorem identifierName_settled_raw_record : ∃ d s, Declaration.read rawRecord = .ok d
    ∧ d.shapeFor .entity = .ok s ∧ s.name.text = "r#Match"
    ∧ identifierName {} s = .ok "MatchId"
    ∧ identifierName { idName? := some "Match" } s = .error (.shadows "Match") := by
  have outcome : ((Declaration.read rawRecord).toOption.bind fun d =>
      (d.shapeFor .entity).toOption.filter fun s => s.name.text = "r#Match").isSome := by
    have text : rawRecord = String.ofList _ := rfl
    rw [Declaration.read, text, Source.read, scan?_ofList]
    decide +kernel
  obtain ⟨s, outcome⟩ := Option.isSome_iff_exists.mp outcome
  obtain ⟨d, read, outcome⟩ := Option.bind_eq_some_iff.mp outcome
  obtain ⟨accepted, name⟩ := Option.filter_eq_some_iff.mp outcome
  have name : s.name.text = "r#Match" := of_decide_eq_true name
  have plain : s.name.plain = "Match" := by
    rw [Name.plain, name]
    decide
  have settled := identifierName_settled (eq_ok_of_toOption read) (eq_ok_of_toOption accepted)
  refine ⟨d, s, eq_ok_of_toOption read, eq_ok_of_toOption accepted, name, ?_, ?_⟩
  · have unset := ((settled {}).1 rfl).1
    rw [plain] at unset
    exact unset
  · refine ((settled { idName? := some "Match" }).2.1 "Match" rfl ?_).1 ?_
    · rintro ⟨cs, marked⟩
      simp at marked
    · rw [name]
      decide

/-- A record whose identifiers are set to its own name, with a mark. -/
def shadowed : String :=
  "#[entity(id_name = \"r#Person\")] struct Person \x7b name: String \x7d"

theorem shadowed_by_raw : ∃ d e, Declaration.read shadowed = .ok d ∧ d.entity = .ok e
    ∧ SameName e.identifier d.name.text := by
  have outcome : ((Declaration.read shadowed).toOption.bind fun d =>
      d.entity.toOption.filter fun e => SameName e.identifier d.name.text).isSome := by
    have text : shadowed = String.ofList _ := rfl
    rw [Declaration.read, text, Source.read, scan?_ofList]
    decide +kernel
  obtain ⟨e, outcome⟩ := Option.isSome_iff_exists.mp outcome
  obtain ⟨d, read, outcome⟩ := Option.bind_eq_some_iff.mp outcome
  obtain ⟨entity, same⟩ := Option.filter_eq_some_iff.mp outcome
  exact ⟨d, e, eq_ok_of_toOption read, eq_ok_of_toOption entity, of_decide_eq_true same⟩

end EntityOptions

end RecordRows
