import RecordRows.Proofs.Derive.Collision
import RecordRows.Proofs.Derive.Layout
import RecordRows.Proofs.Source.Rereading

/-!
Whether a derivation ends. Entities always do, with code or with problems, and so do the row
derivations of a record without type parameters. With type parameters every field's type is given a
bound, and the derivation is stuck on the first type that cannot be read again as the subject of one
(`derive_settled`). The types of anonymous records are such types (`not_boundReads_anonymous`), and
ordinary types are not (`boundReads_ordinary`).
-/
namespace RecordRows

open Source Phrase

/-! ## Bounds on types -/

/-- A type that is read again in front of a bound. -/
def BoundReads (bound type : Phrase) : Prop :=
  ∃ r, readTokens predicate (type ++ operator ":" ++ bound).unplaced = .ok r

theorem boundPredicate_of_reads {bound type : Phrase} (h : BoundReads bound type) :
    boundPredicate bound type = .ok (type ++ operator ":" ++ bound) := by
  obtain ⟨r, read⟩ := h
  simp only [boundPredicate, read]

theorem boundPredicate_eq_error_iff {bound type : Phrase} {t : UnboundableType} :
    boundPredicate bound type = .error t ↔ ¬ BoundReads bound type ∧ t = ⟨type⟩ := by
  by_cases h : BoundReads bound type
  · simp [boundPredicate_of_reads h, h]
  · have failed : boundPredicate bound type = .error ⟨type⟩ := by
      unfold boundPredicate
      dsimp only
      split
      · next r read => exact absurd ⟨r, read⟩ h
      · rfl
    rw [failed, Except.error.injEq]
    exact ⟨fun same => ⟨h, same.symm⟩, fun same => same.2.symm⟩

/-- The first type that cannot be given a bound is where a list of types gets stuck. -/
theorem mapM_boundPredicate_eq_error_iff {bound : Phrase} {types : List Phrase}
    {t : UnboundableType} :
    types.mapM (boundPredicate bound) = .error t ↔ ∃ before after,
      types = before ++ t.type :: after ∧ (∀ u ∈ before, BoundReads bound u) ∧
        ¬ BoundReads bound t.type := by
  induction types with
  | nil => simp [pure, Except.pure]
  | cons type types ih =>
    rw [List.mapM_cons]
    by_cases reads : BoundReads bound type
    · have rest : (do
          let p ← boundPredicate bound type
          let ps ← types.mapM (boundPredicate bound)
          pure (p :: ps)) = .error t ↔ types.mapM (boundPredicate bound) = .error t := by
        rw [boundPredicate_of_reads reads]
        cases types.mapM (boundPredicate bound) <;> simp [bind, Except.bind, pure, Except.pure]
      rw [rest, ih]
      constructor
      · rintro ⟨before, after, rfl, good, bad⟩
        exact ⟨type :: before, after, rfl, List.forall_mem_cons.mpr ⟨reads, good⟩, bad⟩
      · rintro ⟨before, after, split, good, bad⟩
        cases before with
        | nil =>
          cases split
          exact absurd reads bad
        | cons u before =>
          cases split
          exact ⟨before, after, rfl, fun u hu => good u (List.mem_cons_of_mem _ hu), bad⟩
    · have failed := boundPredicate_eq_error_iff.mpr ⟨reads, rfl⟩
      rw [failed]
      constructor
      · intro h
        cases h
        exact ⟨[], types, rfl, nofun, reads⟩
      · rintro ⟨before, after, split, good, bad⟩
        cases before with
        | nil =>
          cases split
          rfl
        | cons u before =>
          cases split
          exact absurd (good _ List.mem_cons_self) reads

/-! ## Derivations -/

/-- The bound that a derivation gives to the types of the fields. -/
def Derivation.bound? : Derivation → Option Phrase
  | .fromRow => some (spelled ":: rowbind :: FromColumn")
  | .toRow => some (spelled ":: rowbind :: ToColumn")
  | .entity => none

variable {d : Declaration} {s : Shape} {v : Derivation} {t : UnboundableType}

theorem Shape.generics_of_shapeFor (accepted : d.shapeFor v = .ok s) : s.generics = d.generics :=
  ((Shape.inspect_eq_ok_iff _ _ _ _).mp accepted).2.2.2.1

theorem Shape.boundedWhere_eq_error_iff {bound : Phrase} :
    s.boundedWhere bound = .error t ↔ s.generics.hasTypes = true ∧
      s.fields.types.mapM (boundPredicate bound) = .error t := by
  unfold boundedWhere
  split
  · next types =>
    cases s.fields.types.mapM (boundPredicate bound) <;>
      simp [types, bind, Except.bind, pure, Except.pure]
  · next none => simp [none, pure, Except.pure]

/-- A derivation is stuck on a type when its expansion is. -/
theorem Source.Declaration.derive_eq_error_iff :
    d.derive v = .error t ↔ d.expand v = .error (.unboundable t) := by
  unfold Declaration.derive
  split
  · next h => simp [h]
  · next h => simp [h]
  · next h => simp [h, eq_comm]

theorem Source.Declaration.expand_entity_ne (d : Declaration) (t : UnboundableType) :
    d.expand .entity ≠ .error (.unboundable t) := by
  unfold Declaration.expand Declaration.entity
  cases Shape.inspect d Derivation.entity.name Derivation.entity.namesRequired with
  | error r => simp [refuseAt, Except.mapError, Except.map, bind, Except.bind]
  | ok s =>
    cases EntityOptions.ofAttributes d.attributes with
    | error ps => simp [refuseAt, Except.mapError, Except.map, bind, Except.bind]
    | ok o =>
      cases h : o.identifierName s <;>
        simp [h, refuseAt, Except.mapError, Except.map, bind, Except.bind, pure, Except.pure]

theorem Shape.implementing_eq_error_iff {path bound body : Phrase} :
    s.implementing path bound body = .error (.unboundable t) ↔ s.boundedWhere bound = .error t := by
  unfold implementing
  cases s.boundedWhere bound <;> simp [Except.mapError, Except.map]

theorem Source.Declaration.expand_eq_unboundable_iff :
    d.expand v = .error (.unboundable t) ↔ ∃ s bound, d.shapeFor v = .ok s ∧
      v.bound? = some bound ∧ s.boundedWhere bound = .error t := by
  cases accepted : d.shapeFor v with
  | error r =>
    have refused : d.expand v = _ := Shape.expand_of_refused accepted d.attributes
    simp [refused]
  | ok s =>
    cases v with
    | fromRow =>
      rw [Shape.expand_fromRow accepted, Shape.implementing_eq_error_iff]
      simp [Derivation.bound?]
    | toRow =>
      rw [Shape.expand_toRow accepted, Shape.implementing_eq_error_iff]
      simp [Derivation.bound?]
    | entity => simp [Derivation.bound?, d.expand_entity_ne]

/-- A derivation is stuck exactly on the first type that cannot be given the bound, where bounds are
given at all. -/
theorem Source.Declaration.derive_stuck_iff :
    d.derive v = .error t ↔ ∃ s bound before after, d.shapeFor v = .ok s ∧
      v.bound? = some bound ∧ d.generics.hasTypes = true ∧
      s.fields.types = before ++ t.type :: after ∧ (∀ u ∈ before, BoundReads bound u) ∧
      ¬ BoundReads bound t.type := by
  rw [derive_eq_error_iff, expand_eq_unboundable_iff]
  constructor
  · rintro ⟨s, bound, accepted, bounded, stuck⟩
    obtain ⟨types, stuck⟩ := Shape.boundedWhere_eq_error_iff.mp stuck
    obtain ⟨before, after, split, good, bad⟩ := mapM_boundPredicate_eq_error_iff.mp stuck
    rw [Shape.generics_of_shapeFor accepted] at types
    exact ⟨s, bound, before, after, accepted, bounded, types, split, good, bad⟩
  · rintro ⟨s, bound, before, after, accepted, bounded, types, split, good, bad⟩
    rw [← Shape.generics_of_shapeFor accepted] at types
    exact ⟨s, bound, accepted, bounded, Shape.boundedWhere_eq_error_iff.mpr
      ⟨types, mapM_boundPredicate_eq_error_iff.mpr ⟨before, after, split, good, bad⟩⟩⟩

/-! ## Names -/

theorem continues_of_isDigit {c : Char} (h : c.isDigit = true) :
    Text.identifierContinue.contains c = true := by
  have ascii : c.toNat < 128 := by
    simp only [Char.isDigit, Bool.and_eq_true, decide_eq_true_eq, UInt32.le_iff_toNat_le] at h
    exact Nat.lt_of_le_of_lt h.2 (by decide)
  rw [identifierContinue_of_ascii ascii, Char.isAlphanum, h, Bool.or_true, Bool.true_or]

/-- The local name of a field is an identifier, whatever its position. -/
theorem RecordFields.isPlain_binding (i : Nat) : IsPlain (binding i).toList := by
  have starts : startsIdentifier 'f' = true := startsIdentifier_of_ascii (by decide)
  have stem : IsPlain "field_".toList := ⟨'f', _, rfl, starts, identifierContinue_of_all (by decide)⟩
  rw [toList_binding]
  exact stem.append fun c member =>
    continues_of_isDigit (Nat.isDigit_of_mem_toDigits (by decide) (by decide) member)

theorem isIdentifier_of_isPlain {text : String} (h : IsPlain text.toList) : IsIdentifier text := by
  have identifier := h.isIdentifier
  rwa [String.ofList_toList] at identifier

/-! ## Anonymous records -/

/-- The type of an anonymous record is not read again: either it starts no type, or it is the path
of a single word, and no bound stands behind that. -/
theorem not_boundReads_anonymous {w : String} (anonymous : w ∈ ["struct", "union"])
    (bound rest : Phrase) : ¬ BoundReads bound (.word w :: .opening .brace :: rest) := by
  -- the first two tokens decide, whatever stands behind them
  have fails (n : Nested) (ts : List Token) : ∃ e, predicate (deepen n)
      { tokens := ⟨.word w, ⟨0, 0⟩⟩ :: ⟨.opening .brace, ⟨0, 0⟩⟩ :: ts } = .error e := by
    obtain rfl | rfl : w = "struct" ∨ w = "union" := by simpa using anonymous
    · exact ⟨_, rfl⟩
    · exact ⟨_, rfl⟩
  rintro ⟨⟨a, p⟩, read⟩
  obtain ⟨printed, read, -⟩ := readTokens_eq_ok read
  obtain ⟨e, failed⟩ := fails (nestedWithin _) _
  cases read.symm.trans failed

open Classical in
/-- Where some type is not read again, one of them is the first. -/
theorem exists_first {bound type : Phrase} {types : List Phrase} (member : type ∈ types)
    (bad : ¬ BoundReads bound type) : ∃ before first after, types = before ++ first :: after ∧
      (∀ u ∈ before, BoundReads bound u) ∧ ¬ BoundReads bound first := by
  have found : (types.find? fun u => ¬ BoundReads bound u).isSome :=
    List.find?_isSome.mpr ⟨type, member, by simpa using bad⟩
  obtain ⟨first, found⟩ := Option.isSome_iff_exists.mp found
  obtain ⟨unread, before, after, split, good⟩ := List.find?_eq_some_iff_append.mp found
  exact ⟨before, first, after, split, fun u hu => by simpa using good u hu, by simpa using unread⟩

/-! ## Ordinary types -/

theorem boundReads_ordinary {bound type : Phrase} (h : Ordinary .type type)
    (hb : Ordinary .path bound) : BoundReads bound type := by
  unfold BoundReads readTokens nestedFor
  rw [List.append_assoc]
  refine (h.reads_predicate hb ?_).readAll
  simp only [unplaced, List.length_map]
  omega

theorem Derivation.ordinary_bound {bound : Phrase} (h : v.bound? = some bound) :
    Ordinary .path bound := by
  have path (w : String) (free : Ahead.isKeyword w = false) :
      Ordinary .path (operator "::" ++ ([.word "rowbind"] ++ Rule.signed "::" id [[.word w]])) :=
    .path true fun v member => by
      rcases List.mem_pair.mp member with rfl | rfl
      · exact .name (by decide)
      · exact .name free
  cases v with
  | fromRow =>
    cases h
    exact path "FromColumn" (by decide)
  | toRow =>
    cases h
    exact path "ToColumn" (by decide)
  | entity => cases h

/-- A derivation ends where all types are ordinary. -/
theorem Source.Declaration.derive_ordinary (accepted : d.shapeFor v = .ok s)
    (ordinary : ∀ u ∈ s.fields.types, Ordinary .type u) : ∃ out, d.derive v = .ok out := by
  cases outcome : d.derive v with
  | ok out => exact ⟨out, rfl⟩
  | error t =>
    obtain ⟨s', bound, before, after, accepted', bounded, -, split, -, bad⟩ :=
      derive_stuck_iff.mp outcome
    cases accepted.symm.trans accepted'
    have member : t.type ∈ s.fields.types := by
      rw [split]
      exact List.mem_append_right _ List.mem_cons_self
    exact absurd (boundReads_ordinary (ordinary _ member) (Derivation.ordinary_bound bounded)) bad

/-! ## Derivations of declarations -/

/-- All names that the derivations of a declaration make up are identifiers. A derivation ends with
code or problems unless it gives bounds and one of the types is not read again in front of its
bound. Ordinary types always are, and the types of anonymous records never. -/
theorem Source.Declaration.derive_settled {source : String}
    (read : Declaration.read source = .ok d) :
    (∀ v s, d.shapeFor v = .ok s →
      (∀ x ∈ s.fields.bindings, IsIdentifier x ∧ Ahead.isKeyword x = false) ∧
      IsIdentifier (s.name.plain ++ "Id") ∧ Ahead.isKeyword (s.name.plain ++ "Id") = false) ∧
    (∀ v t, d.derive v = .error t ↔ ∃ s bound before after, d.shapeFor v = .ok s ∧
      v.bound? = some bound ∧ d.generics.hasTypes = true ∧
      s.fields.types = before ++ t.type :: after ∧ (∀ u ∈ before, BoundReads bound u) ∧
      ¬ BoundReads bound t.type) ∧
    (∀ v s, d.shapeFor v = .ok s → (∀ u ∈ s.fields.types, Ordinary .type u) →
      ∃ out, d.derive v = .ok out) ∧
    ∀ v s bound w rest, d.shapeFor v = .ok s → v.bound? = some bound →
      d.generics.hasTypes = true → w ∈ ["struct", "union"] →
      .word w :: .opening .brace :: rest ∈ s.fields.types → ∃ t, d.derive v = .error t := by
  refine ⟨fun v s accepted => ⟨fun x member => ?_, ?_, isKeyword_append_id _⟩,
    fun v t => derive_stuck_iff, fun v s accepted ordinary => derive_ordinary accepted ordinary,
    fun v s bound w rest accepted bounded types anonymous member => ?_⟩
  · obtain ⟨i, rfl⟩ := RecordFields.exists_binding member
    exact ⟨isIdentifier_of_isPlain (RecordFields.isPlain_binding i),
      RecordFields.isKeyword_binding i⟩
  · exact isIdentifier_of_isPlain (isPlain_append_id (Shape.isPlain_name read accepted))
  · obtain ⟨before, first, after, split, good, bad⟩ :=
      exists_first member (not_boundReads_anonymous anonymous bound rest)
    exact ⟨⟨first⟩, derive_stuck_iff.mpr
      ⟨s, bound, before, after, accepted, bounded, types, split, good, bad⟩⟩

/-- A record with a type parameter and a field that is an anonymous record. -/
def anonymousField : String := "struct r#Type<T> \x7b _: struct \x7b a: T \x7d \x7d"

/-- A record with a type parameter and types that start with the introduction of a lifetime, with a
lifetime, and with a bracket. -/
def boundedFields : String :=
  "struct Pair<T, const N: usize>(for<'a> Fold<&'a T>, 'static + Send, [[T; N]; 2]);"

theorem boundedFields_types : ∃ d s, Declaration.read boundedFields = .ok d ∧
    d.shapeFor .fromRow = .ok s ∧ ∀ u ∈ s.fields.types, Ordinary .type u := by
  have outcome : ((Declaration.read boundedFields).toOption.bind fun d =>
      (d.shapeFor .fromRow).toOption.filter fun s => s.fields.types
        = [spelled "for < 'a > Fold < & 'a T >", spelled "'static + Send",
          grouped .bracket (grouped .bracket (spelled "T ; N") ++ (operator ";" ++ [.literal "2"]))]
      ).isSome := by
    have text : boundedFields = String.ofList _ := rfl
    rw [Declaration.read, text, Source.read, scan?_ofList]
    decide +kernel
  obtain ⟨s, outcome⟩ := Option.isSome_iff_exists.mp outcome
  obtain ⟨d, read, outcome⟩ := Option.bind_eq_some_iff.mp outcome
  obtain ⟨accepted, same⟩ := Option.filter_eq_some_iff.mp outcome
  refine ⟨d, s, eq_ok_of_toOption read, eq_ok_of_toOption accepted, ?_⟩
  rw [of_decide_eq_true same]
  have path (w : String) (free : Ahead.isKeyword w = false) : Ordinary .path [.word w] :=
    @Ordinary.path false _ [] fun v member => List.mem_singleton.mp member ▸ .name free
  have parameter : Ordinary .type [.word "T"] := .type (.named (path "T" (by decide)))
  have argument : Ordinary .argument (spelled "& 'a T") :=
    .argument (.type (.reference (some "a") false (.named (path "T" (by decide)))))
  have word : Ordinary .word (spelled "Fold < & 'a T >") :=
    @Ordinary.applied "Fold" [] (some (spelled "& 'a T")) (by decide) fun i member =>
      List.mem_singleton.mp member ▸ argument
  have general : Ordinary .type (spelled "for < 'a > Fold < & 'a T >") :=
    @Ordinary.generalSum [] (some "a") _ [] []
      (fun v member => List.mem_singleton.mp member ▸ word)
      fun i member => absurd member List.not_mem_nil
  have outliving : Ordinary .type (spelled "'static + Send") :=
    @Ordinary.outliving "static" (.trait, [.word "Send"]) []
      (fun i member => List.mem_singleton.mp member ▸ .trait (path "Send" (by decide)))
      ⟨_, List.mem_cons_self, rfl⟩
  have inner : Ordinary .type (grouped .bracket (spelled "T ; N")) :=
    .type (.array parameter (isLength_name (by decide)))
  simp only [List.forall_mem_cons]
  exact ⟨general, outliving, .type (.array inner (isLength_literal "2")),
    List.forall_mem_nil _⟩

theorem Source.Declaration.derive_settled_anonymous :
    (∃ d t, Declaration.read anonymousField = .ok d ∧ d.derive .toRow = .error t ∧
      (∀ t, d.derive .entity ≠ .error t) ∧ IsIdentifier "TypeId") ∧
    ∃ d out, Declaration.read boundedFields = .ok d ∧ d.derive .fromRow = .ok out := by
  have outcome : ((Declaration.read anonymousField).toOption.bind fun d =>
      (d.shapeFor .toRow).toOption.filter fun s => s.name.plain = "Type" ∧
        d.generics.hasTypes ∧ s.fields.types
          = [.word "struct" :: grouped .brace
            (.word "a" :: operator ":" ++ [.word "T"])]).isSome := by
    have text : anonymousField = String.ofList _ := rfl
    rw [Declaration.read, text, Source.read, scan?_ofList]
    decide +kernel
  obtain ⟨s, outcome⟩ := Option.isSome_iff_exists.mp outcome
  obtain ⟨d, read, outcome⟩ := Option.bind_eq_some_iff.mp outcome
  obtain ⟨accepted, same⟩ := Option.filter_eq_some_iff.mp outcome
  obtain ⟨name, generic, types⟩ := of_decide_eq_true same
  obtain ⟨names, stuck_iff, -, anonymous⟩ := derive_settled (eq_ok_of_toOption read)
  obtain ⟨t, stuck⟩ := anonymous .toRow s _ "struct" _ (eq_ok_of_toOption accepted) rfl generic
    (by decide) (by rw [types]; exact List.mem_singleton_self _)
  refine ⟨⟨d, t, eq_ok_of_toOption read, stuck, fun t h => ?_, ?_⟩, ?_⟩
  · obtain ⟨_, _, _, _, _, bounded, _⟩ := (stuck_iff .entity t).mp h
    cases bounded
  · have identifier := (names .toRow s (eq_ok_of_toOption accepted)).2.1
    rwa [name] at identifier
  · obtain ⟨d, s, read, accepted, types⟩ := boundedFields_types
    obtain ⟨-, -, ordinary, -⟩ := derive_settled read
    obtain ⟨out, derived⟩ := ordinary .fromRow s accepted types
    exact ⟨d, out, read, derived⟩

theorem Source.Declaration.derive_stuck : ∃ d t, Declaration.read anonymousField = .ok d ∧
    d.derive .fromRow = .error t := by
  have outcome : ((Declaration.read anonymousField).toOption.map fun d =>
      (d.derive .fromRow).isOk) = some false := by
    have text : anonymousField = String.ofList _ := rfl
    rw [Declaration.read, text, Source.read, scan?_ofList]
    decide +kernel
  obtain ⟨d, read, stuck⟩ := Option.map_eq_some_iff.mp outcome
  cases h : d.derive .fromRow with
  | ok out =>
    rw [h] at stuck
    cases stuck
  | error t => exact ⟨d, t, eq_ok_of_toOption read, h⟩

end RecordRows
