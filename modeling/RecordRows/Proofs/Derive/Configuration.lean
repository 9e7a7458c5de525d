import RecordRows.Derive.Expansion
import RecordRows.Proofs.Derive.Attributes

/-!
The options of an entity do not depend on how they are written down: neither on the order of the
entries nor on the attributes they are divided among (`ofAttributes_rearranged`). Each entry decides
the field of its key, and a field without an entry has its default.
-/
namespace RecordRows

open Source Phrase

variable {sayings sayings' : List Saying} {o o' : EntityOptions} {k : OptionKey} {value : SaidValue}

/-! ## What is said decides the options -/

theorem Sound.perm (h : Sound sayings) (same : sayings.Perm sayings') : Sound sayings' where
  known s member := h.known s (same.mem_iff.mpr member)
  distinct := (same.map Saying.key?).nodup_iff.mp h.distinct

theorem Mentions.of_perm (same : sayings.Perm sayings') (h : Mentions sayings' k) :
    Mentions sayings k := by
  obtain ⟨value, member⟩ := h
  exact ⟨value, same.mem_iff.mpr member⟩

namespace EntityOptions

theorem Describes.perm (h : o.Describes sayings) (same : sayings.Perm sayings') :
    o.Describes sayings' where
  takes k value member := h.takes k value (same.mem_iff.mpr member)
  default k absent := h.default k fun mentioned => absent (mentioned.of_perm same.symm)

theorem SameAt.symm (h : o.SameAt o' k) : o'.SameAt o k := by
  cases k <;> exact Eq.symm h

theorem ext_sameAt (h : ∀ k, o.SameAt o' k) : o = o' := by
  obtain ⟨table, column, capabilities, type, name⟩ := o
  have table : table = _ := h .tableNaming
  have column : column = _ := h .columnNaming
  have capabilities : capabilities = _ := h .idDerive
  have type : type = _ := h .idType
  have name : name = _ := h .idName
  subst table column capabilities type name
  rfl

theorem Takes.sameAt (h : o.Takes value k) (h' : o'.Takes value k) : o.SameAt o' k := by
  cases k with
  | idName =>
    obtain ⟨name, said, set⟩ := h
    obtain ⟨name', said', set'⟩ := h'
    cases said.symm.trans said'
    exact set.trans set'.symm
  | _ => exact Option.some.inj (h.symm.trans h')

/-- The field of a key is known from what is said for the key. -/
theorem Describes.sameAt (h : o.Describes sayings) (h' : o'.Describes sayings')
    (same : ∀ value, .item k.name value ∈ sayings ↔ .item k.name value ∈ sayings') :
    o.SameAt o' k := by
  by_cases mentioned : Mentions sayings k
  · obtain ⟨value, member⟩ := mentioned
    exact (h.takes k value member).sameAt (h'.takes k value ((same value).mp member))
  · have absent : ¬ Mentions sayings' k := fun ⟨value, member⟩ =>
      mentioned ⟨value, (same value).mpr member⟩
    exact (h.default k mentioned).trans (h'.default k absent).symm

/-- There is one description of what is said. -/
theorem Describes.unique (h : o.Describes sayings) (h' : o'.Describes sayings) : o = o' :=
  ext_sameAt fun _ => h.sameAt h' fun _ => Iff.rfl

/-- Options are accepted where the entries have no problems, and hold what is said. -/
theorem ofAttributes_eq_ok_iff {attributes : List MetaItem} {items : List ListEntry}
    (listed : Itemized attributes items) :
    ofAttributes attributes = .ok o ↔
      Sound (items.map ListEntry.saying) ∧ o.Describes (items.map ListEntry.saying) := by
  have outcome := outcome_ofAttributes listed
  have sound_iff : problemCount [] (items.map ListEntry.saying) = 0
      ↔ Sound (items.map ListEntry.saying) := by
    simp [problemCount_eq_zero_iff]
  rw [← sound_iff]
  generalize ofAttributes attributes = r at outcome
  cases outcome with
  | reported positive => simp [positive.ne']
  | @unresolved raw _ _ type =>
    have undescribed : ¬ o.Describes (items.map ListEntry.saying) := fun h => h.resolved raw type
    simp [undescribed]
  | @accepted o' sound describes =>
    constructor
    · intro h
      cases h
      exact ⟨sound, describes⟩
    · rintro ⟨-, h⟩
      rw [describes.unique h]

end EntityOptions

/-! ## One more entry -/

/-- A value that can be set for a key. -/
def SaidValue.Fits (v : SaidValue) : OptionKey → Prop
  | .columnNaming | .tableNaming => v.naming?.isSome
  | .idDerive => v.capabilities?.isSome
  | .idName => v.name?.isSome
  | .idType => v.type?.isSome

theorem SaidValue.Fits.problems_eq_zero (h : value.Fits k) : value.problems k = 0 := by
  cases k with
  | columnNaming => exact if_pos h
  | tableNaming => exact if_pos h
  | idName => exact if_pos h
  | idType =>
    obtain ⟨type, read⟩ := Option.isSome_iff_exists.mp h
    obtain ⟨raw, text, -⟩ := Option.bind_eq_some_iff.mp read
    simp [SaidValue.problems, text]
  | idDerive =>
    cases value with
    | words ws =>
      by_contra strangers
      have strangers : SaidValue.strangers ws ≠ 0 := strangers
      simp [SaidValue.Fits, SaidValue.capabilities?, strangers] at h
    | _ => cases h

namespace EntityOptions

/-- An entry for a key without one is accepted with any value that can be set, and changes the field
of this key only. -/
theorem exists_of_fits {attributes attributes' : List MetaItem} {items items' : List ListEntry}
    (listed : Itemized attributes items) (accepted : ofAttributes attributes = .ok o)
    (absent : ¬ Mentions (items.map ListEntry.saying) k) (fits : value.Fits k)
    (listed' : Itemized attributes' items')
    (extended : (items'.map ListEntry.saying).Perm
      (.item k.name value :: items.map ListEntry.saying)) :
    ∃ o', ofAttributes attributes' = .ok o' ∧ o'.Takes value k ∧ ∀ k' ≠ k, o'.SameAt o k' := by
  obtain ⟨sound, describes⟩ := (ofAttributes_eq_ok_iff listed).mp accepted
  have sound' : problemCount [] (items'.map ListEntry.saying) = 0 := by
    have extendedSound := sound_cons.mpr ⟨⟨k, value, rfl, fits.problems_eq_zero⟩,
      fun member => absent (mentions_iff.mpr member), sound⟩
    simp [problemCount_eq_zero_iff, extendedSound.perm extended.symm]
  have outcome := outcome_ofAttributes listed'
  generalize ofAttributes attributes' = r at outcome
  cases outcome with
  | reported positive => exact absurd sound' positive.ne'
  | @unresolved raw _ _ type =>
    obtain ⟨unreadable, value', member, text⟩ := type
    -- the type is said by the new entry, whose value fits, or was said before
    rcases List.mem_cons.mp (extended.mem_iff.mp member) with same | member
    · obtain ⟨name, rfl⟩ := Saying.item.inj same
      cases OptionKey.name_injective name
      have read : value'.type? = none := by rw [SaidValue.type?, text]; exact unreadable
      have fits : value'.type?.isSome := fits
      rw [read] at fits
      cases fits
    · exact absurd ⟨unreadable, value', member, text⟩ (describes.resolved raw)
  | @accepted o' _ describes' =>
    refine ⟨o', rfl, describes'.takes k value (extended.mem_iff.mpr (by simp)), fun k' other => ?_⟩
    refine describes'.sameAt describes fun value' => extended.mem_iff.trans ?_
    simp [OptionKey.name_injective.eq_iff, other]

/-! ## Defaults -/

/-- The documented default of a field. -/
def AtDefault (o : EntityOptions) : OptionKey → Prop
  | .columnNaming => o.columnNaming = .identity
  | .idDerive => ∀ c, o.capabilities.contains c = true ↔ c ∈ [Capability.eq, .ord, .debug]
  | .idName => ∀ s : Shape, o.identifierName s = .ok (s.name.plain ++ "Id")
  | .idType => Phrase.text o.idType = ":: rowbind :: BigInt"
  | .tableNaming => o.tableNaming = .identity

theorem SameAt.atDefault (h : o.SameAt {} k) : o.AtDefault k := by
  cases k with
  | columnNaming => exact h
  | tableNaming => exact h
  | idDerive =>
    have standard : o.capabilities = .standard := h
    intro c
    rw [standard]
    exact List.contains_iff_mem
  | idType =>
    have bigInt : o.idType = Phrase.spelled ":: rowbind :: BigInt" := h
    rw [AtDefault, bigInt]
    decide
  | idName =>
    have unnamed : o.idName? = none := h
    intro s
    have longer : s.name.plain ++ "Id" ≠ s.name.plain := by
      intro same
      simpa using congrArg String.length same
    simp [identifierName, unnamed, longer]

/-! ## Rearrangement -/

/-- The code for an entity depends on its attributes through the options only. -/
theorem expand_entity_congr (d : Declaration) {attributes attributes' : List MetaItem}
    (same : ofAttributes attributes = ofAttributes attributes') :
    { d with attributes }.expand .entity = { d with attributes := attributes' }.expand .entity := by
  have entity : { d with attributes }.entity = { d with attributes := attributes' }.entity := by
    simp only [Declaration.entity, same]
    rfl
  rw [Declaration.expand, Declaration.expand, entity]

/-- Attributes that say the same, in whatever order and groups, are accepted alike and give the same
options, so that the same code is generated. Each entry sets the field of its key, one more entry
changes no other field, and a field without an entry has its default. -/
theorem ofAttributes_rearranged {attributes attributes' : List MetaItem}
    {items items' : List ListEntry} (listed : Itemized attributes items)
    (listed' : Itemized attributes' items')
    (same : (items.map ListEntry.saying).Perm (items'.map ListEntry.saying)) :
    (∀ o, ofAttributes attributes = .ok o ↔ ofAttributes attributes' = .ok o) ∧
    ∀ o, ofAttributes attributes = .ok o →
      (∀ d : Declaration, { d with attributes }.expand .entity
        = { d with attributes := attributes' }.expand .entity) ∧
      (∀ k value, .item (OptionKey.name k) value ∈ items.map ListEntry.saying →
        o.Takes value k) ∧
      (∀ k, ¬ Mentions (items.map ListEntry.saying) k → o.AtDefault k) ∧
      ∀ k value, ¬ Mentions (items.map ListEntry.saying) k → value.Fits k →
        ∀ more extended, Itemized more extended →
          (extended.map ListEntry.saying).Perm
            (.item (OptionKey.name k) value :: items.map ListEntry.saying) →
          ∃ o', ofAttributes more = .ok o' ∧ o'.Takes value k ∧
            ∀ k' ≠ k, o'.SameAt o k' := by
  have alike (o : EntityOptions) :
      ofAttributes attributes = .ok o ↔ ofAttributes attributes' = .ok o := by
    rw [ofAttributes_eq_ok_iff listed, ofAttributes_eq_ok_iff listed']
    exact ⟨fun ⟨sound, describes⟩ => ⟨sound.perm same, describes.perm same⟩,
      fun ⟨sound, describes⟩ => ⟨sound.perm same.symm, describes.perm same.symm⟩⟩
  refine ⟨alike, fun o accepted => ⟨fun d => ?_, ?_, ?_, ?_⟩⟩
  · exact expand_entity_congr d (accepted.trans ((alike o).mp accepted).symm)
  · exact ((ofAttributes_eq_ok_iff listed).mp accepted).2.takes
  · exact fun k absent => (((ofAttributes_eq_ok_iff listed).mp accepted).2.default k absent).atDefault
  · exact fun k value absent fits more extended listed'' perm =>
      exists_of_fits listed accepted absent fits listed'' perm

/-- An attribute with options. -/
def optionsAttribute (content : Phrase) : MetaItem :=
  ⟨false, ["entity"], .list content.unplaced, none⟩

def typePhrase : Phrase := spelled "id_type =" ++ [.literal "\"i64\""]

def derivePhrase (names : String) : Phrase :=
  .word "id_derive" :: grouped .paren (spelled names)

/-- A type and capabilities in one attribute. -/
def together : List MetaItem :=
  [optionsAttribute (typePhrase ++ operator "," ++ derivePhrase "Copy , Clone")]

/-- The same in two attributes, with another one between them. -/
def apart : List MetaItem :=
  [optionsAttribute (derivePhrase "Clone , Copy"), ⟨false, ["doc"], .none, none⟩,
    optionsAttribute typePhrase]

theorem ofAttributes_rearranged_pair :
    ∃ o o', ofAttributes together = .ok o ∧ ofAttributes apart = .ok o ∧
      o.tableNaming = .identity ∧
      ofAttributes (optionsAttribute (spelled "id_name = Key") :: apart) = .ok o' ∧
      o'.idName? = some "Key" ∧ o'.capabilities = o.capabilities := by
  let item (word : String) (argument : MetaArgument) : ListEntry :=
    .item ⟨false, [word], argument, some ⟨0, 0⟩⟩
  let type := item "id_type" (.value (.literal "\"i64\"") (some ⟨0, 0⟩))
  let derive (names : String) := item "id_derive" (.list (spelled names).unplaced)
  let name := item "id_name" (.value (.path (some "Key")) (some ⟨0, 0⟩))
  let key : SaidValue := .form (.path (some "Key"))
  have both : readEntries (typePhrase ++ operator "," ++ derivePhrase "Copy , Clone").unplaced
      = .ok [type, derive "Copy , Clone"] := by decide +kernel
  have first : readEntries (derivePhrase "Clone , Copy").unplaced
      = .ok [derive "Clone , Copy"] := by decide +kernel
  have second : readEntries typePhrase.unplaced = .ok [type] := by decide +kernel
  have third : readEntries (spelled "id_name = Key").unplaced = .ok [name] := by decide +kernel
  have listed : Itemized together [type, derive "Copy , Clone"] := .list rfl rfl both .nil
  have listed' : Itemized apart [derive "Clone , Copy", type] :=
    .list rfl rfl first (.unrelated rfl (.list rfl rfl second .nil))
  have listedMore : Itemized (optionsAttribute (spelled "id_name = Key") :: apart)
      [name, derive "Clone , Copy", type] := .list rfl rfl third listed'
  have saidDerive : (derive "Copy , Clone").saying
      = .item OptionKey.idDerive.name (.words ↑[some ["Copy"], some ["Clone"]]) := by decide +kernel
  have saidDerive' : (derive "Clone , Copy").saying
      = .item OptionKey.idDerive.name (.words ↑[some ["Clone"], some ["Copy"]]) := by decide +kernel
  have saidType : type.saying = .item OptionKey.idType.name (.form (.literal "\"i64\"")) := rfl
  have saidName : name.saying = .item OptionKey.idName.name key := rfl
  have same : ([type, derive "Copy , Clone"].map ListEntry.saying).Perm
      ([derive "Clone , Copy", type].map ListEntry.saying) := by
    have unordered : (derive "Clone , Copy").saying = (derive "Copy , Clone").saying := by
      rw [saidDerive, saidDerive', Multiset.coe_eq_coe.mpr (.swap _ _ _)]
    rw [List.map_cons, List.map_cons, List.map_cons, List.map_cons, unordered]
    exact .swap _ _ _
  have absent (k : OptionKey) (other : k ≠ .idType ∧ k ≠ .idDerive) :
      ¬ Mentions ([type, derive "Copy , Clone"].map ListEntry.saying) k := by
    rw [List.map_cons, List.map_cons, saidType, saidDerive, mentions_cons, mentions_cons]
    rintro (same | same | ⟨_, ⟨⟩⟩)
    · exact other.1 same
    · exact other.2 same
  obtain ⟨alike, all⟩ := ofAttributes_rearranged listed listed' same
  have accepted : (ofAttributes together).isOk = true := by decide +kernel
  cases h : ofAttributes together with
  | error ps => rw [h] at accepted; cases accepted
  | ok o =>
    obtain ⟨-, -, default, more⟩ := all o h
    have extended : ([name, derive "Clone , Copy", type].map ListEntry.saying).Perm
        (.item OptionKey.idName.name key :: [type, derive "Copy , Clone"].map ListEntry.saying) := by
      rw [List.map_cons, saidName]
      exact same.symm.cons _
    have fits : key.Fits .idName := rfl
    obtain ⟨o', accepted', ⟨_, said, taken⟩, others⟩ :=
      more .idName key (absent _ (by decide)) fits _ _ listedMore extended
    cases said
    exact ⟨o, o', rfl, (alike o).mp h, default .tableNaming (absent _ (by decide)), accepted',
      taken, others .idDerive (by decide)⟩

end EntityOptions

end RecordRows
