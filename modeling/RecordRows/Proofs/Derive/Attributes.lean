import RecordRows.Proofs.Derive.Entry

/-!
All entity attributes of a declaration together. Their entries, in order, either have problems, which
add up, or set options once each; then only a type of identifiers that cannot be resolved is left to
fail (`outcome_ofAttributes`).
-/
namespace RecordRows

open Source

/-! ## Entries of all attributes -/

/-- The entries of attributes whose lists can be read. Attributes that hold no options may stand
between them, and an attribute without a list holds none. -/
inductive Itemized : List MetaItem → List ListEntry → Prop where
  | nil : Itemized [] []
  | unrelated {m ms es} (other : isEntityAttribute m = false) (rest : Itemized ms es) :
    Itemized (m :: ms) es
  | bare {m ms es} (options : isEntityAttribute m = true) (argument : m.argument = .none)
    (rest : Itemized ms es) : Itemized (m :: ms) es
  | list {m ms content es es'} (options : isEntityAttribute m = true)
    (argument : m.argument = .list content) (read : readEntries content = .ok es)
    (rest : Itemized ms es') : Itemized (m :: ms) (es ++ es')

theorem Itemized.entries {attributes : List MetaItem} {items : List ListEntry}
    (h : Itemized attributes items) :
    (attributes.filter isEntityAttribute).flatMap attributeEntries = items.map .ok := by
  induction h with
  | nil => rfl
  | unrelated other _ ih => rw [List.filter_cons_of_neg (by simp [other]), ih]
  | bare options argument _ ih =>
    rw [List.filter_cons_of_pos options, List.flatMap_cons, ih]
    simp [attributeEntries, argument]
  | list options argument read _ ih =>
    rw [List.filter_cons_of_pos options, List.flatMap_cons, ih]
    simp [attributeEntries, argument, read]

/-- Results that all count have no problems. -/
theorem eq_nil_of_settle_eq_ok {α : Type} {rs : List (Except (List Problem) α)} {as : List α}
    (h : settle rs = .ok as) {ps : List Problem} (member : .error ps ∈ rs) : ps = [] := by
  simp only [settle] at h
  split at h
  · next none => exact List.flatMap_eq_nil_iff.mp (List.isEmpty_iff.mp none) _ member
  · cases h

/-- What cannot be read of the entries is reported with what they set. -/
theorem error_mem_settings {entries : List (Except (List Problem) ListEntry)} {ps : List Problem}
    (member : .error ps ∈ entries) (seen : List OptionKey) : .error ps ∈ settings seen entries := by
  induction entries generalizing seen with
  | nil => cases member
  | cons e entries ih =>
    rcases List.mem_cons.mp member with rfl | member
    · exact List.mem_cons_self
    · have further (seen : List OptionKey) (r : Except (List Problem) Setting) :
          .error ps ∈ r :: settings seen entries := List.mem_cons_of_mem _ (ih member seen)
      cases e with
      | error _ => exact further _ _
      | ok e =>
        cases e with
        | literal place? => exact further _ _
        | item m =>
          rw [settings]
          split
          · exact further _ _
          · split <;> exact further _ _

/-- Lists without problems can be read. -/
theorem exists_itemized {attributes : List MetaItem}
    (readable : ∀ m ∈ attributes, isEntityAttribute m = true →
      ∀ ps, .error ps ∈ attributeEntries m → ps = []) : ∃ items, Itemized attributes items := by
  induction attributes with
  | nil => exact ⟨[], .nil⟩
  | cons m attributes ih =>
    obtain ⟨first, rest⟩ := List.forall_mem_cons.mp readable
    obtain ⟨items, rest⟩ := ih rest
    cases options : isEntityAttribute m with
    | false => exact ⟨items, .unrelated options rest⟩
    | true =>
      have first := first options
      cases argument : m.argument with
      | none => exact ⟨items, .bare options argument rest⟩
      | value form place? =>
        rw [attributeEntries, argument] at first
        cases first _ List.mem_cons_self
      | list content =>
        cases read : readEntries content with
        | ok es => exact ⟨es ++ items, .list options argument read rest⟩
        | error ps =>
          simp only [attributeEntries, argument, read] at first
          cases first ps List.mem_cons_self
          unfold readEntries at read
          split at read <;> cases read

/-! ## Problems -/

theorem OptionKey.ofName?_name (k : OptionKey) : ofName? k.name = some k := by
  cases k <;> decide

theorem OptionKey.eq_name_of_ofName? {key : String} {k : OptionKey} (h : ofName? key = some k) :
    key = k.name := by
  have name : k.name = key := by simpa using List.find?_some h
  exact name.symm

theorem OptionKey.ne_name_of_ofName? {key : String} (h : ofName? key = none) (k : OptionKey) :
    key ≠ k.name := by
  rintro rfl
  rw [ofName?_name] at h
  cases h

theorem OptionKey.name_injective : Function.Injective OptionKey.name := by
  intro k k' same
  have known : some k = some k' := by rw [← ofName?_name, same, ofName?_name]
  exact Option.some.inj known

def Saying.key? : Saying → Option String
  | .literal => none
  | .item key _ => some key

/-- The number of problems of an entry behind others. -/
def Saying.problems (before : List Saying) : Saying → Nat
  | .literal => 1
  | .item key value =>
    match OptionKey.ofName? key with
    | none => 1
    | some k => if some key ∈ before.map Saying.key? then 1 else value.problems k

/-- The number of problems of all entries behind others. -/
def problemCount : (before sayings : List Saying) → Nat
  | _, [] => 0
  | before, s :: rest => s.problems before + problemCount (before ++ [s]) rest

/-- A setting is what an entry says. -/
inductive Saying.Sets : Saying → Setting → Prop where
  | item {k value s} (said : Setting.Says value k s) : Sets (.item k.name value) s

/-- The problems of all entries add up. The keys that are seen are those of the entries before,
whatever their values. -/
theorem reports_settings {before : List Saying} {seen : List OptionKey}
    (same : ∀ k, k ∈ seen ↔ some k.name ∈ before.map Saying.key?) (items : List ListEntry) :
    Reports (problemCount before (items.map ListEntry.saying))
      (List.Forall₂ Saying.Sets (items.map ListEntry.saying))
      (settle (settings seen (items.map .ok))) := by
  induction items generalizing before seen with
  | nil => exact reports_ok .nil
  | cons e items ih =>
    -- an entry whose key is unknown or seen leaves the seen keys as they are
    have further (unseen : ∀ k, e.saying.key? = some (OptionKey.name k) → k ∈ seen) :
        ∀ k, k ∈ seen ↔ some k.name ∈ (before ++ [e.saying]).map Saying.key? := by
      intro k
      rw [List.map_append, List.mem_append, ← same]
      constructor
      · exact .inl
      · rintro (h | h)
        · exact h
        · exact unseen k (List.mem_singleton.mp h).symm
    cases e with
    | literal place? => exact (reports_problem (by trivial)).settle_cons (ih (further nofun))
    | item m =>
      simp only [List.map_cons, settings, problemCount, ListEntry.saying, Saying.problems]
      cases hk : OptionKey.ofName? m.key with
      | none =>
        have unknown := OptionKey.ne_name_of_ofName? hk
        exact (reports_problem (by trivial)).settle_cons
          (ih (further fun k h => absurd (Option.some.inj h) (unknown k)))
      | some k =>
        have key := OptionKey.eq_name_of_ofName? hk
        simp only [ListEntry.saying, Saying.key?, key] at further ⊢
        simp only [← same, List.contains_iff_mem]
        split
        · next repeated =>
          refine (reports_problem (by trivial)).settle_cons (ih (further fun k' h => ?_))
          rwa [← OptionKey.name_injective (Option.some.inj h)]
        · next first =>
          have report : Reports _ (Saying.Sets (.item k.name m.said)) _ :=
            (reports_settingFor m k).mono fun s said => ⟨said⟩
          refine report.settle_cons (ih fun k' => ?_)
          rw [List.map_append, List.mem_append, ← same]
          simp [Saying.key?, OptionKey.name_injective.eq_iff, or_comm]

/-- Entries without problems: items with known keys, each at most once, and values that fit. -/
structure Sound (sayings : List Saying) : Prop where
  known : ∀ s ∈ sayings, ∃ k value, s = .item (OptionKey.name k) value ∧ value.problems k = 0
  distinct : (sayings.map Saying.key?).Nodup

theorem Saying.problems_eq_zero_iff {before : List Saying} {s : Saying} :
    s.problems before = 0 ↔ (∃ k value, s = .item (OptionKey.name k) value ∧ value.problems k = 0) ∧
      s.key? ∉ before.map Saying.key? := by
  cases s with
  | literal => simp [problems]
  | item key value =>
    cases hk : OptionKey.ofName? key with
    | none => simp [problems, hk, OptionKey.ne_name_of_ofName? hk]
    | some k =>
      cases OptionKey.eq_name_of_ofName? hk
      by_cases repeated : some k.name ∈ before.map key?
      · simp [problems, hk, key?, repeated]
      · simp [problems, hk, key?, repeated, OptionKey.name_injective.eq_iff]

theorem sound_cons {s : Saying} {rest : List Saying} :
    Sound (s :: rest) ↔ (∃ k value, s = .item (OptionKey.name k) value ∧ value.problems k = 0) ∧
      s.key? ∉ rest.map Saying.key? ∧ Sound rest := by
  constructor
  · rintro ⟨known, distinct⟩
    rw [List.map_cons, List.nodup_cons] at distinct
    exact ⟨known s (by simp), distinct.1, fun t ht => known t (by simp [ht]), distinct.2⟩
  · rintro ⟨first, new, known, distinct⟩
    refine ⟨fun t ht => ?_, List.nodup_cons.mpr ⟨new, distinct⟩⟩
    rcases List.mem_cons.mp ht with rfl | ht
    · exact first
    · exact known t ht

theorem problemCount_eq_zero_iff {before sayings : List Saying} :
    problemCount before sayings = 0 ↔
      Sound sayings ∧ List.Disjoint (before.map Saying.key?) (sayings.map Saying.key?) := by
  induction sayings generalizing before with
  | nil =>
    have empty : Sound [] := ⟨nofun, .nil⟩
    simp [problemCount, empty]
  | cons s rest ih =>
    rw [problemCount, Nat.add_eq_zero_iff, Saying.problems_eq_zero_iff, ih, sound_cons]
    simp only [List.map_append, List.map_cons, List.map_nil, List.disjoint_append_left,
      List.disjoint_cons_right, List.singleton_disjoint]
    tauto

/-! ## Options -/

/-- Options that agree in the field of a key. -/
def EntityOptions.SameAt (o o' : EntityOptions) : OptionKey → Prop
  | .columnNaming => o.columnNaming = o'.columnNaming
  | .idDerive => o.capabilities = o'.capabilities
  | .idName => o.idName? = o'.idName?
  | .idType => o.idType = o'.idType
  | .tableNaming => o.tableNaming = o'.tableNaming

/-- The field of a key holds what a value says. -/
def EntityOptions.Takes (o : EntityOptions) (v : SaidValue) : OptionKey → Prop
  | .columnNaming => v.naming? = some o.columnNaming
  | .idDerive => v.capabilities? = some o.capabilities
  | .idName => ∃ name, v.name? = some name ∧ o.idName? = some name
  | .idType => v.type? = some o.idType
  | .tableNaming => v.naming? = some o.tableNaming

/-- Something is said for a key. -/
def Mentions (sayings : List Saying) (k : OptionKey) : Prop :=
  ∃ value, Saying.item k.name value ∈ sayings

theorem mentions_iff {sayings : List Saying} {k : OptionKey} :
    Mentions sayings k ↔ some k.name ∈ sayings.map Saying.key? := by
  rw [List.mem_map]
  constructor
  · rintro ⟨value, member⟩
    exact ⟨_, member, rfl⟩
  · rintro ⟨s, member, key⟩
    cases s with
    | literal => cases key
    | item _ value =>
      cases key
      exact ⟨value, member⟩

theorem mentions_cons {sayings : List Saying} {k k' : OptionKey} {value : SaidValue} :
    Mentions (.item k.name value :: sayings) k' ↔ k' = k ∨ Mentions sayings k' := by
  simp [mentions_iff, Saying.key?, OptionKey.name_injective.eq_iff]

/-- Options whose fields hold what is said for their keys, and are as without attributes where
nothing is said. -/
structure EntityOptions.Describes (o : EntityOptions) (sayings : List Saying) : Prop where
  takes : ∀ k value, .item (OptionKey.name k) value ∈ sayings → o.Takes value k
  default : ∀ k, ¬ Mentions sayings k → o.SameAt {} k

/-- A type of identifiers is set that is none. -/
def Unresolved (sayings : List Saying) (raw : String) : Prop :=
  EntityOptions.readType? raw = none ∧
    ∃ value, .item OptionKey.idType.name value ∈ sayings ∧ value.string? = some raw

/-- Where the type of identifiers cannot be resolved no options are described. -/
theorem EntityOptions.Describes.resolved {sayings : List Saying} {o : EntityOptions}
    (h : o.Describes sayings) (raw : String) : ¬ Unresolved sayings raw := by
  rintro ⟨unreadable, value, member, text⟩
  have read : value.type? = some o.idType := h.takes .idType value member
  rw [SaidValue.type?, text, Option.bind_some, unreadable] at read
  cases read

theorem EntityOptions.SameAt.refl (o : EntityOptions) (k : OptionKey) : o.SameAt o k := by
  cases k <;> rfl

theorem EntityOptions.SameAt.trans {o o' o'' : EntityOptions} {k : OptionKey} (h : o.SameAt o' k)
    (h' : o'.SameAt o'' k) : o.SameAt o'' k := by
  cases k <;> exact Eq.trans h h'

theorem EntityOptions.Takes.of_sameAt {o o' : EntityOptions} {v : SaidValue} {k : OptionKey}
    (h : o.Takes v k) (same : o'.SameAt o k) : o'.Takes v k := by
  cases k <;> simp_all [EntityOptions.Takes, EntityOptions.SameAt]

def Setting.key : Setting → OptionKey
  | .columnNaming _ => .columnNaming
  | .idDerive _ => .idDerive
  | .idName _ => .idName
  | .idType .. => .idType
  | .tableNaming _ => .tableNaming

theorem Setting.Says.key_eq {v : SaidValue} {k : OptionKey} {s : Setting} (said : Says v k s) :
    s.key = k := by
  cases k <;> cases s <;> first | rfl | cases said

namespace EntityOptions

section
variable {o o' : EntityOptions} {s : Setting}

theorem set_eq_ok_or (o : EntityOptions) (s : Setting) :
    (∃ o', o.set s = .ok o') ∨ ∃ raw place?, s = .idType raw place? ∧ readType? raw = none ∧
      o.set s = .error [⟨.refusal (.unresolvedType raw), place?⟩] := by
  cases s with
  | idType raw place? =>
    cases hr : readType? raw with
    | some phrase => exact .inl ⟨_, by simp only [set, hr]; rfl⟩
    | none => exact .inr ⟨raw, place?, rfl, hr, by simp only [set, hr]; rfl⟩
  | _ => exact .inl ⟨_, rfl⟩

/-- A setting changes the field of its key only. -/
theorem sameAt_of_set (h : o.set s = .ok o') {k : OptionKey} (other : k ≠ s.key) :
    o'.SameAt o k := by
  cases s with
  | idType raw place? =>
    simp only [set] at h
    split at h
    · cases h
      cases k <;> first | rfl | exact absurd rfl other
    · cases h
  | _ =>
    cases h
    cases k <;> first | rfl | exact absurd rfl other

theorem takes_of_set {v : SaidValue} {k : OptionKey} (said : Setting.Says v k s)
    (h : o.set s = .ok o') : o'.Takes v k := by
  cases said.key_eq
  cases s with
  | idType raw place? =>
    simp only [set] at h
    split at h
    · next phrase read =>
      cases h
      have text : v.string? = some raw := said
      simp [Setting.key, Takes, SaidValue.type?, text, read]
    · cases h
  | idName name =>
    cases h
    exact ⟨name, said, rfl⟩
  | _ =>
    cases h
    exact said

end

/-- Settings of different keys change the fields of these keys and no others. -/
theorem foldlM_set {sayings : List Saying} {settings : List Setting}
    (sets : List.Forall₂ Saying.Sets sayings settings) (distinct : (sayings.map Saying.key?).Nodup)
    (o : EntityOptions) :
    (∃ o', settings.foldlM set o = .ok o' ∧
      (∀ k value, .item (OptionKey.name k) value ∈ sayings → o'.Takes value k) ∧
      ∀ k, ¬ Mentions sayings k → o'.SameAt o k) ∨
    ∃ raw place?, Unresolved sayings raw ∧
      settings.foldlM set o = .error [⟨.refusal (.unresolvedType raw), place?⟩] := by
  induction sets generalizing o with
  | nil => exact .inl ⟨o, rfl, nofun, fun k _ => .refl o k⟩
  | @cons _ s sayings settings first _ ih =>
    obtain @⟨k, value, _, said⟩ := first
    rw [List.map_cons, List.nodup_cons] at distinct
    have unmentioned : ¬ Mentions sayings k := fun h => distinct.1 (mentions_iff.mp h)
    cases said.key_eq
    obtain ⟨o', applied⟩ | ⟨raw, place?, rfl, unreadable, failed⟩ := set_eq_ok_or o s
    · rw [List.foldlM_cons, applied]
      obtain ⟨o'', rest, takes', others'⟩ | ⟨raw, place?, ⟨unreadable, value', member, text⟩, failed⟩ :=
        ih distinct.2 o'
      · -- no further entry has the first key, so its field stays as it is set here
        refine .inl ⟨o'', rest, fun k' value' member => ?_, fun k' absent => ?_⟩
        · rcases List.mem_cons.mp member with same | member
          · obtain ⟨name, rfl⟩ := Saying.item.inj same
            cases OptionKey.name_injective name
            exact (takes_of_set said applied).of_sameAt (others' _ unmentioned)
          · exact takes' k' value' member
        · rw [mentions_cons, not_or] at absent
          exact (others' k' absent.2).trans (sameAt_of_set applied absent.1)
      · exact .inr ⟨raw, place?, ⟨unreadable, value', by simp [member], text⟩, failed⟩
    · rw [List.foldlM_cons, failed]
      exact .inr ⟨raw, place?, ⟨unreadable, value, List.mem_cons_self, said⟩, rfl⟩

/-- What attributes amount to: problems of their entries, or else a type of identifiers that cannot
be resolved, or else options. -/
inductive Outcome (sayings : List Saying) : Except (List Problem) EntityOptions → Prop where
  | reported {ps} (positive : 0 < problemCount [] sayings)
    (count : ps.length = problemCount [] sayings) (entry : ∀ p ∈ ps, p.cause.OfEntry) :
    Outcome sayings (.error ps)
  | unresolved {raw place?} (sound : problemCount [] sayings = 0)
    (type : Unresolved sayings raw) :
    Outcome sayings (.error [⟨.refusal (.unresolvedType raw), place?⟩])
  | accepted {o} (sound : problemCount [] sayings = 0) (describes : o.Describes sayings) :
    Outcome sayings (.ok o)

theorem outcome_ofAttributes {attributes : List MetaItem} {items : List ListEntry}
    (listed : Itemized attributes items) :
    Outcome (items.map ListEntry.saying) (ofAttributes attributes) := by
  have report : Reports (problemCount [] (items.map ListEntry.saying))
      (List.Forall₂ Saying.Sets (items.map ListEntry.saying))
      (settle (settings [] (items.map .ok))) :=
    reports_settings (by simp) items
  simp only [ofAttributes, listed.entries]
  obtain ⟨sound, ss, settled, sets⟩ | ⟨positive, ps, settled, count, entry⟩ := report
  · have distinct := (problemCount_eq_zero_iff.mp sound).1.distinct
    obtain ⟨o, applied, takes, default⟩ | ⟨raw, place?, type, failed⟩ := foldlM_set sets distinct {}
    · rw [settled, show Except.ok ss >>= _ = _ from applied]
      exact .accepted sound ⟨takes, default⟩
    · rw [settled, show Except.ok ss >>= _ = _ from failed]
      exact .unresolved sound type
  · rw [settled]
    exact .reported positive count entry

/-- Options are there only if the entries of all attributes can be read. -/
theorem exists_itemized_of_ok {attributes : List MetaItem} {o : EntityOptions}
    (h : ofAttributes attributes = .ok o) : ∃ items, Itemized attributes items := by
  refine exists_itemized fun m member options ps unread => ?_
  simp only [ofAttributes] at h
  cases settled : settle (settings []
      ((attributes.filter isEntityAttribute).flatMap attributeEntries)) with
  | error problems =>
    rw [settled] at h
    cases h
  | ok ss =>
    refine eq_nil_of_settle_eq_ok settled (error_mem_settings ?_ [])
    exact List.mem_flatMap.mpr ⟨m, List.mem_filter.mpr ⟨member, options⟩, unread⟩

/-- Options are those that the entries of the attributes describe. -/
theorem exists_described_of_ok {attributes : List MetaItem} {o : EntityOptions}
    (h : ofAttributes attributes = .ok o) :
    ∃ items, Itemized attributes items ∧ o.Describes (items.map ListEntry.saying) := by
  obtain ⟨items, listed⟩ := exists_itemized_of_ok h
  have outcome := outcome_ofAttributes listed
  rw [h] at outcome
  obtain _ | _ | ⟨-, describes⟩ := outcome
  exact ⟨items, listed, describes⟩

/-- The namings of options are texts that have been read, or the identity. -/
theorem naming_of_ofAttributes {attributes : List MetaItem} {o : EntityOptions}
    (h : ofAttributes attributes = .ok o) : ∀ n ∈ [o.tableNaming, o.columnNaming],
      n = .identity ∨ ∃ value, Naming.ofText? value = some n := by
  obtain ⟨items, -, describes⟩ := exists_described_of_ok h
  have naming {k : OptionKey} {n : Naming} (takes : ∀ v, o.Takes v k → v.naming? = some n)
      (default : o.SameAt {} k → n = .identity) :
      n = .identity ∨ ∃ value, Naming.ofText? value = some n := by
    by_cases mentioned : Mentions (items.map ListEntry.saying) k
    · obtain ⟨v, member⟩ := mentioned
      obtain ⟨value, -, read⟩ :=
        Option.bind_eq_some_iff.mp (takes v (describes.takes k v member))
      exact .inr ⟨value, read⟩
    · exact .inl (default (describes.default k mentioned))
  exact List.forall_mem_cons.mpr ⟨naming (k := .tableNaming) (fun _ => id) id,
    List.forall_mem_cons.mpr ⟨naming (k := .columnNaming) (fun _ => id) id, nofun⟩⟩

end EntityOptions

end RecordRows
