import Mathlib.Data.Multiset.Dedup
import RecordRows.Proofs.Derive.Configuration
import RecordRows.Proofs.Derive.Metadata

/-!
Capabilities, from the list that asks for them to the code that provides them. A list is accepted
when all its entries are tags. The derive attribute then lists the least set of traits that has the
asked ones and what they require, each trait once and in a fixed order, and printing is implemented
where it is asked for. The rest of the code does not depend on the list, and an accepted entity has
the capabilities that its attributes ask for (`Capabilities.provided`).
-/
namespace RecordRows

open Source Phrase Generated

/-! ## Traits -/

/-- The traits that a trait requires. -/
def DerivedTrait.required : DerivedTrait → List DerivedTrait
  | .eq => [.partialEq]
  | .partialOrd => [.partialEq]
  | .ord => [.eq, .partialOrd]
  | .copy => [.clone]
  | _ => []

/-- The trait that a capability asks for. Printing is not derived. -/
def Capability.trait? : Capability → Option DerivedTrait
  | .partialEq => some .partialEq
  | .eq => some .eq
  | .partialOrd => some .partialOrd
  | .ord => some .ord
  | .hash => some .hash
  | .debug => some .debug
  | .clone => some .clone
  | .copy => some .copy
  | .default => some .default
  | .display => none

/-- A set of traits that holds all that its members require. -/
def DerivedTrait.Closed (T : DerivedTrait → Prop) : Prop := ∀ t, T t → ∀ u ∈ t.required, T u

/-- The least set of traits that holds the asked ones and all that its members require. -/
structure LeastClosed (asked : Capability → Prop) (T : DerivedTrait → Prop) : Prop where
  holds : ∀ c t, asked c → c.trait? = some t → T t
  closed : DerivedTrait.Closed T
  least : ∀ U : DerivedTrait → Prop, (∀ c t, asked c → c.trait? = some t → U t) →
    DerivedTrait.Closed U → ∀ t, T t → U t

namespace Capability

theorem mem_all (c : Capability) : c ∈ all := by
  cases c <;> decide

theorem trait?_eq_none_iff {c : Capability} : c.trait? = none ↔ c = .display := by
  cases c <;> simp [trait?]

theorem mem_derived_of_trait? {c : Capability} {t : DerivedTrait} (h : c.trait? = some t) :
    t ∈ c.derived := by
  cases c <;> cases h <;> decide

theorem closed_derived (c : Capability) : DerivedTrait.Closed (· ∈ c.derived) := by
  have closed : ∀ c ∈ all, ∀ t ∈ c.derived, ∀ u ∈ t.required, u ∈ c.derived := by decide
  exact closed c c.mem_all

/-- What a capability needs is the trait it asks for, or is required in one step or two. -/
theorem exists_of_mem_derived {c : Capability} {t : DerivedTrait} (h : t ∈ c.derived) :
    ∃ u ∈ c.trait?, t = u ∨ t ∈ u.required ∨ ∃ v ∈ u.required, t ∈ v.required := by
  have steps : ∀ c ∈ all, ∀ t ∈ c.derived,
      ∃ u ∈ c.trait?, t = u ∨ t ∈ u.required ∨ ∃ v ∈ u.required, t ∈ v.required := by
    decide
  exact steps c c.mem_all t h

end Capability

namespace Capabilities

variable {s : Capabilities} {cs cs' : List Capability} {t : DerivedTrait}

theorem contains_ofList {c : Capability} : (ofList cs).contains c = true ↔ c ∈ cs :=
  List.contains_iff_mem

/-- Sets with the same members are equal. -/
theorem ofList_congr (same : ∀ c, c ∈ cs ↔ c ∈ cs') : ofList cs = ofList cs' := by
  have contains : cs.contains = cs'.contains := by
    funext c
    rw [Bool.eq_iff_iff, List.contains_iff_mem, List.contains_iff_mem]
    exact same c
  rw [ofList, ofList, contains]

theorem mem_derived : t ∈ s.derived ↔ ∃ c, s.contains c = true ∧ t ∈ c.derived := by
  have any : t ∈ DerivedTrait.all := by cases t <;> decide
  simp [derived, toList, any, Capability.mem_all]

theorem derived_sublist (s : Capabilities) : s.derived.Sublist DerivedTrait.all :=
  List.filter_sublist

/-- The traits to derive are those that are needed, no more. -/
theorem leastClosed_derived (s : Capabilities) :
    LeastClosed (s.contains · = true) (· ∈ s.derived) where
  holds c t asked trait := mem_derived.mpr ⟨c, asked, Capability.mem_derived_of_trait? trait⟩
  closed t ht u hu := by
    obtain ⟨c, asked, needed⟩ := mem_derived.mp ht
    exact mem_derived.mpr ⟨c, asked, c.closed_derived t needed u hu⟩
  least U holds closed t ht := by
    obtain ⟨c, asked, needed⟩ := mem_derived.mp ht
    obtain ⟨u, trait, steps⟩ := Capability.exists_of_mem_derived needed
    have hu : U u := holds c u asked trait
    -- a total order requires a total equality, and this a partial one: no way is longer
    obtain rfl | one | ⟨v, first, second⟩ := steps
    · exact hu
    · exact closed u hu t one
    · exact closed v (closed u hu v first) t second

/-- Nothing is derived where nothing but printing is asked for. -/
theorem derived_eq_nil_iff : s.derived = [] ↔ ∀ c, s.contains c = true → c = .display := by
  rw [List.eq_nil_iff_forall_not_mem]
  constructor
  · intro none c asked
    rw [← Capability.trait?_eq_none_iff, Option.eq_none_iff_forall_ne_some]
    exact fun t trait => none t (mem_derived.mpr ⟨c, asked, Capability.mem_derived_of_trait? trait⟩)
  · intro printing t ht
    obtain ⟨c, asked, needed⟩ := mem_derived.mp ht
    rw [printing c asked] at needed
    cases needed

end Capabilities

namespace LeastClosed

variable {asked : Capability → Prop} {T : DerivedTrait → Prop}

/-- Neither equality nor order is needed to be total where neither is asked for. -/
theorem total (h : LeastClosed asked T) (total : T .eq ∨ T .ord) : asked .eq ∨ asked .ord := by
  by_contra partials
  rw [not_or] at partials
  have apart : ∀ t, T t → t ∉ [DerivedTrait.eq, .ord] := by
    -- only the total ones require total ones, so the other traits are closed
    refine h.least _ (fun c t asked trait => ?_) fun t ht u hu => ?_
    · cases c <;> cases trait <;>
        first | decide | exact absurd asked partials.1 | exact absurd asked partials.2
    · cases t <;> revert u <;> first | decide | exact absurd ht (by decide)
  obtain eq | ord := total
  · exact apart _ eq (by decide)
  · exact apart _ ord (by decide)

/-- Once each and in order, the needed traits make up one list. -/
theorem eq_of_sublist {ts us : List DerivedTrait} (h : LeastClosed asked (· ∈ ts))
    (h' : LeastClosed asked (· ∈ us)) (ordered : ts.Sublist DerivedTrait.all)
    (ordered' : us.Sublist DerivedTrait.all) : ts = us := by
  have same (t : DerivedTrait) : t ∈ ts ↔ t ∈ us :=
    ⟨h.least _ h'.holds h'.closed t, h'.least _ h.holds h.closed t⟩
  have nodup : DerivedTrait.all.Nodup := by decide
  have chosen {l : List DerivedTrait} (ordered : l.Sublist DerivedTrait.all) :
      l = DerivedTrait.all.filter (· ∈ l) := by
    have sublist := ordered.filter (· ∈ l)
    rw [List.filter_eq_self.mpr (by simp)] at sublist
    refine sublist.eq_of_length (List.Perm.length_eq ?_)
    rw [List.perm_ext_iff_of_nodup (nodup.sublist ordered) (nodup.filter _)]
    simpa using fun t member => ordered.subset member
  rw [chosen ordered, chosen ordered']
  simp only [same]

end LeastClosed

/-! ## Lists of tags -/

/-- An entry that is a single word without anything behind it, the name of a capability. -/
def Source.ListEntry.IsTag (e : ListEntry) (c : Capability) : Prop :=
  ∃ m, e = .item m ∧ m.argument = .none ∧ m.words = [c.name]

theorem isTag_iff {e : ListEntry} {c : Capability} :
    e.IsTag c ↔ capabilityOf? e.words? = some c := by
  constructor
  · rintro ⟨m, rfl, bare, words⟩
    simp only [ListEntry.words?, bare, words, capabilityOf?_name]
  · intro h
    have words := eq_name_of_capabilityOf? h
    cases e with
    | literal place? => cases words
    | item m =>
      cases bare : m.argument <;> simp [ListEntry.words?, bare] at words
      exact ⟨m, rfl, bare, words⟩

theorem strangers_eq_zero_iff {es : List ListEntry} :
    SaidValue.strangers (es.map ListEntry.words?) = 0 ↔ ∀ e ∈ es, ∃ c, e.IsTag c := by
  simp [SaidValue.strangers, isTag_iff, ← Option.isSome_iff_exists, Option.isSome_iff_ne_none]

theorem exists_settle_iff {es : List ListEntry} :
    (∃ cs, settle (es.map capabilityEntry) = .ok cs) ↔ ∀ e ∈ es, ∃ c, e.IsTag c := by
  rw [← strangers_eq_zero_iff]
  obtain ⟨known, cs, settled, -⟩ | ⟨strange, ps, settled, -⟩ := reports_capabilityEntries es
  · simp [known, settled]
  · simp [strange.ne', settled]

theorem mem_of_settle {es : List ListEntry} {cs : List Capability}
    (settled : settle (es.map capabilityEntry) = .ok cs) (c : Capability) :
    c ∈ cs ↔ ∃ e ∈ es, e.IsTag c := by
  obtain ⟨-, as, accepted, named⟩ | ⟨-, ps, refused, -⟩ := reports_capabilityEntries es
  · cases settled.symm.trans accepted
    have tags : es.map (fun e => capabilityOf? e.words?) = cs.map some := by
      rw [← List.forall₂_eq_eq_eq, List.forall₂_map_left_iff, List.forall₂_map_right_iff]
      exact named
    have member : c ∈ cs ↔ some c ∈ es.map fun e => capabilityOf? e.words? := by simp [tags]
    rw [member, List.mem_map]
    simp only [isTag_iff]
  · cases settled.symm.trans refused

/-! ## The derive attribute -/

namespace Generated

/-- The traits of the core library, each with the module it is declared in and its name. -/
def coreTraits : List ((String × String) × DerivedTrait) :=
  [(("fmt", "Debug"), .debug), (("clone", "Clone"), .clone), (("marker", "Copy"), .copy),
    (("default", "Default"), .default), (("cmp", "PartialEq"), .partialEq), (("cmp", "Eq"), .eq),
    (("cmp", "PartialOrd"), .partialOrd), (("cmp", "Ord"), .ord), (("hash", "Hash"), .hash)]

/-- A trait that is named by its absolute path. -/
def readTrait : Reader DerivedTrait := fun p => do
  match ← behind (spelled ":: core ::") p with
  | .word module :: p =>
    match ← behind (spelled "::") p with
    | .word name :: p =>
      let t ← coreTraits.lookup (module, name)
      return (t, p)
    | _ => none
  | _ => none

/-- The traits in a derive attribute. -/
def readDerives : Reader (List DerivedTrait) := fun p => do
  let p ← behind (spelled "#" ++ [Lexeme.opening .bracket, .word "derive"]) p
  let (ts, p) ← readList readTrait .paren p
  let p ← behind [Lexeme.closing .bracket] p
  return (ts, p)

theorem readable_trait (d : Delimiter) (t : DerivedTrait) :
    Readable readTrait d DerivedTrait.phrase t := by
  have paths : ∀ t ∈ DerivedTrait.all, ∃ c ∈ coreTraits, coreTraits.lookup c.1 = some t ∧
      t.phrase = spelled ":: core ::" ++ .word c.1.1 :: (spelled "::" ++ [.word c.1.2]) := by
    decide
  obtain ⟨⟨⟨module, name⟩, _⟩, -, known, path⟩ := paths t (by cases t <;> decide)
  have colon : t.phrase.head? = some (.punct ':' true) := by
    rw [path]
    rfl
  constructor
  · intro rest
    rw [readTrait, path]
    simp only [List.append_assoc, List.cons_append, behind_append, Option.bind_eq_bind,
      Option.bind_some, List.nil_append, known, Option.pure_def]
  · intro empty
    rw [empty] at colon
    cases colon
  · rw [colon]
    simp

theorem readDerives_deriveMark {ts : List DerivedTrait} (nonempty : ts ≠ []) (rest : Phrase) :
    readDerives (Entity.deriveMark ts ++ rest) = some (ts, rest) := by
  have split : Entity.deriveMark ts ++ rest =
      (spelled "#" ++ [Lexeme.opening .bracket, .word "derive"]) ++ (grouped .paren
        (separated (operator ",") (ts.map DerivedTrait.phrase))
          ++ ([Lexeme.closing .bracket] ++ rest)) := by
    rw [Entity.deriveMark, List.isEmpty_eq_false_iff.mpr nonempty]
    simp [mark, grouped]
  have listed := readList_grouped (fun t (_ : t ∈ ts) => readable_trait .paren t)
    ([Lexeme.closing .bracket] ++ rest)
  rw [readDerives, split]
  simp only [behind_append, Option.bind_eq_bind, Option.bind_some, listed, Option.pure_def]

end Generated

/-! ## Generated code -/

namespace Entity

/-- The entity with other capabilities. -/
def requesting (e : Entity) (cs : List Capability) : Entity :=
  { e with options := { e.options with capabilities := .ofList cs } }

/-- The code for an entity around a derive attribute and an implementation of printing. -/
def around (e : Entity) (derives printing : Phrase) : Phrase :=
  mark (spelled "doc =" ++ [textLiteral s!"Identifier of a `{e.shape.name.plain}` row."])
    ++ derives ++ e.shape.visibility ++ [.word "struct", .word e.identifier]
    ++ grouped .paren (.word "pub" :: e.options.idType) ++ spelled ";"
    ++ e.fromContent ++ e.fromColumn ++ e.toColumn ++ printing ++ e.metadata

theorem phrase_eq_around (e : Entity) :
    e.phrase = e.around (deriveMark e.options.capabilities.derived)
      (if e.options.capabilities.contains .display then e.display else []) := by
  rw [phrase, identifierStruct, around]

/-- Capabilities decide about the derive attribute and about printing, and about nothing else. -/
theorem phrase_requesting (e : Entity) (cs : List Capability) :
    (e.requesting cs).phrase = e.around (deriveMark (Capabilities.ofList cs).derived)
      (if (Capabilities.ofList cs).contains .display then e.display else []) :=
  (e.requesting cs).phrase_eq_around

end Entity

/-! ## Attributes -/

/-- What is said without repetitions. -/
def SaidValue.distinct : SaidValue → SaidValue
  | .words ws => .words ws.dedup
  | v => v

def Saying.distinct : Saying → Saying
  | .literal => .literal
  | .item key value => .item key value.distinct

namespace SaidValue

variable (v : SaidValue)

theorem string?_distinct : v.distinct.string? = v.string? := by cases v <;> rfl

theorem naming?_distinct : v.distinct.naming? = v.naming? := by
  rw [naming?, string?_distinct, naming?]

theorem name?_distinct : v.distinct.name? = v.name? := by cases v <;> rfl

theorem strangers_dedup (ws : Multiset (Option (List String))) :
    strangers ws.dedup = 0 ↔ strangers ws = 0 := by
  simp [strangers]

theorem capabilities?_distinct : v.distinct.capabilities? = v.capabilities? := by
  cases v with
  | words ws => simp [distinct, capabilities?, strangers_dedup]
  | _ => rfl

theorem problems_distinct (k : OptionKey) : v.distinct.problems k = 0 ↔ v.problems k = 0 := by
  cases k with
  | idDerive =>
    cases v with
    | words ws => exact strangers_dedup ws
    | _ => rfl
  | _ => simp only [problems, naming?_distinct, string?_distinct, name?_distinct]

end SaidValue

theorem Saying.key?_distinct (s : Saying) : s.distinct.key? = s.key? := by
  cases s <;> rfl

theorem map_key?_distinct (sayings : List Saying) :
    (sayings.map Saying.distinct).map Saying.key? = sayings.map Saying.key? := by
  simp [Saying.key?_distinct]

theorem item_mem_distinct {sayings : List Saying} {key : String} {value : SaidValue} :
    .item key value ∈ sayings.map Saying.distinct ↔
      ∃ v, .item key v ∈ sayings ∧ v.distinct = value := by
  rw [List.mem_map]
  constructor
  · rintro ⟨s, member, same⟩
    cases s with
    | literal => cases same
    | item key' v =>
      cases same
      exact ⟨v, member, rfl⟩
  · rintro ⟨v, member, rfl⟩
    exact ⟨_, member, rfl⟩

theorem sound_distinct {sayings : List Saying} :
    Sound (sayings.map Saying.distinct) ↔ Sound sayings := by
  constructor
  · rintro ⟨known, distinct⟩
    rw [map_key?_distinct] at distinct
    refine ⟨fun s member => ?_, distinct⟩
    obtain ⟨k, value, same, fits⟩ := known s.distinct (List.mem_map_of_mem member)
    cases s with
    | literal => cases same
    | item key v =>
      cases same
      exact ⟨k, v, rfl, (v.problems_distinct k).mp fits⟩
  · rintro ⟨known, distinct⟩
    refine ⟨fun s member => ?_, by rwa [map_key?_distinct]⟩
    obtain ⟨s', said, rfl⟩ := List.mem_map.mp member
    obtain ⟨k, v, rfl, fits⟩ := known s' said
    exact ⟨k, v.distinct, rfl, (v.problems_distinct k).mpr fits⟩

namespace EntityOptions

variable {o : EntityOptions}

theorem takes_distinct {v : SaidValue} {k : OptionKey} : o.Takes v.distinct k ↔ o.Takes v k := by
  cases k <;> simp only [Takes, SaidValue.naming?_distinct, SaidValue.type?,
    SaidValue.string?_distinct, SaidValue.name?_distinct, SaidValue.capabilities?_distinct]

theorem describes_distinct {sayings : List Saying} :
    o.Describes (sayings.map Saying.distinct) ↔ o.Describes sayings := by
  have mentions (k : OptionKey) :
      Mentions (sayings.map Saying.distinct) k ↔ Mentions sayings k := by
    rw [mentions_iff, mentions_iff, map_key?_distinct]
  constructor
  · rintro ⟨takes, default⟩
    refine ⟨fun k value member => ?_, fun k absent => default k (by rwa [mentions])⟩
    exact takes_distinct.mp (takes k _ (item_mem_distinct.mpr ⟨value, member, rfl⟩))
  · rintro ⟨takes, default⟩
    refine ⟨fun k value member => ?_, fun k absent => default k (by rwa [← mentions])⟩
    obtain ⟨v, said, rfl⟩ := item_mem_distinct.mp member
    exact takes_distinct.mpr (takes k v said)

/-- Attributes that say the same but for repeated words are accepted alike, with the same
options. -/
theorem ofAttributes_distinct {attributes attributes' : List MetaItem}
    {items items' : List ListEntry} (listed : Itemized attributes items)
    (listed' : Itemized attributes' items')
    (same : ((items.map ListEntry.saying).map Saying.distinct).Perm
      ((items'.map ListEntry.saying).map Saying.distinct)) (o : EntityOptions) :
    ofAttributes attributes = .ok o ↔ ofAttributes attributes' = .ok o := by
  have accepted_iff {attributes : List MetaItem} {items : List ListEntry}
      (listed : Itemized attributes items) : ofAttributes attributes = .ok o ↔
        Sound ((items.map ListEntry.saying).map Saying.distinct) ∧
          o.Describes ((items.map ListEntry.saying).map Saying.distinct) := by
    rw [ofAttributes_eq_ok_iff listed, sound_distinct, describes_distinct]
  rw [accepted_iff listed, accepted_iff listed']
  exact ⟨fun ⟨sound, describes⟩ => ⟨sound.perm same, describes.perm same⟩,
    fun ⟨sound, describes⟩ => ⟨sound.perm same.symm, describes.perm same.symm⟩⟩

theorem exists_of_expand {d : Declaration} {out : Phrase} (h : d.expand .entity = .ok out) :
    ∃ o, ofAttributes d.attributes = .ok o := by
  cases ho : ofAttributes d.attributes with
  | ok o => exact ⟨o, rfl⟩
  | error ps =>
    cases hs : Shape.inspect d Derivation.entity.name Derivation.entity.namesRequired <;>
      simp [Declaration.expand, Declaration.entity, hs, ho, refuseAt, Except.mapError, bind,
        Except.bind, Except.map] at h

/-- The code for an entity does not depend on the order of the words in its attributes, nor on how
often each of them occurs. -/
theorem expand_distinct {attributes attributes' : List MetaItem} {items items' : List ListEntry}
    (listed : Itemized attributes items) (listed' : Itemized attributes' items')
    (same : ((items.map ListEntry.saying).map Saying.distinct).Perm
      ((items'.map ListEntry.saying).map Saying.distinct)) (d : Declaration) (out : Phrase) :
    { d with attributes }.expand .entity = .ok out ↔
      { d with attributes := attributes' }.expand .entity = .ok out := by
  have alike := ofAttributes_distinct listed listed' same
  constructor
  · intro h
    obtain ⟨o, accepted⟩ := exists_of_expand h
    rwa [← expand_entity_congr d (accepted.trans ((alike o).mp accepted).symm)]
  · intro h
    obtain ⟨o, accepted⟩ := exists_of_expand h
    rwa [expand_entity_congr d (((alike o).mpr accepted).trans accepted.symm)]

end EntityOptions

/-- The capabilities that a list asks for. -/
def Capabilities.Asked (entries : List ListEntry) (c : Capability) : Prop :=
  ∃ e ∈ entries, e.IsTag c

theorem Capabilities.asked_iff {entries : List ListEntry} {c : Capability} :
    Asked entries c ↔ some [c.name] ∈ entries.map ListEntry.words? := by
  have tag_iff (e : ListEntry) : e.IsTag c ↔ e.words? = some [c.name] := by
    rw [isTag_iff]
    exact ⟨eq_name_of_capabilityOf?, fun words => by rw [words, capabilityOf?_name]⟩
  simp only [Asked, tag_iff, List.mem_map]

/-- Options with the capabilities that attributes ask for: those in the list behind `id_derive`, all
of whose entries are tags, and equality, order and debug printing where no list is there. -/
structure EntityOptions.Requests (o : EntityOptions) (items : List ListEntry) : Prop where
  listed : ∀ m, .item m ∈ items → m.key = "id_derive" → ∃ content entries,
    m.argument = .list content ∧ readEntries content = .ok entries ∧
      (∀ e ∈ entries, ∃ c, e.IsTag c) ∧
      ∀ c, o.capabilities.contains c = true ↔ Capabilities.Asked entries c
  default : (∀ m, .item m ∈ items → m.key ≠ "id_derive") →
    ∀ c, o.capabilities.contains c = true ↔ c ∈ [Capability.eq, .ord, .debug]

namespace EntityOptions

variable {o : EntityOptions}

/-- Only a list of tags says which capabilities there are. -/
theorem exists_asked_of_takes {m : MetaItem} (takes : o.Takes m.said .idDerive) :
    ∃ content entries, m.argument = .list content ∧ readEntries content = .ok entries ∧
      (∀ e ∈ entries, ∃ c, e.IsTag c) ∧
      ∀ c, o.capabilities.contains c = true ↔ Capabilities.Asked entries c := by
  have takes : m.said.capabilities? = some o.capabilities := takes
  cases argument : m.argument with
  | none => simp [MetaItem.said, argument, SaidValue.capabilities?] at takes
  | value form place? => simp [MetaItem.said, argument, SaidValue.capabilities?] at takes
  | list content =>
    cases read : readEntries content with
    | error ps => simp [MetaItem.said, argument, read, SaidValue.capabilities?] at takes
    | ok entries =>
      simp only [MetaItem.said, argument, read, SaidValue.capabilities?] at takes
      split at takes
      · next known =>
        have set := Option.some.inj takes
        refine ⟨content, entries, rfl, read, strangers_eq_zero_iff.mp known, fun c => ?_⟩
        rw [← set, Capabilities.asked_iff]
        simp
      · cases takes

/-- Accepted options have the capabilities that their attributes ask for. -/
theorem requests_of_ok {attributes : List MetaItem} {items : List ListEntry}
    (listed : Itemized attributes items) (accepted : ofAttributes attributes = .ok o) :
    o.Requests items := by
  have describes := ((ofAttributes_eq_ok_iff listed).mp accepted).2
  constructor
  · intro m member key
    have said : .item OptionKey.idDerive.name m.said ∈ items.map ListEntry.saying :=
      List.mem_map.mpr ⟨.item m, member, by rw [ListEntry.saying, key]; rfl⟩
    exact exists_asked_of_takes (describes.takes .idDerive m.said said)
  · intro absent
    refine (describes.default .idDerive ?_).atDefault
    rintro ⟨value, said⟩
    obtain ⟨e, member, said⟩ := List.mem_map.mp said
    cases e with
    | literal place? => cases said
    | item m => exact absent m member (Saying.item.inj said).1

end EntityOptions

/-! ## From the list to the code -/

/-- The parts of the code for an entity that provide what is asked for: a derive attribute, absent
where nothing but printing is asked for, and an implementation of printing. -/
structure Entity.Provides (e : Entity) (asked : Capability → Prop) (derives printing : Phrase) :
    Prop where
  absent : derives = [] ↔ ∀ c, asked c → c = .display
  /-- The listed traits are those that are needed, each once and in order. -/
  listed : derives ≠ [] → ∃ ts : List DerivedTrait,
    (∀ rest, readDerives (derives ++ rest) = some (ts, rest)) ∧ LeastClosed asked (· ∈ ts) ∧
      ts.Nodup ∧ ts.Sublist DerivedTrait.all ∧
      (.eq ∈ ts ∨ .ord ∈ ts → asked .eq ∨ asked .ord)
  emitted : printing ≠ [] ↔ asked .display
  printed : printing ≠ [] → printing = e.display ∧ ∃ body, printing = derivedMark ++ [.word "impl"]
    ++ spelled ":: core :: fmt :: Display" ++ [.word "for", .word e.identifier]
    ++ grouped .brace body

namespace Capabilities

theorem provides (e : Entity) {s : Capabilities} {asked : Capability → Prop}
    (same : ∀ c, s.contains c = true ↔ asked c) :
    e.Provides asked (Entity.deriveMark s.derived)
      (if s.contains .display then e.display else []) where
  absent := by
    have nothing_iff : Entity.deriveMark s.derived = [] ↔ s.derived = [] := by
      cases s.derived <;> simp [Entity.deriveMark, mark, grouped]
    rw [nothing_iff, derived_eq_nil_iff]
    simp only [same]
  listed present := by
    have nonempty : s.derived ≠ [] := by
      intro nothing
      rw [nothing] at present
      exact present rfl
    have leastClosed := leastClosed_derived s
    rw [show (s.contains · = true) = asked from funext fun c => propext (same c)] at leastClosed
    have sublist := derived_sublist s
    exact ⟨_, readDerives_deriveMark nonempty, leastClosed, sublist.nodup (by decide), sublist,
      leastClosed.total⟩
  emitted := by
    have nonempty : e.display ≠ [] := by
      simp [Entity.display, Entity.identifierImpl, derivedMark, mark, grouped]
    rw [← same]
    split
    · next asked => exact iff_of_true nonempty asked
    · next unasked => exact iff_of_false (fun h => h rfl) unasked
  printed present := by
    have asked : s.contains .display = true := by_contra fun unasked => present (if_neg unasked)
    rw [if_pos asked]
    exact ⟨rfl, _, rfl⟩

/-- An accepted entity has the capabilities that its attributes ask for, and its code provides
them. -/
theorem provides_of_entity {d : Declaration} {e : Entity} {items : List ListEntry}
    (accepted : d.entity = .ok e) (listed : Itemized d.attributes items) :
    e.options.Requests items ∧ ∃ derives printing : Phrase,
      d.expand .entity = .ok (e.around derives printing) ∧
        e.Provides (e.options.capabilities.contains · = true) derives printing := by
  have expanded : d.expand .entity = .ok e.phrase := congrArg (Except.map Entity.phrase) accepted
  rw [e.phrase_eq_around] at expanded
  exact ⟨EntityOptions.requests_of_ok listed (Entity.eq_ok_of_entity accepted).2, _, _, expanded,
    provides e fun _ => Iff.rfl⟩

/-- A list of capabilities is accepted when all its entries are tags. The set holds the tags that
occur; the code provides these, is the same for every list with the same tags, and beside the derive
attribute and printing it is the same for all lists. In attributes, too, the order and the
repetition of words do not matter. An entity has the capabilities that its attributes ask for, and
its expansion provides them. -/
theorem provided :
    (∀ entries : List ListEntry, (∃ cs, settle (entries.map capabilityEntry) = .ok cs) ↔
      ∀ e ∈ entries, ∃ c, e.IsTag c) ∧
    (∀ (e : Entity) entries cs, settle (entries.map capabilityEntry) = .ok cs →
      (∀ c, (ofList cs).contains c = true ↔ Asked entries c) ∧ ∃ derives printing : Phrase,
        (e.requesting cs).phrase = e.around derives printing ∧
          e.Provides (Asked entries) derives printing) ∧
    (∀ entries entries' cs cs', settle (entries.map capabilityEntry) = .ok cs →
      settle (entries'.map capabilityEntry) = .ok cs' →
      (∀ c, Asked entries c ↔ Asked entries' c) →
      ofList cs = ofList cs' ∧ ∀ e : Entity, (e.requesting cs).phrase = (e.requesting cs').phrase) ∧
    (∀ attributes attributes' items items', Itemized attributes items →
      Itemized attributes' items' →
      ((items.map ListEntry.saying).map Saying.distinct).Perm
        ((items'.map ListEntry.saying).map Saying.distinct) →
      ∀ (d : Declaration) (out : Phrase), { d with attributes }.expand .entity = .ok out ↔
        { d with attributes := attributes' }.expand .entity = .ok out) ∧
    ∀ (d : Declaration) e items, d.entity = .ok e → Itemized d.attributes items →
      e.options.Requests items ∧ ∃ derives printing : Phrase,
        d.expand .entity = .ok (e.around derives printing) ∧
          e.Provides (e.options.capabilities.contains · = true) derives printing := by
  refine ⟨fun entries => exists_settle_iff, fun e entries cs settled => ?_,
    fun entries entries' cs cs' h h' same => ?_,
    fun _ _ _ _ listed listed' same => EntityOptions.expand_distinct listed listed' same,
    fun d e items accepted listed => provides_of_entity accepted listed⟩
  · have asked (c : Capability) : (ofList cs).contains c = true ↔ Asked entries c :=
      contains_ofList.trans (mem_of_settle settled c)
    exact ⟨asked, _, _, e.phrase_requesting cs, provides e asked⟩
  · have set : ofList cs = ofList cs' := by
      refine ofList_congr fun c => ?_
      rw [mem_of_settle h, mem_of_settle h']
      exact same c
    refine ⟨set, fun e => ?_⟩
    rw [Entity.requesting, Entity.requesting, set]

/-- Entries for some tags. -/
def tags (cs : List Capability) : List ListEntry :=
  cs.map fun c => .item ⟨false, [c.name], .none, none⟩

theorem isTag_of_mem_tags {cs : List Capability} {e : ListEntry} (h : e ∈ tags cs) :
    ∃ c ∈ cs, e.IsTag c := by
  obtain ⟨c, member, rfl⟩ := List.mem_map.mp h
  exact ⟨c, member, _, rfl, rfl, rfl⟩

theorem asked_tags {cs : List Capability} {c : Capability} : Asked (tags cs) c ↔ c ∈ cs := by
  constructor
  · rintro ⟨e, member, tag⟩
    obtain ⟨c', member', tag'⟩ := isTag_of_mem_tags member
    rw [isTag_iff] at tag tag'
    cases tag.symm.trans tag'
    exact member'
  · intro member
    exact ⟨_, List.mem_map_of_mem member, _, rfl, rfl, rfl⟩

/-- An entity that asks for a total order twice, and for printing. -/
def repeatedText : String :=
  "#[entity(id_derive(Ord, Display, Ord))] struct Unit \x7b size: u8 \x7d"

theorem provided_repeated :
    (∃ cs cs', settle ((tags [.ord, .display, .ord]).map capabilityEntry) = .ok cs ∧
      settle ((tags [.display, .ord]).map capabilityEntry) = .ok cs' ∧
      ∀ e : Entity, (e.requesting cs).phrase = (e.requesting cs').phrase) ∧
    ∃ (d : Declaration) (e : Entity) (items : List ListEntry) (m : MetaItem) (content : List Token)
      (entries : List ListEntry) (derives body : Phrase),
      Declaration.read repeatedText = .ok d ∧ d.entity = .ok e ∧ Itemized d.attributes items ∧
      .item m ∈ items ∧ m.key = "id_derive" ∧ m.argument = .list content ∧
      readEntries content = .ok entries ∧ (∀ c, Asked entries c ↔ c ∈ [.ord, .display]) ∧
      d.expand .entity = .ok (mark (spelled "doc =" ++ [textLiteral "Identifier of a `Unit` row."])
        ++ derives ++ [.word "struct", .word "UnitId"]
        ++ grouped .paren (spelled "pub :: rowbind :: BigInt") ++ spelled ";"
        ++ e.fromContent ++ e.fromColumn ++ e.toColumn
        ++ (derivedMark ++ [.word "impl"] ++ spelled ":: core :: fmt :: Display"
          ++ [.word "for", .word "UnitId"] ++ grouped .brace body) ++ e.metadata) ∧
      readDerives derives = some ([.partialEq, .eq, .partialOrd, .ord], []) := by
  obtain ⟨accepted, -, same, -, entities⟩ := provided
  constructor
  · have every (cs : List Capability) : ∀ e ∈ tags cs, ∃ c, e.IsTag c := fun e member =>
      (isTag_of_mem_tags member).imp fun _ h => h.2
    obtain ⟨cs, h⟩ := (accepted _).mpr (every [.ord, .display, .ord])
    obtain ⟨cs', h'⟩ := (accepted _).mpr (every [.display, .ord])
    refine ⟨cs, cs', h, h', (same _ _ cs cs' h h' fun c => ?_).2⟩
    rw [asked_tags, asked_tags]
    cases c <;> decide
  · have outcome : ((Declaration.read repeatedText).toOption.bind fun d =>
        d.entity.toOption.filter fun e => e.identifier = "UnitId" ∧ e.shape.name.plain = "Unit" ∧
          e.shape.visibility = [] ∧ e.options.idType = spelled ":: rowbind :: BigInt" ∧
          e.options.capabilities.toList = [.ord, .display]).isSome := by
      have text : repeatedText = String.ofList _ := rfl
      rw [Declaration.read, text, Source.read, scan?_ofList]
      decide +kernel
    obtain ⟨e, outcome⟩ := Option.isSome_iff_exists.mp outcome
    obtain ⟨d, read, outcome⟩ := Option.bind_eq_some_iff.mp outcome
    obtain ⟨entity, same⟩ := Option.filter_eq_some_iff.mp outcome
    obtain ⟨identifier, name, visibility, type, capabilities⟩ := of_decide_eq_true same
    have entity := eq_ok_of_toOption entity
    have contains (c : Capability) :
        e.options.capabilities.contains c = true ↔ c ∈ [.ord, .display] := by
      rw [← capabilities, toList, List.mem_filter]
      simp [c.mem_all]
    obtain ⟨items, listed⟩ :=
      EntityOptions.exists_itemized_of_ok (Entity.eq_ok_of_entity entity).2
    obtain ⟨⟨asked, default⟩, derives, printing, expanded, provides⟩ :=
      entities d e items entity listed
    have requested : ∃ m, .item m ∈ items ∧ m.key = "id_derive" := by
      by_contra absent
      push Not at absent
      exact absurd ((default absent .debug).mpr (by decide)) (by rw [contains]; decide)
    obtain ⟨m, member, key⟩ := requested
    obtain ⟨content, entries, argument, readable, -, holds⟩ := asked m member key
    obtain ⟨-, body, printed⟩ :=
      provides.printed (provides.emitted.mpr ((contains .display).mpr (by decide)))
    have present : derives ≠ [] := fun nothing => absurd
      (provides.absent.mp nothing .ord ((contains .ord).mpr (by decide))) (by decide)
    obtain ⟨ts, reads, least, -, ordered, -⟩ := provides.listed present
    have derived : e.options.capabilities.derived = [.partialEq, .eq, .partialOrd, .ord] := by
      rw [Capabilities.derived, capabilities]
      decide
    have ts_eq := least.eq_of_sublist (leastClosed_derived _) ordered (derived_sublist _)
    refine ⟨d, e, items, m, content, entries, derives, body, eq_ok_of_toOption read, entity, listed,
      member, key, argument, readable, fun c => (holds c).symm.trans (contains c), ?_, ?_⟩
    · have doc : toString "Identifier of a `" ++ toString "Unit" ++ toString "` row."
          = "Identifier of a `Unit` row." := by decide
      have content : .word "pub" :: spelled ":: rowbind :: BigInt"
          = spelled "pub :: rowbind :: BigInt" := by decide
      rw [expanded, Entity.around, printed, identifier, name, visibility, type, doc, content,
        List.append_nil]
    · have reads := reads []
      rwa [List.append_nil, ts_eq, derived] at reads

end Capabilities

end RecordRows
