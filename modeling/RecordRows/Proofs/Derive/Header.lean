import Mathlib.Data.List.Induction
import RecordRows.Proofs.Derive.Bounds
import RecordRows.Proofs.Derive.Reports

/-!
The heads of the generated implementations: the parameters behind `impl`, the arguments behind the
name of the record, and the where clause. Parameters and arguments are the declared ones in one and
the same order, lifetimes first (`Generics.angled_eq`), and the predicates of a clause are the
declared ones with those of the fields behind them (`phrase_extend`). Every list has single commas
(`expand_headed`).
-/
namespace RecordRows

open Source Phrase

/-! ## Lists with commas -/

/-- Items with a comma between neighbours, and perhaps one behind the last. -/
def commaSeparated (items : List Phrase) (trailing : Bool) : Phrase :=
  separated (operator ",") items ++ if trailing then operator "," else []

/-- A list in angles. An empty one is left out, angles included. -/
def inAngles (items : List Phrase) (trailing : Bool) : Phrase :=
  if items = [] then [] else operator "<" ++ commaSeparated items trailing ++ operator ">"

theorem commaSeparated_cons_cons (p q : Phrase) (ps : List Phrase) (trailing : Bool) :
    commaSeparated (p :: q :: ps) trailing =
      p ++ operator "," ++ commaSeparated (q :: ps) trailing := by
  simp only [commaSeparated, separated, List.append_assoc]

/-- The items that pass a test, and then the others. -/
def bringForward {α : Type} (test : α → Bool) (items : List α) : List α :=
  items.filter test ++ items.filter fun a => !test a

theorem bringForward_map {α β : Type} (test : β → Bool) (f : α → β) (items : List α) :
    bringForward test (items.map f) = (bringForward (test ∘ f) items).map f := by
  simp only [bringForward, List.filter_map, List.map_append, Function.comp_def]

theorem bringForward_perm {α : Type} (test : α → Bool) (items : List α) :
    (bringForward test items).Perm items := List.filter_append_perm test items

namespace Source.Listed

/-- Whether a comma stands behind the last item. -/
def trailing (items : List Listed) : Bool := items.getLast?.any (·.comma)

/-- Where commas are missing they are added, so that there is one between any two items. -/
theorem printAfter_false (items : List Listed) :
    printAfter false items = commaSeparated (items.map phrase) (trailing items) := by
  induction items with
  | nil => rfl
  | cons i items ih =>
    cases items with
    | nil => cases comma : i.comma <;>
        simp [printAfter, text, commaSeparated, separated, trailing, comma]
    | cons j items =>
      have last : trailing (i :: j :: items) = trailing (j :: items) := by
        simp [trailing, List.getLast?_cons_cons]
      have more : printAfter (!i.comma) (j :: items) =
          (if i.comma then [] else operator ",") ++ printAfter false (j :: items) := by
        cases comma : i.comma <;> simp [printAfter]
      rw [ih] at more
      rw [printAfter, more, last]
      simp only [List.map_cons, commaSeparated_cons_cons]
      -- the comma is the item's own one or the one that is added for it
      cases comma : i.comma <;> simp [text, comma]

/-- Only the last of the items can be without a comma. -/
def CommasBetween (items : List Listed) : Prop := items.Pairwise fun i _ => i.comma = true

/-- Items that are moved to the front keep their commas. -/
theorem flatMap_text_append {items : List Listed} (h : CommasBetween items) (others : List Listed) :
    items.flatMap text ++ printAfter (items.getLast?.any fun i => !i.comma) others =
      printAfter false (items ++ others) := by
  induction items with
  | nil => rfl
  | cons i items ih =>
    obtain ⟨first, more⟩ := List.pairwise_cons.mp h
    cases items with
    | nil => simp [printAfter]
    | cons j items =>
      have comma : i.comma = true := first j List.mem_cons_self
      have rest := ih more
      rw [List.flatMap_cons, List.append_assoc, List.getLast?_cons_cons, rest]
      simp [printAfter, comma]

theorem lifetimesFirst_eq {items : List Listed} (h : CommasBetween items) :
    lifetimesFirst items = commaSeparated ((bringForward isLifetime items).map phrase)
      (trailing (bringForward isLifetime items)) := by
  rw [lifetimesFirst, flatMap_text_append (h.filter _), printAfter_false, bringForward]

end Source.Listed

/-! ## Parameters -/

namespace Source.Generics

/-- The parameters with lifetimes first, and otherwise in the declared order. -/
def arranged (g : Generics) : List (Parameter × Bool) :=
  bringForward (fun p => p.1.kind = .lifetime) g.parameters

/-- Whether a comma stands behind the last of the arranged parameters. -/
def trailing (g : Generics) : Bool := g.arranged.getLast?.any (·.2)

/-- Only the last of the declared parameters can be without a comma. -/
def CommasBetween (g : Generics) : Prop := g.parameters.Pairwise fun p _ => p.2 = true

/-- Whatever is printed of each parameter, it is printed of all of them, in one order and with the
same commas. -/
theorem angled_eq {g : Generics} (h : g.CommasBetween) (text : Parameter → Phrase) :
    g.angled text = inAngles (g.arranged.map fun p => text p.1) g.trailing := by
  let listed (p : Parameter × Bool) : Listed := ⟨p.1.kind = .lifetime, text p.1, p.2⟩
  have commas : Listed.CommasBetween (g.parameters.map listed) := List.pairwise_map.mpr h
  have items : bringForward Listed.isLifetime (g.parameters.map listed) =
      g.arranged.map listed := bringForward_map _ _ _
  have phrases : (g.arranged.map listed).map Listed.phrase = g.arranged.map fun p => text p.1 := by
    rw [List.map_map]
    rfl
  have last : Listed.trailing (g.arranged.map listed) = g.trailing := by
    rw [Listed.trailing, List.getLast?_map, Option.any_map, trailing]
  have printed := Listed.lifetimesFirst_eq commas
  rw [items, phrases, last] at printed
  have empty : (g.arranged.map fun p => text p.1) = [] ↔ g.parameters.isEmpty = true := by
    have same := bringForward_perm (fun p => decide (p.1.kind = .lifetime)) g.parameters
    rw [List.map_eq_nil_iff, List.isEmpty_iff]
    exact ⟨fun none => List.nil_perm.mp (none ▸ same), fun none => List.perm_nil.mp (none ▸ same)⟩
  simp only [angled, inAngles, empty]
  rw [← printed]

/-- No parameter is lost, and none is doubled. -/
theorem arranged_perm (g : Generics) :
    (g.arranged.map Prod.fst).Perm (g.parameters.map Prod.fst) :=
  (bringForward_perm _ g.parameters).map Prod.fst

end Source.Generics

/-! ## Predicates -/

namespace Source.WhereClause

/-- The predicates without their commas. -/
def bare (w : WhereClause) : List Phrase := w.predicates.map Prod.fst

theorem extend_append (w : WhereClause) (ps : List Phrase) (p : Phrase) :
    w.extend (ps ++ [p]) = ⟨((w.extend ps).bare.map fun q => (q, true)) ++ [(p, false)]⟩ := by
  simp [extend, bare, List.foldl_append, List.map_map, Function.comp_def]

theorem bare_extend (w : WhereClause) (ps : List Phrase) :
    (w.extend ps).bare = w.bare ++ ps := by
  induction ps using List.reverseRecOn with
  | nil => simp [extend]
  | append_singleton ps p ih =>
    rw [extend_append, bare, List.map_append, List.map_map, ih]
    simp [Function.comp_def]

theorem flatMap_commas (qs : List Phrase) (p : Phrase) :
    (((qs.map fun q => (q, true)) ++ [(p, false)]).flatMap fun (q, comma) =>
      q ++ if comma then operator "," else []) = separated (operator ",") (qs ++ [p]) := by
  induction qs with
  | nil => simp [separated]
  | cons q qs ih =>
    rw [List.map_cons, List.cons_append, List.flatMap_cons, ih]
    cases qs <;> simp [separated]

/-- Behind the declared predicates stand the further ones, with single commas between all of them and
none behind the last. -/
theorem phrase_extend (w : WhereClause) {ps : List Phrase} (some : ps ≠ []) :
    (w.extend ps).phrase = .word "where" :: separated (operator ",") (w.bare ++ ps) := by
  obtain ⟨qs, p, rfl⟩ := List.eq_nil_or_concat' ps |>.resolve_left some
  rw [extend_append, phrase, if_neg (by simp), flatMap_commas, bare_extend, List.append_assoc]

end Source.WhereClause

/-! ## Declared parameters -/

namespace Source

open Rule

/-- A repetition whose steps go on only behind a comma lists items with commas between them. -/
theorem Rule.commasBetween_repeatFor {α : Type} {step : Rule (Option (α × Bool))}
    (stops : ∀ {s s' : Progress} {a : α}, step s = .ok (some (a, false), s') →
      step s' = .ok (none, s')) :
    ∀ (fuel : Nat) {s s' : Progress} {items : List (α × Bool)},
      repeatFor step fuel s = .ok (items, s') → items.Pairwise fun i _ => i.2 = true := by
  intro fuel
  induction fuel with
  | zero =>
    intro s s' items h
    cases h
    exact .nil
  | succ fuel ih =>
    intro s s' items h
    obtain ⟨a?, t, first, h⟩ := bind_eq_ok h
    cases a? with
    | none =>
      cases h
      exact .nil
    | some i =>
      obtain ⟨rest, t', more, h⟩ := bind_eq_ok h
      cases h
      obtain ⟨a, comma⟩ := i
      refine List.pairwise_cons.mpr ⟨fun j member => ?_, ih more⟩
      cases comma with
      | true => rfl
      | false =>
        -- without a comma the next step stops, and nothing stands behind the item
        have none : rest = [] := by
          have stop := stops first
          cases fuel with
          | zero =>
            cases more
            rfl
          | succ fuel =>
            obtain ⟨b?, u, next, more⟩ := bind_eq_ok more
            cases stop.symm.trans next
            cases more
            rfl
        rw [none] at member
        cases member

theorem commasBetween_parameters {n : Nested} {s s' : Progress} {ps : List (Parameter × Bool)}
    (h : parameters n s = .ok (ps, s')) : ps.Pairwise fun p _ => p.2 = true := by
  -- an item is left without a comma only in front of the closing angle
  have closing {p q : Parameter} {t t' : Progress} (h : (do
      if ← seesOperator ">" then return some (p, false)
      let _ ← captured (operator ",")
      return some (p, true) : Rule (Option (Parameter × Bool))) t = .ok (some (q, false), t')) :
      Ahead.isOperator ">" t'.tokens = true := by
    obtain ⟨ended, _, look, h⟩ := bind_eq_ok h
    cases look
    split at h
    · next angle =>
      cases h
      exact angle
    · obtain ⟨_, _, -, h⟩ := bind_eq_ok h
      cases h
  obtain ⟨ts, _, look, h⟩ := bind_eq_ok h
  cases look
  refine commasBetween_repeatFor ?_ _ h
  intro s s' p step
  have angle : Ahead.isOperator ">" s'.tokens = true := by
    obtain ⟨closed, _, look, step⟩ := bind_eq_ok step
    cases look
    split at step
    · cases step
    obtain ⟨unnamed, t, -, step⟩ := bind_eq_ok step
    dsimp only at step
    split at step
    · obtain ⟨_, _, -, step⟩ := bind_eq_ok step
      exact closing step
    · obtain ⟨_, _, -, step⟩ := bind_eq_ok step
      exact closing step
  show (if Ahead.isOperator ">" s'.tokens then pure none else _ : Rule _) s' = _
  rw [if_pos angle]
  rfl

theorem commasBetween_genericParameters {n : Nested} {s s' : Progress}
    {ps : List (Parameter × Bool)} (h : genericParameters n s = .ok (ps, s')) :
    ps.Pairwise fun p _ => p.2 = true := by
  obtain ⟨⟨qs, p⟩, t, captured, h⟩ := bind_eq_ok h
  cases h
  obtain ⟨u, h, -, -⟩ := captured_eq_ok captured
  obtain ⟨opened, _, -, h⟩ := bind_eq_ok h
  split at h
  · obtain ⟨qs, _, some, h⟩ := bind_eq_ok h
    obtain ⟨_, _, -, h⟩ := bind_eq_ok h
    cases h
    exact commasBetween_parameters some
  · cases h
    exact .nil

theorem Declaration.commasBetween_of_read {source : String} {d : Declaration}
    (h : Declaration.read source = .ok d) : d.generics.CommasBetween := by
  obtain ⟨ts, s, -, rule⟩ := read_eq_ok h
  obtain ⟨_, _, _, _, _, _, _, _, -, -, -, -, parameters⟩ := declarationOf_eq_ok rule
  exact commasBetween_genericParameters parameters

end Source

/-! ## Heads -/

/-- The trait that a derivation implements for the record. -/
def Derivation.trait : Derivation → Phrase
  | .fromRow => spelled ":: rowbind :: FromRow"
  | .toRow => spelled ":: rowbind :: ToRow"
  | .entity => spelled ":: rowbind :: Entity"

/-- What the head of an implementation is made of: parameters, which are declared with their bounds
and applied by name, and a clause. A comma may stand behind the last parameter in both lists. -/
structure Head where
  parameters : List Parameter
  trailing : Bool
  clause : Phrase

/-- The tokens up to the body. -/
def Head.phrase (h : Head) (trait : Phrase) (record : Name) : Phrase :=
  derivedMark ++ [.word "impl"] ++ inAngles (h.parameters.map Parameter.bounded) h.trailing
    ++ trait ++ [.word "for", record.lexeme] ++ inAngles (h.parameters.map Parameter.name) h.trailing
    ++ h.clause

/-- The predicates that are declared. -/
def Source.Generics.predicates (g : Generics) : List Phrase := (g.where?.getD ⟨[]⟩).bare

/-- A head for a declaration whose fields have these types. -/
structure Head.Fits (h : Head) (d : Declaration) (v : Derivation) (types : List Phrase) : Prop where
  /-- Every declared parameter is there, once. -/
  once : h.parameters.Perm (d.generics.parameters.map Prod.fst)
  /-- Lifetimes come first, and otherwise the declared order is kept. -/
  ordered : h.parameters =
    bringForward (fun p => p.kind = .lifetime) (d.generics.parameters.map Prod.fst)
  /-- The declared clause is kept where no bounds are given to the fields. -/
  verbatim : v.bound? = none ∨ d.generics.hasTypes = false → h.clause = d.generics.whereClause
  /-- Otherwise one predicate for every field stands behind the declared ones. -/
  extended : ∀ bound, v.bound? = some bound → d.generics.hasTypes = true →
    h.clause = .word "where" :: separated (operator ",")
      (d.generics.predicates ++ types.map fun t => t ++ operator ":" ++ bound)

variable {d : Declaration} {s : Shape} {v : Derivation}

theorem Source.Generics.map_arranged (g : Generics) : g.arranged.map Prod.fst =
    bringForward (fun p => p.kind = .lifetime) (g.parameters.map Prod.fst) := by
  rw [bringForward_map]
  rfl

/-- An implementation starts with the head of its declaration. -/
theorem implementation_eq (commas : s.generics.CommasBetween) (path clause body : Phrase) :
    implementation s path clause body =
      Head.phrase ⟨s.generics.arranged.map Prod.fst, s.generics.trailing, clause⟩ path s.name
        ++ grouped .brace body := by
  have bounded := Source.Generics.angled_eq commas Parameter.bounded
  have applied := Source.Generics.angled_eq commas Parameter.name
  rw [implementation, Generics.bounded, Generics.applied, bounded, applied, Head.phrase,
    List.map_map, List.map_map]
  rfl

theorem mapM_boundPredicate_eq_ok {bound : Phrase} {types ps : List Phrase}
    (h : types.mapM (boundPredicate bound) = .ok ps) :
    ps = types.map fun t => t ++ operator ":" ++ bound := by
  induction types generalizing ps with
  | nil =>
    cases h
    rfl
  | cons t types ih =>
    rw [List.mapM_cons] at h
    obtain ⟨p, first, h⟩ := exists_of_bind_eq_ok h
    obtain ⟨qs, more, h⟩ := exists_of_bind_eq_ok h
    cases h
    have reads : BoundReads bound t := by
      by_contra unread
      have failed := boundPredicate_eq_error_iff.mpr ⟨unread, rfl⟩
      cases failed.symm.trans first
    rw [boundPredicate_of_reads reads] at first
    cases first
    rw [ih more, List.map_cons]

/-- The clause of a row implementation. -/
theorem Shape.boundedWhere_eq_ok {bound : Phrase} {w? : Option WhereClause}
    (h : s.boundedWhere bound = .ok w?) :
    (s.generics.hasTypes = false → whereText w? = s.generics.whereClause) ∧
    (s.generics.hasTypes = true → whereText w? = .word "where" :: separated (operator ",")
      (s.generics.predicates ++ s.fields.types.map fun t => t ++ operator ":" ++ bound)) := by
  unfold boundedWhere at h
  split at h
  · next types =>
    obtain ⟨ps, predicates, h⟩ := exists_of_bind_eq_ok h
    cases h
    have all := mapM_boundPredicate_eq_ok predicates
    refine ⟨fun none => absurd (none.symm.trans types) (by decide), fun _ => ?_⟩
    rw [← all]
    refine WhereClause.phrase_extend _ ?_
    rw [all]
    simpa using s.nonempty
  · next none =>
    cases h
    exact ⟨fun _ => rfl, fun types => absurd types none⟩

/-- A row implementation has the head of its declaration, unless it is stuck. -/
theorem Shape.implementing_headed (commas : s.generics.CommasBetween) (path bound body : Phrase) :
    (∃ h : Head, s.implementing path bound body = .ok (h.phrase path s.name ++ grouped .brace body)
      ∧ h.parameters = s.generics.arranged.map Prod.fst
      ∧ (s.generics.hasTypes = false → h.clause = s.generics.whereClause)
      ∧ (s.generics.hasTypes = true → h.clause = .word "where" :: separated (operator ",")
        (s.generics.predicates ++ s.fields.types.map fun t => t ++ operator ":" ++ bound))) ∨
    ∃ t, s.implementing path bound body = .error (.unboundable t) := by
  cases clause : s.boundedWhere bound with
  | ok w? =>
    obtain ⟨verbatim, extended⟩ := boundedWhere_eq_ok clause
    refine .inl ⟨⟨_, s.generics.trailing, whereText w?⟩, ?_, rfl, verbatim, extended⟩
    rw [implementing, clause, ← implementation_eq commas]
    rfl
  | error t => exact .inr ⟨t, implementing_eq_error_iff.mpr clause⟩

/-- Without parameters and a clause the head consists of the trait and the name of the record. -/
theorem Head.Fits.phrase_bare {h : Head} {types : List Phrase} (fits : h.Fits d v types)
    (parameters : d.generics.parameters = []) (clause : d.generics.where? = none) (trait : Phrase) :
    h.phrase trait d.name =
      derivedMark ++ [.word "impl"] ++ trait ++ [.word "for", d.name.lexeme] := by
  have none : h.parameters = [] := by
    rw [fits.ordered, parameters]
    rfl
  have untyped : d.generics.hasTypes = false := by
    rw [Generics.hasTypes, parameters]
    rfl
  have unclaused : h.clause = [] := by
    rw [fits.verbatim (.inr untyped), Generics.whereClause, clause]
    rfl
  simp [Head.phrase, none, unclaused, inAngles]

namespace Source.Declaration

variable {source : String}

/-- The code of a derivation: other items, and an implementation with a head that fits and a
body. -/
def Emits (d : Declaration) (v : Derivation) (types : List Phrase) (before body : Phrase) : Prop :=
  ∃ h : Head, d.expand v = .ok (before ++ h.phrase v.trait d.name ++ grouped .brace body) ∧
    h.Fits d v types

/-- A derivation that gives bounds to these types and is stuck on one of them, which is not read
again in front of its bound. -/
def Stuck (d : Declaration) (v : Derivation) (types : List Phrase) : Prop :=
  ∃ t bound, d.expand v = .error (.unboundable t) ∧ v.bound? = some bound ∧
    d.generics.hasTypes = true ∧ t.type ∈ types ∧ ¬ BoundReads bound t.type

theorem not_stuck_of_untyped {types : List Phrase} (untyped : d.generics.hasTypes = false) :
    ¬ d.Stuck v types := by
  rintro ⟨_, _, -, -, typed, -⟩
  rw [untyped] at typed
  cases typed

/-- An implementation with this body is the code of a row derivation, unless it is stuck. -/
theorem emits_or_stuck {bound body : Phrase} (accepted : d.shapeFor v = .ok s)
    (commas : d.generics.CommasBetween) (bounded : v.bound? = some bound)
    (expanded : d.expand v = s.implementing v.trait bound body) :
    d.Emits v s.fields.types [] body ∨ d.Stuck v s.fields.types := by
  have named := Shape.name_of_shapeFor accepted
  have generics := Shape.generics_of_shapeFor accepted
  rw [← generics] at commas
  rcases Shape.implementing_headed commas v.trait bound body with
    ⟨h, code, parameters, rest⟩ | ⟨t, stuck⟩
  · rw [generics] at parameters rest
    rw [named, ← expanded] at code
    obtain ⟨verbatim, extended⟩ := rest
    refine .inl ⟨h, code, ?_, ?_, fun case => ?_, fun other same types => ?_⟩
    · rw [parameters]
      exact d.generics.arranged_perm
    · rw [parameters, d.generics.map_arranged]
    · rcases case with none | none
      · cases bounded.symm.trans none
      · exact verbatim none
    · cases bounded.symm.trans same
      exact extended types
  · rw [← expanded] at stuck
    obtain ⟨s', bound', before, after, accepted', bounded', types, split, -, unread⟩ :=
      derive_stuck_iff.mp (derive_eq_error_iff.mpr stuck)
    cases accepted.symm.trans accepted'
    cases bounded.symm.trans bounded'
    have member : t.type ∈ s.fields.types := by
      rw [split]
      exact List.mem_append_right _ List.mem_cons_self
    exact .inr ⟨t, bound, stuck, bounded, types, member, unread⟩

theorem emits_fromRow (read : Declaration.read source = .ok d)
    (accepted : d.shapeFor .fromRow = .ok s) :
    d.Emits .fromRow s.fields.types [] s.decoder.phrase ∨ d.Stuck .fromRow s.fields.types :=
  emits_or_stuck accepted (commasBetween_of_read read) rfl (Shape.expand_fromRow accepted)

theorem emits_toRow (read : Declaration.read source = .ok d)
    (accepted : d.shapeFor .toRow = .ok s) :
    d.Emits .toRow s.fields.types [] s.encoder.phrase ∨ d.Stuck .toRow s.fields.types :=
  emits_or_stuck accepted (commasBetween_of_read read) rfl (Shape.expand_toRow accepted)

/-- An entity keeps the declared clause. -/
theorem emits_entity {e : Entity} (read : Declaration.read source = .ok d)
    (entity : d.entity = .ok e) :
    ∃ before, d.Emits .entity e.shape.fields.types before e.accessors := by
  have accepted : d.shapeFor .entity = .ok e.shape := Entity.inspect_of_entity entity
  have expanded : d.expand .entity = .ok e.phrase := congrArg (Except.map Entity.phrase) entity
  have generics := Shape.generics_of_shapeFor accepted
  have commas := commasBetween_of_read read
  obtain ⟨before, items⟩ := e.phrase_eq
  rw [← generics] at commas
  rw [implementation_eq commas, Shape.name_of_shapeFor accepted, generics,
    ← List.append_assoc] at items
  rw [items] at expanded
  refine ⟨before, _, expanded, d.generics.arranged_perm, d.generics.map_arranged, fun _ => rfl,
    fun bound bounded => ?_⟩
  cases bounded

/-- The code of every declared record ends with an implementation whose head fits: with all
parameters, in the same order behind `impl` and behind the name, and with the declared clause, which
the row derivations extend by one predicate for every field where there are type parameters. A row
derivation without code is stuck on a type. An entity without code has problems with its attributes,
or else its identifiers would have the name of the record. -/
theorem expand_headed (read : Declaration.read source = .ok d) (accepted : d.shapeFor v = .ok s) :
    (∃ before body, d.Emits v s.fields.types before body ∧ (v ≠ .entity → before = [])) ∨
    d.Stuck v s.fields.types ∨
    v = .entity ∧ ∃ ps, d.expand v = .error (.problems ps) ∧
      (EntityOptions.ofAttributes d.attributes = .error ps ∨
        ∃ o, EntityOptions.ofAttributes d.attributes = .ok o ∧ o.identifier s = s.name.plain ∧
          ps = [⟨.refusal (.shadows (o.identifier s)), d.name.place?⟩]) := by
  have row {body : Phrase} (emitted : d.Emits v s.fields.types [] body ∨ d.Stuck v s.fields.types) :
      (∃ before body, d.Emits v s.fields.types before body ∧ (v ≠ .entity → before = [])) ∨
        d.Stuck v s.fields.types :=
    emitted.imp_left fun emits => ⟨[], body, emits, fun _ => rfl⟩
  cases v with
  | fromRow => exact (row (emits_fromRow read accepted)).imp_right .inl
  | toRow => exact (row (emits_toRow read accepted)).imp_right .inl
  | entity =>
    have failed {ps : List Problem} (h : d.entity = .error (.problems ps)) :
        d.expand .entity = .error (.problems ps) := congrArg (Except.map Entity.phrase) h
    cases options : EntityOptions.ofAttributes d.attributes with
    | error ps =>
      exact .inr (.inr ⟨rfl, ps, failed (d.entity_of_error accepted options), .inl rfl⟩)
    | ok o =>
      have entity := d.entity_of_ok accepted options
      split at entity
      · next same => exact .inr (.inr ⟨rfl, _, failed entity, .inr ⟨o, rfl, same, rfl⟩⟩)
      · obtain ⟨before, emits⟩ := emits_entity read entity
        exact .inl ⟨before, _, emits, fun other => absurd rfl other⟩

/-- A record whose lifetime is declared behind its type, with defaults and a comma at the end of its
clause. -/
def mixed : String :=
  "struct Page<T: Clone = u8, 'a: 'static, const N: usize = 2> where T: Send, \x7b
    items: Option<T>, size: u8, more: Option<T>, \x7d"

/-- Its parameters as they stand behind `impl`. -/
def mixedParameters : List Phrase :=
  [spelled "'a : 'static", spelled "T : Clone", spelled "const N : usize"]

/-- Its parameters as they stand behind its name. -/
def mixedArguments : List Phrase := [spelled "'a", spelled "T", spelled "N"]

/-- The head of an implementation for it. -/
structure IsMixedHead (h : Head) (clause : String) : Prop where
  bounded : h.parameters.map Parameter.bounded = mixedParameters
  applied : h.parameters.map Parameter.name = mixedArguments
  clause : h.clause = spelled clause

set_option maxRecDepth 1024 in
theorem expand_headed_mixed : ∃ (d : Declaration) (h h' h'' : Head)
    (body body' before body'' : Phrase),
    Declaration.read mixed = .ok d ∧
    d.expand .fromRow = .ok (h.phrase Derivation.fromRow.trait d.name ++ grouped .brace body) ∧
    IsMixedHead h ("where T : Send , Option < T > : :: rowbind :: FromColumn , "
      ++ "u8 : :: rowbind :: FromColumn , Option < T > : :: rowbind :: FromColumn") ∧
    d.expand .toRow = .ok (h'.phrase Derivation.toRow.trait d.name ++ grouped .brace body') ∧
    IsMixedHead h' ("where T : Send , Option < T > : :: rowbind :: ToColumn , "
      ++ "u8 : :: rowbind :: ToColumn , Option < T > : :: rowbind :: ToColumn") ∧
    d.expand .entity =
      .ok (before ++ h''.phrase Derivation.entity.trait d.name ++ grouped .brace body'') ∧
    IsMixedHead h'' "where T : Send ," := by
  have outcome : ((Declaration.read mixed).toOption.bind fun d =>
      (d.shapeFor .entity).toOption.filter fun s =>
        (Derivation.all.all fun v => (d.expand v).isOk) ∧ d.generics.hasTypes ∧
        (bringForward (fun p => p.kind = .lifetime) (d.generics.parameters.map Prod.fst)).map
          Parameter.bounded = mixedParameters ∧
        (bringForward (fun p => p.kind = .lifetime) (d.generics.parameters.map Prod.fst)).map
          Parameter.name = mixedArguments ∧
        d.generics.predicates = [spelled "T : Send"] ∧
        d.generics.whereClause = spelled "where T : Send ," ∧
        s.fields.types = [spelled "Option < T >", spelled "u8", spelled "Option < T >"]).isSome := by
    have text : mixed = String.ofList _ := rfl
    rw [Declaration.read, text, Source.read, scan?_ofList]
    decide +kernel
  obtain ⟨s, outcome⟩ := Option.isSome_iff_exists.mp outcome
  obtain ⟨d, read, outcome⟩ := Option.bind_eq_some_iff.mp outcome
  obtain ⟨accepted, same⟩ := Option.filter_eq_some_iff.mp outcome
  obtain ⟨code, types, bounded, applied, predicates, clause, fields⟩ := of_decide_eq_true same
  have read := eq_ok_of_toOption read
  have accepted := eq_ok_of_toOption accepted
  have row (name : String) : Shape.inspect d name false = .ok s :=
    Shape.inspect_of_inspect accepted name
  have emitted (v : Derivation) (accepted : d.shapeFor v = .ok s) :
      ∃ (h : Head) (before body : Phrase),
      d.expand v = .ok (before ++ h.phrase v.trait d.name ++ grouped .brace body) ∧
        (v ≠ .entity → before = []) ∧ h.Fits d v s.fields.types := by
    have code := List.all_eq_true.mp code v (by cases v <;> decide)
    rcases expand_headed read accepted with
      ⟨before, body, ⟨h, headed, fits⟩, first⟩ | ⟨_, _, failed, -⟩ | ⟨-, _, failed, -⟩
    · exact ⟨h, before, body, headed, first, fits⟩
    all_goals
      rw [failed] at code
      cases code
  have isMixed {v : Derivation} {h : Head} {clause : String} (fits : h.Fits d v s.fields.types)
      (same : h.clause = spelled clause) : IsMixedHead h clause :=
    ⟨by rw [fits.ordered, bounded], by rw [fits.ordered, applied], same⟩
  obtain ⟨h, before, body, expanded, first, fits⟩ := emitted .fromRow (row _)
  obtain ⟨h', before', body', expanded', first', fits'⟩ := emitted .toRow (row _)
  obtain ⟨h'', before'', body'', expanded'', -, fits''⟩ := emitted .entity accepted
  rw [first (by decide), List.nil_append] at expanded
  rw [first' (by decide), List.nil_append] at expanded'
  refine ⟨d, h, h', h'', body, body', before'', body'', read, expanded, isMixed fits ?_, expanded',
    isMixed fits' ?_, expanded'', isMixed fits'' ?_⟩
  · rw [fits.extended _ rfl types, predicates, fields]
    decide +kernel
  · rw [fits'.extended _ rfl types, predicates, fields]
    decide +kernel
  · rw [fits''.verbatim (.inl rfl), clause]

end Source.Declaration

end RecordRows
