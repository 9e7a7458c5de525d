import Mathlib.Tactic.FinCases
import RecordRows.Proofs.Source.Reading

/-!
The phrases of ordinary types, by their syntax: paths with arguments, references, pointers, tuples,
slices, arrays, functions and sums of bounds, nested to any depth. The first lexemes of a phrase
tell which rule reads it; what may stand behind it is no part of it.
-/
namespace RecordRows.Source

open Rule Phrase

/-! ## Ordinary types -/

/-- A lifetime. -/
def Phrase.ofLifetime (name : String) : Phrase := [.punct '\'' true, .word name]

/-- The lifetimes that a type or a bound introduces. -/
def Phrase.introducing (names : List String) (last? : Option String) : Phrase :=
  .word "for" :: Phrase.operator "<"
    ++ (listed (names.map ofLifetime) (last?.map ofLifetime) ++ Phrase.operator ">")

/-- The result of a function, if it has one. -/
def Phrase.returning (result? : Option Phrase) : Phrase :=
  (result?.map (Phrase.operator "->" ++ ·)).getD []

/-- Words that have a meaning of their own in a path. -/
def relativeWords : List String := ["self", "super", "crate", "Self"]

inductive Part where
  | word | path | argument | bound (form : BoundForm) | plain | type
deriving DecidableEq

/-- An expression that is read at the end of a group, given enough levels of nesting. -/
def IsLength (e : Phrase) : Prop :=
  ∀ d q, e.length < d → Reads ((nestedWithin d).expression true) e (.closing .bracket :: q)

/-- The phrases of types and of their parts. A plain type takes no plus sign. -/
inductive Ordinary : Part → Phrase → Prop
  | name {w : String} (free : Ahead.isKeyword w = false) : Ordinary .word [.word w]
  | relative {w : String} (h : w ∈ relativeWords) : Ordinary .word [.word w]
  | applied {w : String} {items : List Phrase} {last? : Option Phrase}
      (free : Ahead.isKeyword w = false) (h : ∀ i ∈ items ++ last?.toList, Ordinary .argument i) :
      Ordinary .word
        (.word w :: (Phrase.operator "<" ++ (listed items last? ++ Phrase.operator ">")))
  | path (rooted : Bool) {first : Phrase} {rest : List Phrase}
      (h : ∀ v ∈ first :: rest, Ordinary .word v) :
      Ordinary .path
        ((if rooted then Phrase.operator "::" else []) ++ (first ++ signed "::" id rest))
  | lifetime (name : String) : Ordinary .argument (ofLifetime name)
  | literal (text : String) : Ordinary .argument [.literal text]
  | argument {p : Phrase} (h : Ordinary .type p) : Ordinary .argument p
  | binding {w : String} {p : Phrase} (free : Ahead.isKeyword w = false) (h : Ordinary .type p) :
      Ordinary .argument (.word w :: (Phrase.operator "=" ++ p))
  | outlives (name : String) : Ordinary (.bound .lifetime) (ofLifetime name)
  | trait {p : Phrase} (h : Ordinary .path p) : Ordinary (.bound .trait) p
  | relaxed {p : Phrase} (h : Ordinary .path p) :
      Ordinary (.bound .trait) (Phrase.operator "?" ++ p)
  | general {names : List String} {last? : Option String} {p : Phrase} (h : Ordinary .path p) :
      Ordinary (.bound .trait) (introducing names last? ++ p)
  | callable {w : String} {items : List Phrase} {last? result? : Option Phrase}
      (free : Ahead.isKeyword w = false) (h : ∀ i ∈ items ++ last?.toList, Ordinary .type i)
      (hr : ∀ r ∈ result?, Ordinary .plain r) :
      Ordinary (.bound .trait) (.word w :: (grouped .paren (listed items last?)
        ++ returning result?))
  | named {p : Phrase} (h : Ordinary .path p) : Ordinary .plain p
  | projected {self trait first : Phrase} {rest : List Phrase} (hs : Ordinary .type self)
      (ht : Ordinary .path trait) (h : ∀ v ∈ first :: rest, Ordinary .word v) :
      Ordinary .plain (Phrase.operator "<" ++ (self ++ (.word "as" :: (trait
        ++ (Phrase.operator ">" ++ (Phrase.operator "::" ++ (first ++ signed "::" id rest)))))))
  | reference (lifetime? : Option String) (mutable : Bool) {p : Phrase} (h : Ordinary .plain p) :
      Ordinary .plain (Phrase.operator "&" ++ ((lifetime?.map ofLifetime).getD []
        ++ ((if mutable then [.word "mut"] else []) ++ p)))
  | pointer (mutable : Bool) {p : Phrase} (h : Ordinary .plain p) :
      Ordinary .plain (Phrase.operator "*" ++ .word (if mutable then "mut" else "const") :: p)
  | unit : Ordinary .plain (grouped .paren [])
  | parenthesised {p : Phrase} (h : Ordinary .type p) (bare : p.head? ≠ some (.punct '\'' true)) :
      Ordinary .plain (grouped .paren p)
  | tuple {first : Phrase} {items : List Phrase} {last? : Option Phrase}
      (hf : Ordinary .type first) (bare : first.head? ≠ some (.punct '\'' true))
      (h : ∀ i ∈ items ++ last?.toList, Ordinary .type i) :
      Ordinary .plain (grouped .paren (first ++ (Phrase.operator "," ++ listed items last?)))
  | slice {p : Phrase} (h : Ordinary .type p) : Ordinary .plain (grouped .bracket p)
  | array {p e : Phrase} (h : Ordinary .type p) (he : IsLength e) :
      Ordinary .plain (grouped .bracket (p ++ (Phrase.operator ";" ++ e)))
  | never : Ordinary .plain (Phrase.operator "!")
  | inferred : Ordinary .plain [.word "_"]
  | function {items : List Phrase} {last? result? : Option Phrase}
      (h : ∀ i ∈ items ++ last?.toList, Ordinary .type i) (hr : ∀ r ∈ result?, Ordinary .plain r) :
      Ordinary .plain (.word "fn" :: (grouped .paren (listed items last?) ++ returning result?))
  | dyn {p : Phrase} (h : Ordinary (.bound .trait) p) : Ordinary .plain (.word "dyn" :: p)
  | impl {p : Phrase} (h : Ordinary (.bound .trait) p) : Ordinary .plain (.word "impl" :: p)
  | type {p : Phrase} (h : Ordinary .plain p) : Ordinary .type p
  | sum {p : Phrase} {first : BoundForm × Phrase} {rest : List (BoundForm × Phrase)}
      (h : Ordinary .path p) (hs : ∀ i ∈ first :: rest, Ordinary (.bound i.1) i.2) :
      Ordinary .type (p ++ signed "+" Prod.snd (first :: rest))
  | generalSum {names : List String} {last? : Option String} {first : Phrase} {rest : List Phrase}
      {bounds : List (BoundForm × Phrase)} (h : ∀ v ∈ first :: rest, Ordinary .word v)
      (hs : ∀ i ∈ bounds, Ordinary (.bound i.1) i.2) :
      Ordinary .type (introducing names last? ++ ((first ++ signed "::" id rest)
        ++ signed "+" Prod.snd bounds))
  | generalFunction {names : List String} {last? : Option String} {items : List Phrase}
      {final? result? : Option Phrase} (h : ∀ i ∈ items ++ final?.toList, Ordinary .type i)
      (hr : ∀ r ∈ result?, Ordinary .plain r) :
      Ordinary .type (introducing names last?
        ++ (.word "fn" :: (grouped .paren (listed items final?) ++ returning result?)))
  | outliving {name : String} {first : BoundForm × Phrase} {rest : List (BoundForm × Phrase)}
      (h : ∀ i ∈ first :: rest, Ordinary (.bound i.1) i.2)
      (trait : ∃ i ∈ first :: rest, i.1 = .trait) :
      Ordinary .type (ofLifetime name ++ signed "+" Prod.snd (first :: rest))
  | dynSum {first : BoundForm × Phrase} {rest : List (BoundForm × Phrase)}
      (h : ∀ i ∈ first :: rest, Ordinary (.bound i.1) i.2)
      (trait : ∃ i ∈ first :: rest, i.1 = .trait) :
      Ordinary .type (.word "dyn" :: (first.2 ++ signed "+" Prod.snd rest))
  | implSum {first : BoundForm × Phrase} {rest : List (BoundForm × Phrase)}
      (h : ∀ i ∈ first :: rest, Ordinary (.bound i.1) i.2)
      (trait : ∃ i ∈ first :: rest, i.1 = .trait) :
      Ordinary .type (.word "impl" :: (first.2 ++ signed "+" Prod.snd rest))

/-! ## How parts start -/

/-- The signs and keywords that a part of a type may start with. -/
def Part.signs : Part → List Lexeme
  | .word => []
  | .path => [.punct ':' true]
  | .bound _ => [.punct ':' true, .punct '\'' true, .punct '?' false, .word "for"]
  | .plain => plainSigns
  | .type | .argument => .punct '\'' true :: .word "for" :: plainSigns
where
  plainSigns : List Lexeme :=
    [.punct ':' true, .punct '&' false, .punct '*' false, .punct '!' false, .punct '<' false,
      .opening .paren, .opening .bracket, .word "_", .word "fn", .word "dyn", .word "impl"]

/-- What a part of a type starts with: the word of a path, one of its signs, or a literal. -/
inductive Part.Starts (part : Part) : Lexeme → Prop
  | word {w : String} (h : Ahead.isKeyword w = false ∨ w ∈ relativeWords) : Starts part (.word w)
  | sign {l : Lexeme} (h : l ∈ part.signs) : Starts part l
  | literal {text : String} (h : part = .argument) : Starts part (.literal text)

theorem Part.Starts.mono {part part' : Part} {l : Lexeme} (h : part.Starts l)
    (signs : ∀ l ∈ part.signs, l ∈ part'.signs) (other : part ≠ .argument) : part'.Starts l := by
  cases h with
  | word h => exact .word h
  | sign h => exact .sign (signs l h)
  | literal h => exact absurd h other

theorem Ordinary.exists_start {part : Part} {p : Phrase} (h : Ordinary part p) :
    ∃ l t, p = l :: t ∧ part.Starts l := by
  induction h with
  | name free | applied free | binding free | callable free => exact ⟨_, _, rfl, .word (.inl free)⟩
  | relative h => exact ⟨_, _, rfl, .word (.inr h)⟩
  | path rooted h ih =>
    cases rooted with
    | true => exact ⟨_, _, rfl, .sign (by decide)⟩
    | false =>
      obtain ⟨l, t, rfl, starts⟩ := ih _ List.mem_cons_self
      exact ⟨l, _, rfl, starts.mono (by decide) (by decide)⟩
  | lifetime | outlives | general | relaxed | projected | reference | pointer | unit |
      parenthesised | tuple | slice | array | never | inferred | function | dyn | impl |
      generalSum | generalFunction | outliving | dynSum | implSum =>
    exact ⟨_, _, rfl, .sign (by decide)⟩
  | literal text => exact ⟨_, _, rfl, .literal rfl⟩
  | argument h ih | trait h ih | named h ih | type h ih =>
    obtain ⟨l, t, rfl, starts⟩ := ih
    exact ⟨l, t, rfl, starts.mono (by decide) (by decide)⟩
  | sum h hs ih =>
    obtain ⟨l, t, rfl, starts⟩ := ih
    exact ⟨l, _, rfl, starts.mono (by decide) (by decide)⟩

/-- What the start of a part rules out. -/
structure Commences (ts : List Token) : Prop where
  notEnd : Ahead.isEnd ts = false
  notAngle : Ahead.isOperator ">" ts = false
  notHash : Ahead.isOperator "#" ts = false
  notMut : Ahead.isWord "mut" ts = false

theorem Ordinary.commences {part : Part} {p : Phrase} (h : Ordinary part p) (q : Phrase) :
    Commences (p ++ q).unplaced := by
  obtain ⟨l, t, rfl, starts⟩ := h.exists_start
  cases starts with
  | @word w named =>
    have ne : w ≠ "mut" := fun same => by
      rw [same] at named
      exact absurd named (by decide)
    exact ⟨rfl, rfl, rfl, by simpa [Phrase.unplaced, Ahead.isWord, Ahead.word?] using ne⟩
  | sign h => cases part <;> fin_cases h <;> exact ⟨rfl, rfl, rfl, rfl⟩
  | literal => exact ⟨rfl, rfl, rfl, rfl⟩

theorem isLifetime_punct {c : Char} {joint : Bool} {s : Span} {ts : List Token}
    (h : (c == '\'' && joint) = false) : Ahead.isLifetime (⟨.punct c joint, s⟩ :: ts) = false := by
  unfold Ahead.isLifetime
  split
  · next same => cases same; exact h
  · rfl

/-- A type that starts with no lifetime starts with no bound that has a sign. -/
theorem Ordinary.type_start {p : Phrase} (h : Ordinary .type p)
    (bare : p.head? ≠ some (.punct '\'' true)) (q : Phrase) :
    Ahead.isLifetime (p ++ q).unplaced = false ∧
      Ahead.isOperator "?" (p ++ q).unplaced = false := by
  obtain ⟨l, t, rfl, starts⟩ := h.exists_start
  cases starts with
  | word => exact ⟨rfl, rfl⟩
  | sign member =>
    fin_cases member <;>
      first | exact ⟨rfl, rfl⟩ | exact ⟨isLifetime_punct rfl, rfl⟩ | exact absurd rfl bare
  | literal other => cases other

theorem Ordinary.plain_bare {p : Phrase} (h : Ordinary .plain p) :
    p.head? ≠ some (.punct '\'' true) := by
  obtain ⟨l, t, rfl, starts⟩ := h.exists_start
  cases starts with
  | word => exact nofun
  | sign member => fin_cases member <;> simp
  | literal other => cases other

/-! ## What stands behind types -/

/-- What may stand behind a type. -/
def endings : List Lexeme :=
  [.closing .paren, .closing .bracket, .closing .brace, .punct ',' false, .punct ';' false,
    .punct '>' false, .punct ':' false, .punct '=' false, .punct '+' false, .word "as"]

def EndsType (q : Phrase) : Prop := ∀ l ∈ q.head?, l ∈ endings

/-- What the end of a type rules out. -/
structure Concludes (ts : List Token) : Prop where
  notAngle : Ahead.isOperator "<" ts = false
  notRoot : Ahead.isOperator "::" ts = false
  notBang : Ahead.isOperator "!" ts = false
  notArrow : Ahead.isOperator "->" ts = false
  notParen : Ahead.isGroup .paren ts = false

theorem EndsType.concludes {q : Phrase} (h : EndsType q) : Concludes q.unplaced := by
  cases q with
  | nil => exact ⟨rfl, rfl, rfl, rfl, rfl⟩
  | cons l q =>
    have member := h l rfl
    fin_cases member <;> exact ⟨rfl, rfl, rfl, rfl, rfl⟩

theorem EndsType.cons {l : Lexeme} {q : Phrase} (h : l ∈ endings) : EndsType (l :: q) := by
  rintro _ ⟨⟩
  exact h

theorem endsType_plus (r : Phrase) : EndsType (Phrase.operator "+" ++ r) := .cons (by decide)

theorem EndsType.orPlus {ι : Type} {text : ι → Phrase} {items : List ι} {q r : Phrase}
    (ends : EndsType q) (h : AfterSigned "+" text items q r) : EndsType r := by
  obtain rfl | ⟨i, -, t, rfl⟩ := h
  · exact ends
  · exact endsType_plus _

/-! ## Words and paths -/

variable {n : Nested} {p q : Phrase} {w : String} {s : Span} {ts : List Token}

theorem ne_keyword {k : String} (free : Ahead.isKeyword w = false) (h : k ∈ Ahead.keywords) :
    w ≠ k := by
  simp only [Ahead.isKeyword, List.contains_eq_mem, decide_eq_false_iff_not] at free
  exact fun same => free (same ▸ h)

theorem isWord_keyword {k : String} (free : Ahead.isKeyword w = false) (h : k ∈ Ahead.keywords) :
    Ahead.isWord k (⟨.word w, s⟩ :: ts) = false := by
  simpa [Ahead.isWord, Ahead.word?] using ne_keyword free h

theorem any_isWord_keyword {ks : List String} (free : Ahead.isKeyword w = false)
    (h : ∀ k ∈ ks, k ∈ Ahead.keywords) :
    ks.any (Ahead.isWord · (⟨.word w, s⟩ :: ts)) = false :=
  List.any_eq_false.mpr fun k member => by simp [isWord_keyword free (h k member)]

theorem isIdentifier_of_free (free : Ahead.isKeyword w = false) :
    Ahead.isIdentifier (⟨.word w, s⟩ :: ts) = true := by
  simp [Ahead.isIdentifier, Ahead.word?, free]

/-- A name starts no literal. -/
theorem literalAhead?_word (free : Ahead.isKeyword w = false) :
    literalAhead? (⟨.word w, s⟩ :: ts) = none := by
  simp [literalAhead?, ne_keyword free (show "true" ∈ Ahead.keywords by decide),
    ne_keyword free (show "false" ∈ Ahead.keywords by decide)]

/-- No arguments of a path start here. -/
def EndsWord (q : Phrase) : Prop :=
  Ahead.isOperator "<" q.unplaced = false ∧
    (Ahead.isOperator "::" q.unplaced && Ahead.isOperator "<" (q.unplaced.drop 2)) = false

theorem EndsType.endsWord (h : EndsType q) : EndsWord q :=
  ⟨h.concludes.notAngle, by simp [h.concludes.notRoot]⟩

/-- What the start of a path rules out. -/
structure StartsPath (ts : List Token) : Prop where
  path : startsPathType ts = true
  bound (place : BoundPlace) : startsBound place ts = true
  notParen : Ahead.isGroup .paren ts = false
  notBracket : Ahead.isGroup .bracket ts = false
  notAngle : Ahead.isOperator "<" ts = false
  notMark : Ahead.isOperator "?" ts = false
  notStar : Ahead.isOperator "*" ts = false
  notLifetime : Ahead.isLifetime ts = false
  notWord : ∀ k ∈ ["for", "const", "use", "dyn", "fn", "unsafe", "extern"],
    Ahead.isWord k ts = false

theorem StartsPath.notFunction (h : StartsPath ts) : startsFunctionType ts = false :=
  List.any_eq_false.mpr fun k member => by
    rw [h.notWord k (by fin_cases member <;> decide)]
    exact Bool.false_ne_true

theorem isModuleWord_of_named (h : Ahead.isKeyword w = false ∨ w ∈ relativeWords) :
    isModuleWord (⟨.word w, s⟩ :: ts) = true := by
  rcases h with free | relative
  · rw [isModuleWord, isIdentifier_of_free free, Bool.true_or]
  · fin_cases relative <;> rfl

theorem startsPath_word (h : Ahead.isKeyword w = false ∨ w ∈ relativeWords) :
    StartsPath (⟨.word w, s⟩ :: ts) where
  path := by rw [startsPathType, isModuleWord_of_named h, Bool.true_or, Bool.true_or]
  bound _ := rfl
  notParen := rfl
  notBracket := rfl
  notAngle := rfl
  notMark := rfl
  notStar := rfl
  notLifetime := rfl
  notWord k member := by
    have ne : w ≠ k := fun same => by
      rw [same] at h
      fin_cases member <;> exact absurd h (by decide)
    simpa [Ahead.isWord, Ahead.word?] using ne

theorem startsPath_rooted {s' : Span} :
    StartsPath (⟨.punct ':' true, s⟩ :: ⟨.punct ':' false, s'⟩ :: ts) where
  path := rfl
  bound _ := rfl
  notParen := rfl
  notBracket := rfl
  notAngle := rfl
  notMark := rfl
  notStar := rfl
  notLifetime := rfl
  notWord k member := by fin_cases member <;> rfl

namespace Ordinary

theorem word_start {p : Phrase} (h : Ordinary .word p) :
    ∃ w t, p = .word w :: t ∧ (Ahead.isKeyword w = false ∨ w ∈ relativeWords) := by
  cases h with
  | name free => exact ⟨_, _, rfl, .inl free⟩
  | relative h => exact ⟨_, _, rfl, .inr h⟩
  | applied free => exact ⟨_, _, rfl, .inl free⟩

theorem startsPath (h : Ordinary .path p) (q : Phrase) : StartsPath (p ++ q).unplaced := by
  cases h with
  | path rooted h =>
    cases rooted with
    | true => exact startsPath_rooted
    | false =>
      obtain ⟨w, t, rfl, named⟩ := (h _ List.mem_cons_self).word_start
      exact startsPath_word named

/-- The start of a bound. -/
theorem bound_start {form : BoundForm} (h : Ordinary (.bound form) p) (place : BoundPlace)
    (q : Phrase) : startsBound place (p ++ q).unplaced = true ∧
      Ahead.isOperator "*" (p ++ q).unplaced = false := by
  cases h with
  | outlives name => exact ⟨rfl, rfl⟩
  | trait h => exact ⟨(h.startsPath q).bound place, (h.startsPath q).notStar⟩
  | relaxed h => exact ⟨rfl, rfl⟩
  | general h => exact ⟨rfl, rfl⟩
  | callable free => exact ⟨rfl, rfl⟩

end Ordinary

/-! ## Where parameters, arguments and predicates stand -/

/-- Nothing here names a parameter of a function type. -/
structure Unnamed (ts : List Token) : Prop where
  variadic : seesVariadic ts = false
  name : (Ahead.isIdentifier ts || Ahead.isWord "_" ts || Ahead.isWord "self" ts) = false ∨
    isLoneColon (Ahead.next ts) = false

theorem unnamed_word {t : List Token} (lone : isLoneColon t = false)
    (dots : (Ahead.isOperator ":" t && Ahead.isOperator "..." (Ahead.next t)) = false) :
    Unnamed (⟨.word w, s⟩ :: t) where
  variadic := by
    show (false || _ && Ahead.isOperator ":" t && Ahead.isOperator "..." (Ahead.next t)) = false
    rw [Bool.and_assoc, dots, Bool.and_false, Bool.false_or]
  name := .inr lone

namespace Ordinary

theorem unnamed_path (h : Ordinary .path p) (noColon : Ahead.isOperator ":" q.unplaced = false) :
    Unnamed (p ++ q).unplaced := by
  cases h with
  | @path rooted first rest h =>
    cases rooted with
    | true => exact ⟨rfl, .inl rfl⟩
    | false =>
      have behind : isLoneColon (signed "::" id rest ++ q).unplaced = false ∧
          (Ahead.isOperator ":" (signed "::" id rest ++ q).unplaced && Ahead.isOperator "..."
            (Ahead.next (signed "::" id rest ++ q).unplaced)) = false := by
        cases rest with
        | nil =>
          show (Ahead.isOperator ":" q.unplaced && _) = false ∧
            (Ahead.isOperator ":" q.unplaced && _) = false
          rw [noColon]
          exact ⟨rfl, rfl⟩
        | cons => exact ⟨rfl, rfl⟩
      cases h first List.mem_cons_self with
      | name | relative => exact unnamed_word behind.1 behind.2
      | applied => exact unnamed_word rfl rfl

theorem unnamed (h : Ordinary .type p) (noColon : Ahead.isOperator ":" q.unplaced = false) :
    Unnamed (p ++ q).unplaced := by
  cases h with
  | type h =>
    cases h with
    | named h => exact h.unnamed_path noColon
    | inferred =>
      have lone : isLoneColon q.unplaced = false := by
        rw [isLoneColon, noColon]
        rfl
      have dots : (Ahead.isOperator ":" q.unplaced
          && Ahead.isOperator "..." (Ahead.next q.unplaced)) = false := by
        rw [noColon, Bool.false_and]
      exact unnamed_word lone dots
    | _ => exact ⟨rfl, .inl rfl⟩
  | sum h hs =>
    rw [List.append_assoc]
    exact h.unnamed_path rfl
  | _ => exact ⟨rfl, .inl rfl⟩

theorem not_argument_start (h : Ordinary .type p) (q : Phrase) :
    (Ahead.isLifetime (p ++ q).unplaced
      && !Ahead.isOperator "+" (Ahead.next (p ++ q).unplaced)) = false := by
  cases h with
  | type h => rw [((Ordinary.type h).type_start h.plain_bare q).1, Bool.false_and]
  | sum h => rw [List.append_assoc, (h.startsPath _).notLifetime, Bool.false_and]
  | _ => rfl

theorem not_value_start (h : Ordinary .type p) (q : Phrase) :
    ((literalAhead? (p ++ q).unplaced).isSome
      || Ahead.isGroup .brace (p ++ q).unplaced) = false := by
  obtain ⟨l, t, rfl, starts⟩ := h.exists_start
  cases starts with
  | @word w named =>
    have none : literalAhead? (⟨.word w, ⟨0, 0⟩⟩ :: Phrase.unplaced (t ++ q)) = none := by
      rcases named with free | relative
      · exact literalAhead?_word free
      · fin_cases relative <;> rfl
    show ((literalAhead? (⟨.word w, ⟨0, 0⟩⟩ :: Phrase.unplaced (t ++ q))).isSome || false) = false
    rw [none]
    rfl
  | sign member => fin_cases member <;> rfl
  | literal other => cases other

theorem not_lifetime_predicate (h : Ordinary .type p) (q : Phrase) :
    (Ahead.isLifetime (p ++ q).unplaced
      && Ahead.isOperator ":" (Ahead.next (p ++ q).unplaced)) = false := by
  cases h with
  | type h => rw [((Ordinary.type h).type_start h.plain_bare q).1, Bool.false_and]
  | sum h => rw [List.append_assoc, (h.startsPath _).notLifetime, Bool.false_and]
  | _ => rfl

/-- A type introduces lifetimes for another one, or starts with no such introduction. -/
theorem introduces (h : Ordinary .type p) :
    (∃ names last? t, p = introducing names last? ++ t ∧ Ordinary .type t) ∨
      ∀ q, Ahead.isWord "for" (p ++ q).unplaced = false := by
  cases h with
  | type h =>
    refine .inr fun q => ?_
    obtain ⟨l, t, rfl, starts⟩ := h.exists_start
    cases starts with
    | word named => exact (startsPath_word named).notWord "for" (by decide)
    | sign member => fin_cases member <;> rfl
    | literal other => cases other
  | sum h =>
    refine .inr fun q => ?_
    rw [List.append_assoc]
    exact (h.startsPath _).notWord "for" (by decide)
  | @generalSum names last? first rest bounds h hs =>
    refine .inl ⟨names, last?, _, rfl, ?_⟩
    cases bounds with
    | nil =>
      rw [signed_nil, List.append_nil]
      exact .type (.named (.path false h))
    | cons => exact .sum (.path false h) hs
  | generalFunction h hr => exact .inl ⟨_, _, _, rfl, .type (.function h hr)⟩
  | _ => exact .inr fun _ => rfl

theorem path_not_endsPredicate (h : Ordinary .path p) (q : Phrase) :
    endsPredicate (p ++ q).unplaced = false := by
  cases h with
  | path rooted h =>
    cases rooted with
    | true => rfl
    | false =>
      obtain ⟨w, t, rfl, -⟩ := (h _ List.mem_cons_self).word_start
      rfl

end Ordinary

end RecordRows.Source
