import RecordRows.Source.Declaration

/-!
Phrases whose groups are closed, and phrases whose angles are closed too. The tokens of a scanned
text have all their groups closed, so that what is taken of them as one group is a group
(`wellNested_scan?`, `WellNested.next_eq`).
-/
namespace RecordRows.Source

namespace Phrase

/-! ## Phrases -/

/-- Whether a token opens or closes a group. -/
def isDelimiter : Lexeme → Bool
  | .opening _ | .closing _ => true
  | _ => false

/-- All groups are closed. -/
inductive Closed : Phrase → Prop
  | nil : Closed []
  | leaf {l : Lexeme} {p : Phrase} (free : isDelimiter l = false) (more : Closed p) :
      Closed (l :: p)
  | group (d e : Delimiter) {p q : Phrase} (content : Closed p) (more : Closed q) :
      Closed (.opening d :: (p ++ .closing e :: q))

/-- Whether a token means nothing for the balance of a phrase. A joint dash may begin an arrow. -/
def isFree : Lexeme → Bool
  | .opening _ | .closing _ => false
  | .punct '<' _ | .punct '>' _ | .punct '-' true => false
  | _ => true

/-- All groups and, outside of groups, all angles are closed. The head of an arrow is no angle. -/
inductive Balanced : Phrase → Prop
  | nil : Balanced []
  | leaf {l : Lexeme} {p : Phrase} (free : isFree l = true) (more : Balanced p) : Balanced (l :: p)
  | arrow (joint : Bool) {p : Phrase} (more : Balanced p) :
      Balanced (.punct '-' true :: .punct '>' joint :: p)
  | negative (joint : Bool) (text : String) {p : Phrase} (more : Balanced p) :
      Balanced (.punct '-' joint :: .literal text :: p)
  | group (d e : Delimiter) {p q : Phrase} (content : Closed p) (more : Balanced q) :
      Balanced (.opening d :: (p ++ .closing e :: q))
  | angles (i j : Bool) {p q : Phrase} (content : Balanced p) (more : Balanced q) :
      Balanced (.punct '<' i :: (p ++ .punct '>' j :: q))

/-- Words and colons, with balanced arguments in angles between them. -/
inductive IsPath : Phrase → Prop
  | nil : IsPath []
  | word (w : String) {p : Phrase} (more : IsPath p) : IsPath (.word w :: p)
  | colon (joint : Bool) {p : Phrase} (more : IsPath p) : IsPath (.punct ':' joint :: p)
  | angles (i j : Bool) {p q : Phrase} (content : Balanced p) (more : IsPath q) :
      IsPath (.punct '<' i :: (p ++ .punct '>' j :: q))

variable {p q : Phrase}

theorem Closed.append (hp : Closed p) (hq : Closed q) : Closed (p ++ q) := by
  induction hp with
  | nil => exact hq
  | leaf free _ ih => exact .leaf free ih
  | group d e content _ _ ih =>
    rw [List.cons_append, List.append_assoc]
    exact .group d e content ih

theorem Balanced.append (hp : Balanced p) (hq : Balanced q) : Balanced (p ++ q) := by
  induction hp with
  | nil => exact hq
  | leaf free _ ih => exact .leaf free ih
  | arrow joint _ ih => exact .arrow joint ih
  | negative joint text _ ih => exact .negative joint text ih
  | group d e content _ ih =>
    rw [List.cons_append, List.append_assoc]
    exact .group d e content ih
  | angles i j content _ _ ih =>
    rw [List.cons_append, List.append_assoc]
    exact .angles i j content ih

theorem IsPath.append (hp : IsPath p) (hq : IsPath q) : IsPath (p ++ q) := by
  induction hp with
  | nil => exact hq
  | word w _ ih => exact .word w ih
  | colon joint _ ih => exact .colon joint ih
  | angles i j content _ ih =>
    rw [List.cons_append, List.append_assoc]
    exact .angles i j content ih

theorem isDelimiter_of_isFree {l : Lexeme} (h : isFree l = true) : isDelimiter l = false := by
  cases l <;> simp_all [isFree, isDelimiter]

theorem Balanced.closed (h : Balanced p) : Closed p := by
  induction h with
  | nil => exact .nil
  | leaf free _ ih => exact .leaf (isDelimiter_of_isFree free) ih
  | arrow _ _ ih => exact .leaf rfl (.leaf rfl ih)
  | negative _ _ _ ih => exact .leaf rfl (.leaf rfl ih)
  | group d e content _ ih => exact .group d e content ih
  | angles _ _ _ _ content more => exact .leaf rfl (content.append (.leaf rfl more))

theorem IsPath.balanced (h : IsPath p) : Balanced p := by
  induction h with
  | nil => exact .nil
  | word _ _ ih => exact .leaf rfl ih
  | colon _ _ ih => exact .leaf rfl ih
  | angles i j content _ ih => exact .angles i j content ih

end Phrase

/-! ## Tokens -/

open Phrase

/-- Tokens without their places. -/
def lexemes (ts : List Token) : Phrase := ts.map (·.lexeme)

/-- Behind every token that opens a group stands the one that closes it. -/
def WellNested (ts : List Token) : Prop :=
  ∀ d place rest, ⟨.opening d, place⟩ :: rest <:+ ts → ∃ c e place' us,
    rest = c ++ ⟨.closing e, place'⟩ :: us ∧ Closed (lexemes c)

/-- What remains inside of this many groups up to the end of a text. -/
inductive Unwinds : Nat → List Token → Prop
  | done {ts : List Token} (h : Closed (lexemes ts)) : Unwinds 0 ts
  | step (e : Delimiter) (place : Span) {k : Nat} {c ts : List Token} (content : Closed (lexemes c))
      (more : Unwinds k ts) : Unwinds (k + 1) (c ++ ⟨.closing e, place⟩ :: ts)

variable {ts us : List Token} {k : Nat} {place : Span}

theorem WellNested.suffix (h : WellNested us) (suffix : ts <:+ us) : WellNested ts :=
  fun d place rest inside => h d place rest (inside.trans suffix)

theorem WellNested.cons_of_ne {t : Token} (h : WellNested ts) (other : ∀ d, t.lexeme ≠ .opening d) :
    WellNested (t :: ts) := by
  intro d place rest inside
  rcases List.suffix_cons_iff.mp inside with same | inside
  · cases same
    exact absurd rfl (other d)
  · exact h d place rest inside

/-- What follows the closing token of the groups around a phrase. -/
theorem afterGroup_append {p : Phrase} (h : Closed p) (depth : Nat) (us : List Token) :
    ∀ ts, lexemes ts = p →
      Ahead.afterGroup (depth + 1) (ts ++ us) = Ahead.afterGroup (depth + 1) us := by
  induction h generalizing depth us with
  | nil =>
    intro ts same
    obtain rfl := List.map_eq_nil_iff.mp same
    rfl
  | @leaf l p free _ ih =>
    intro ts same
    obtain ⟨⟨l, place⟩, ts, rfl, rfl, rest⟩ := List.map_eq_cons_iff.mp same
    rw [← ih depth us ts rest]
    cases l <;> first | rfl | cases free
  | group d e _ _ inner outer =>
    intro ts same
    obtain ⟨⟨_, place⟩, ts, rfl, rfl, behind⟩ := List.map_eq_cons_iff.mp same
    obtain ⟨c, ts, rfl, content, closed⟩ := List.map_eq_append_iff.mp behind
    obtain ⟨⟨_, place'⟩, ts, rfl, rfl, more⟩ := List.map_eq_cons_iff.mp closed
    rw [List.cons_append, List.append_assoc, Ahead.afterGroup, inner _ _ c content,
      List.cons_append, Ahead.afterGroup, outer _ _ ts more]

/-- The next token of well-nested tokens is a whole group where it opens one. -/
theorem WellNested.next_eq {d : Delimiter} (h : WellNested (⟨.opening d, place⟩ :: ts)) :
    ∃ c e place' us, ts = c ++ ⟨.closing e, place'⟩ :: us ∧ Closed (lexemes c) ∧
      Ahead.next (⟨.opening d, place⟩ :: ts) = us := by
  obtain ⟨c, e, place', us, rfl, content⟩ := h d place ts List.suffix_rfl
  refine ⟨c, e, place', us, rfl, content, ?_⟩
  rw [Ahead.next, Ahead.afterGroup, afterGroup_append content 0 _ c rfl]
  rfl

/-! ## Scanned texts -/

/-- Well-nested tokens that end inside of this many groups. -/
structure NestedIn (k : Nat) (ts : List Token) : Prop where
  unwinds : Unwinds k ts
  nested : WellNested ts

namespace NestedIn

theorem leaf {t : Token} (free : isDelimiter t.lexeme = false) (h : NestedIn k ts) :
    NestedIn k (t :: ts) where
  unwinds := by
    cases h.unwinds with
    | done closed => exact .done (.leaf free closed)
    | step e place content more => exact .step e place (c := t :: _) (.leaf free content) more
  nested := h.nested.cons_of_ne fun d same => by
    rw [same] at free
    cases free

theorem closing (e : Delimiter) (place : Span) (h : NestedIn k ts) :
    NestedIn (k + 1) (⟨.closing e, place⟩ :: ts) where
  unwinds := .step e place (c := []) .nil h.unwinds
  nested := h.nested.cons_of_ne fun d => by simp

theorem opening (d : Delimiter) (place : Span) (h : NestedIn (k + 1) ts) :
    NestedIn k (⟨.opening d, place⟩ :: ts) := by
  obtain ⟨unwinds, nested⟩ := h
  cases unwinds with
  | @step e place' _ c us content more =>
    have group {v : List Token} (closed : Closed (lexemes v)) :
        Closed (lexemes (⟨.opening d, place⟩ :: (c ++ ⟨.closing e, place'⟩ :: v))) := by
      have shape : lexemes (⟨.opening d, place⟩ :: (c ++ ⟨.closing e, place'⟩ :: v))
          = .opening d :: (lexemes c ++ .closing e :: lexemes v) := by
        simp [lexemes]
      rw [shape]
      exact .group d e content closed
    refine ⟨?_, ?_⟩
    · cases more with
      | done closed => exact .done (group closed)
      | @step e₂ place₂ k v us content₂ more =>
        have shape : (⟨.opening d, place⟩ :: (c ++ ⟨.closing e, place'⟩ :: (v ++
            ⟨.closing e₂, place₂⟩ :: us)) : List Token) =
              (⟨.opening d, place⟩ :: (c ++ ⟨.closing e, place'⟩ :: v)) ++
                ⟨.closing e₂, place₂⟩ :: us := by
          simp
        rw [shape]
        exact .step e₂ place₂ (group content₂) more
    · intro d₂ place₂ rest inside
      rcases List.suffix_cons_iff.mp inside with same | inside
      · cases same
        exact ⟨c, e, place', us, rfl, content⟩
      · exact nested d₂ place₂ rest inside

theorem documentation (inner : Bool) (content : List Char) (place : Span) (h : NestedIn k ts) :
    NestedIn k ((documentation inner content).map (⟨·, place⟩) ++ ts) := by
  have group (text : String) :=
    ((h.closing .bracket place).leaf (t := ⟨.literal text, place⟩) rfl).leaf
      (t := ⟨.punct '=' false, place⟩) rfl |>.leaf (t := ⟨.word "doc", place⟩) rfl
      |>.opening .bracket place
  cases inner with
  | false => exact (group _).leaf (t := ⟨.punct '#' false, place⟩) rfl
  | true =>
    exact ((group _).leaf (t := ⟨.punct '!' false, place⟩) rfl).leaf
      (t := ⟨.punct '#' false, place⟩) rfl

end NestedIn

/-- A token that is no group: a literal, a sign or a word. -/
theorem readLeaf_eq_some {cs rest : List Char} {l : Lexeme} (h : readLeaf cs = some (l, rest)) :
    (∃ text, l = .literal text) ∨ (∃ c joint, l = .punct c joint) ∨
      ∃ name, readWord cs = some (name, rest) ∧ l = .word (String.ofList name) := by
  unfold readLeaf at h
  split at h
  · cases h
    exact .inl ⟨_, rfl⟩
  · cases punct : readPunct cs with
    | some p =>
      rw [punct, Option.orElse_some] at h
      cases h
      unfold readPunct at punct
      split at punct
      · simp only [Option.bind_eq_bind, Option.bind_eq_some_iff] at punct
        obtain ⟨_, -, punct⟩ := punct
        split at punct
        · cases punct
        split at punct <;> cases punct
        exact .inr (.inl ⟨_, _, rfl⟩)
      · split at punct <;> cases punct
        exact .inr (.inl ⟨_, _, rfl⟩)
      · cases punct
    | none =>
      rw [punct, Option.orElse_none] at h
      split at h
      · cases h
      · obtain ⟨⟨name, after⟩, read, h⟩ := Option.map_eq_some_iff.mp h
        cases h
        exact .inr (.inr ⟨name, read, rfl⟩)

theorem isDelimiter_readLeaf {cs rest : List Char} {l : Lexeme} (h : readLeaf cs = some (l, rest)) :
    isDelimiter l = false := by
  obtain ⟨_, rfl⟩ | ⟨_, _, rfl⟩ | ⟨_, -, rfl⟩ := readLeaf_eq_some h <;> rfl

/-- The ways in which a scan goes on, inside of the groups of a stack. -/
inductive ScanStep (size fuel : Nat) (stack : List Delimiter) : List Token → Prop
  | documentation (inner : Bool) (content : List Char) (place : Span) {rest : List Char}
      {ts : List Token} (more : scanFrom size fuel stack rest = some ts) :
      ScanStep size fuel stack ((documentation inner content).map (⟨·, place⟩) ++ ts)
  | done (ended : stack = []) : ScanStep size fuel stack []
  | opening (d : Delimiter) (place : Span) {rest : List Char} {ts : List Token}
      (more : scanFrom size fuel (d :: stack) rest = some ts) :
      ScanStep size fuel stack (⟨.opening d, place⟩ :: ts)
  | closing (d : Delimiter) (place : Span) {rest : List Char} {outer : List Delimiter}
      {ts : List Token} (top : stack = d :: outer) (more : scanFrom size fuel outer rest = some ts) :
      ScanStep size fuel stack (⟨.closing d, place⟩ :: ts)
  | leaf (place : Span) {l : Lexeme} {cs rest : List Char} {ts : List Token}
      (read : readLeaf cs = some (l, rest)) (more : scanFrom size fuel stack rest = some ts) :
      ScanStep size fuel stack (⟨l, place⟩ :: ts)

theorem scanStep_of_scanFrom {size fuel : Nat} {stack : List Delimiter} {cs : List Char}
    {ts : List Token} (h : scanFrom size (fuel + 1) stack cs = some ts) :
    ScanStep size fuel stack ts := by
  unfold scanFrom at h
  obtain ⟨cs, -, h⟩ := Option.bind_eq_some_iff.mp h
  dsimp only at h
  split at h
  · obtain ⟨us, scanned, h⟩ := Option.bind_eq_some_iff.mp h
    cases h
    exact .documentation _ _ _ scanned
  split at h
  · split at h
    · next ended =>
      cases h
      exact .done (List.isEmpty_iff.mp ended)
    · cases h
  split at h
  · obtain ⟨us, scanned, h⟩ := Option.bind_eq_some_iff.mp h
    cases h
    exact .opening _ _ scanned
  · split at h
    · cases h
    split at h
    · next same =>
      obtain ⟨us, scanned, h⟩ := Option.bind_eq_some_iff.mp h
      cases h
      cases same
      exact .closing _ _ rfl scanned
    · cases h
  · obtain ⟨⟨l, rest⟩, leaf, h⟩ := Option.bind_eq_some_iff.mp h
    obtain ⟨us, scanned, h⟩ := Option.bind_eq_some_iff.mp h
    cases h
    exact .leaf _ leaf scanned

theorem nestedIn_scanFrom {size fuel : Nat} {stack : List Delimiter} {cs : List Char}
    {ts : List Token} (h : scanFrom size fuel stack cs = some ts) : NestedIn stack.length ts := by
  induction fuel generalizing stack cs ts with
  | zero => cases h
  | succ fuel ih =>
    cases scanStep_of_scanFrom h with
    | documentation _ _ place more => exact (ih more).documentation _ _ place
    | done ended =>
      rw [ended]
      exact ⟨.done .nil, fun d place rest inside => by simp at inside⟩
    | opening d place more => exact (ih more).opening d place
    | closing d place top more =>
      rw [top]
      exact (ih more).closing d place
    | leaf _ read more => exact (ih more).leaf (isDelimiter_readLeaf read)

/-- The groups of a text are closed. -/
theorem wellNested_scan? {source : String} (h : scan? source = some ts) : WellNested ts :=
  (nestedIn_scanFrom h).nested

end RecordRows.Source
