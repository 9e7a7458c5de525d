import RecordRows.Proofs.Source.Nesting

/-!
What rules take and print. A rule takes tokens from the front and prints behind what has been
printed. Two kinds of phrases are kept by the ways to combine rules: those whose groups are closed,
and those whose angles are closed too. So a rule keeps a kind of phrases when what it takes and what
it prints are both of this kind, and a rule built from such rules keeps the kind again.
-/
namespace RecordRows.Source

open Phrase

variable {α β : Type}

theorem eq_ok_of_toOption {ε α : Type} {r : Except ε α} {a : α} (h : r.toOption = some a) :
    r = .ok a := by
  cases r <;> cases h
  rfl

theorem eq_ok_of_mapError {ε ε' α : Type} {r : Except ε α} {f : ε → ε'} {a : α}
    (h : r.mapError f = .ok a) : r = .ok a := by
  cases r <;> cases h
  rfl

/-- What is bound succeeds in two steps. -/
theorem exists_of_bind_eq_ok {ε : Type} {r : Except ε α} {f : α → Except ε β} {b : β}
    (h : r >>= f = .ok b) : ∃ a, r = .ok a ∧ f a = .ok b := by
  cases r with
  | error e => cases h
  | ok a => exact ⟨a, rfl, h⟩

theorem Rule.bind_eq_ok {r : Rule α} {f : α → Rule β} {s s' : Progress} {b : β}
    (h : (r >>= f) s = .ok (b, s')) : ∃ a t, r s = .ok (a, t) ∧ f a t = .ok (b, s') := by
  obtain ⟨⟨a, t⟩, first, rest⟩ := exists_of_bind_eq_ok h
  exact ⟨a, t, first, rest⟩

/-! ## Kinds of phrases -/

namespace Phrase

/-- Phrases that may be joined, words among them. -/
class Joins (P : Phrase → Prop) : Prop where
  nil : P []
  word (w : String) : P [.word w]
  append {p q : Phrase} (hp : P p) (hq : P q) : P (p ++ q)

/-- The characters of an operator; the last one may be joint to what follows. -/
def signs (joint : Bool) : List Char → Phrase
  | [] => []
  | [c] => [.punct c joint]
  | c :: d :: cs => .punct c true :: signs joint (d :: cs)

/-- Phrases that an operator may occur in. -/
class Admits (P : Phrase → Prop) (sign : String) : Prop where
  signs (joint : Bool) : P (signs joint sign.toList)

/-- Phrases that lifetimes, literals and groups may occur in. -/
class Holds (P : Phrase → Prop) : Prop extends Joins P where
  lifetime (w : String) : P [.punct '\'' true, .word w]
  literal (text : String) : P [.literal text]
  negative (joint : Bool) (text : String) : P [.punct '-' joint, .literal text]
  group (d e : Delimiter) {p : Phrase} (content : Closed p) : P (.opening d :: p ++ [.closing e])

theorem operator_eq_signs (sign : String) : operator sign = signs false sign.toList := by
  have go (cs : List Char) : operator.go cs = signs false cs := by
    induction cs with
    | nil => rfl
    | cons c cs ih =>
      cases cs with
      | nil => rfl
      | cons d cs => exact congrArg _ ih
  exact go _

section
variable {P : Phrase → Prop}

theorem Joins.flatMap [Joins P] {ι : Type} {text : ι → Phrase} {items : List ι}
    (h : ∀ i ∈ items, P (text i)) : P (items.flatMap text) := by
  induction items with
  | nil => exact Joins.nil
  | cons i items ih =>
    obtain ⟨first, rest⟩ := List.forall_mem_cons.mp h
    rw [List.flatMap_cons]
    exact Joins.append first (ih rest)

theorem Joins.separated [Joins P] {separator : Phrase} (hs : P separator)
    {ps : List Phrase} (h : ∀ p ∈ ps, P p) : P (separated separator ps) := by
  induction ps with
  | nil => exact Joins.nil
  | cons p ps ih =>
    obtain ⟨first, rest⟩ := List.forall_mem_cons.mp h
    cases ps with
    | nil => exact first
    | cons q ps => exact Joins.append (Joins.append first hs) (ih rest)

theorem Admits.operator (sign : String) [admits : Admits P sign] : P (operator sign) := by
  rw [operator_eq_signs]
  exact admits.signs false

end

instance : Joins Closed where
  nil := .nil
  word _ := .leaf rfl .nil
  append := Closed.append

instance : Joins Balanced where
  nil := .nil
  word _ := .leaf rfl .nil
  append := Balanced.append

instance : Joins IsPath where
  nil := .nil
  word w := .word w .nil
  append := IsPath.append

instance : Holds Closed where
  lifetime _ := .leaf rfl (.leaf rfl .nil)
  literal _ := .leaf rfl .nil
  negative _ _ := .leaf rfl (.leaf rfl .nil)
  group d e _ content := .group d e content .nil

instance : Holds Balanced where
  lifetime _ := .leaf rfl (.leaf rfl .nil)
  literal _ := .leaf rfl .nil
  negative joint text := .negative joint text .nil
  group d e _ content := .group d e content .nil

theorem mem_signs {joint : Bool} {l : Lexeme} {cs : List Char} (h : l ∈ signs joint cs) :
    ∃ c ∈ cs, ∃ j, l = .punct c j := by
  induction cs with
  | nil => cases h
  | cons c cs ih =>
    cases cs with
    | nil =>
      obtain rfl := List.mem_singleton.mp h
      exact ⟨c, List.mem_cons_self, joint, rfl⟩
    | cons d cs =>
      rcases List.mem_cons.mp h with rfl | h
      · exact ⟨c, List.mem_cons_self, true, rfl⟩
      · obtain ⟨b, member, j, same⟩ := ih h
        exact ⟨b, List.mem_cons_of_mem _ member, j, same⟩

theorem closed_of_forall {p : Phrase} (h : ∀ l ∈ p, isDelimiter l = false) : Closed p := by
  induction p with
  | nil => exact .nil
  | cons l p ih =>
    obtain ⟨free, more⟩ := List.forall_mem_cons.mp h
    exact .leaf free (ih more)

theorem balanced_of_forall {p : Phrase} (h : ∀ l ∈ p, isFree l = true) : Balanced p := by
  induction p with
  | nil => exact .nil
  | cons l p ih =>
    obtain ⟨free, more⟩ := List.forall_mem_cons.mp h
    exact .leaf free (ih more)

instance (sign : String) : Admits Closed sign where
  signs joint := closed_of_forall fun l member => by
    obtain ⟨c, -, j, rfl⟩ := mem_signs member
    rfl

theorem admits_balanced {sign : String} (plain : sign.toList.all (!"<>-".toList.contains ·) = true) :
    Admits Balanced sign where
  signs joint := balanced_of_forall fun l member => by
    obtain ⟨c, inside, j, rfl⟩ := mem_signs member
    have plain := List.all_eq_true.mp plain c inside
    unfold isFree
    split <;> simp_all

instance : Admits Balanced "::" := admits_balanced (by decide)
instance : Admits Balanced "," := admits_balanced (by decide)
instance : Admits Balanced "+" := admits_balanced (by decide)
instance : Admits Balanced "=" := admits_balanced (by decide)
instance : Admits Balanced ":" := admits_balanced (by decide)
instance : Admits Balanced "?" := admits_balanced (by decide)
instance : Admits Balanced "!" := admits_balanced (by decide)
instance : Admits Balanced "*" := admits_balanced (by decide)
instance : Admits Balanced "&" := admits_balanced (by decide)
instance : Admits Balanced "#" := admits_balanced (by decide)
instance : Admits Balanced "->" := ⟨fun joint => .arrow joint .nil⟩
instance : Admits IsPath "::" := ⟨fun joint => .colon true (.colon joint .nil)⟩

end Phrase

/-! ## Rules that keep a kind -/

/-- From one place to a later one, with what is taken and what is printed in between. -/
def Progress.Advances (P : Phrase → Prop) (s s' : Progress) : Prop :=
  ∃ c p, s.tokens = c ++ s'.tokens ∧ s'.printed = p.reverse ++ s.printed ∧ P (lexemes c) ∧ P p

open Progress

variable {P P₁ P₂ P₃ : Phrase → Prop} {Q : α → Prop} {R : β → Prop} {s t u v : Progress}

theorem Progress.Advances.mono (h : Advances P₁ s t) (wider : ∀ p, P₁ p → P₂ p) :
    Advances P₂ s t := by
  obtain ⟨c, p, tokens, printed, hc, hp⟩ := h
  exact ⟨c, p, tokens, printed, wider _ hc, wider _ hp⟩

theorem Progress.Advances.join (h : Advances P₁ s t) (h' : Advances P₂ t u)
    (join : ∀ p q, P₁ p → P₂ q → P (p ++ q)) : Advances P s u := by
  obtain ⟨c, p, tokens, printed, hc, hp⟩ := h
  obtain ⟨c', p', tokens', printed', hc', hp'⟩ := h'
  refine ⟨c ++ c', p ++ p', ?_, ?_, ?_, join _ _ hp hp'⟩
  · rw [tokens, tokens', List.append_assoc]
  · rw [printed', printed, List.reverse_append, List.append_assoc]
  · rw [lexemes, List.map_append]
    exact join _ _ hc hc'

theorem Progress.Advances.enclose (h : Advances P₁ s t) (h' : Advances P₂ t u)
    (h'' : Advances P₃ u v) (join : ∀ p q r, P₁ p → P₂ q → P₃ r → P (p ++ q ++ r)) :
    Advances P s v := by
  refine (h.join (P := fun w => ∃ p q, w = p ++ q ∧ P₁ p ∧ P₂ q) h' ?_).join h'' ?_
  · exact fun p q hp hq => ⟨p, q, rfl, hp, hq⟩
  · rintro _ r ⟨p, q, rfl, hp, hq⟩ hr
    exact join p q r hp hq hr

theorem Progress.Advances.refl [Joins P] (s : Progress) : Advances P s s :=
  ⟨[], [], rfl, rfl, Joins.nil, Joins.nil⟩

theorem Progress.Advances.trans [Joins P] (h : Advances P s t) (h' : Advances P t u) :
    Advances P s u :=
  h.join h' fun _ _ => Joins.append

theorem Progress.Advances.suffix (h : Advances P s t) : t.tokens <:+ s.tokens := by
  obtain ⟨c, -, tokens, -⟩ := h
  exact ⟨c, tokens.symm⟩

theorem Progress.Advances.nested (h : Advances P s t) (nested : WellNested s.tokens) :
    WellNested t.tokens :=
  nested.suffix h.suffix

namespace Rule

/-- At these tokens a rule keeps a kind of phrases, and its answer has a property. -/
def KeepsAt (P : Phrase → Prop) (ts : List Token) (r : Rule α) (Q : α → Prop) : Prop :=
  ∀ printed {s' a}, WellNested ts → r ⟨ts, printed⟩ = .ok (a, s') →
    Advances P ⟨ts, printed⟩ s' ∧ Q a

/-- A rule keeps a kind of phrases, and its answer has a property. -/
def Gives (P : Phrase → Prop) (r : Rule α) (Q : α → Prop) : Prop := ∀ ts, KeepsAt P ts r Q

/-- A rule keeps a kind of phrases. -/
class Keeps (P : Phrase → Prop) (r : Rule α) : Prop where
  gives : Gives P r fun _ => True

theorem Keeps.advances {r : Rule α} [h : Keeps P r] {a : α} (nested : WellNested s.tokens)
    (rule : r s = .ok (a, t)) : Advances P s t :=
  (h.gives s.tokens s.printed nested rule).1

/-- What a rule leaves is the end of what it has had before it. -/
theorem Keeps.suffix {r : Rule α} (h : Keeps P r) {a : α} (nested : WellNested s.tokens)
    (rule : r s = .ok (a, t)) : t.tokens <:+ s.tokens :=
  (h.advances nested rule).suffix

theorem Gives.keeps {r : Rule α} (h : Gives P r Q) : Keeps P r :=
  ⟨fun ts printed _ _ nested rule => ⟨(h ts printed nested rule).1, trivial⟩⟩

theorem Gives.widen {r : Rule α} (h : Gives P₁ r Q) (wider : ∀ p, P₁ p → P₂ p) : Gives P₂ r Q :=
  fun ts printed _ _ nested rule => (h ts printed nested rule).imp_left fun advance =>
    advance.mono wider

theorem Keeps.mono {r : Rule α} (h : Keeps P₁ r) (wider : ∀ p, P₁ p → P₂ p) : Keeps P₂ r :=
  ⟨h.gives.widen wider⟩

theorem Gives.mono {Q' : α → Prop} {r : Rule α} (h : Gives P r Q) (weaker : ∀ a, Q a → Q' a) :
    Gives P r Q' :=
  fun ts printed _ a nested rule => (h ts printed nested rule).imp_right (weaker a)

/-- A rule that keeps balance keeps groups closed, and paths are balanced. -/
instance (priority := low) (r : Rule α) [h : Keeps Balanced r] : Keeps Closed r :=
  h.mono fun _ => Balanced.closed

instance (priority := low) (r : Rule α) [h : Keeps IsPath r] : Keeps Balanced r :=
  h.mono fun _ => IsPath.balanced

/-! ## Combinations -/

section
variable [Joins P] {ts : List Token}

theorem KeepsAt.bind {r : Rule α} {f : α → Rule β} (hr : KeepsAt P ts r Q)
    (hf : ∀ a, Q a → Gives P (f a) R) : KeepsAt P ts (r >>= f) R := by
  intro printed s' b nested h
  obtain ⟨a, t, first, rest⟩ := bind_eq_ok h
  obtain ⟨advance, holds⟩ := hr printed nested first
  obtain ⟨advance', holds'⟩ := hf a holds t.tokens t.printed (advance.nested nested) rest
  exact ⟨advance.trans advance', holds'⟩

theorem Gives.bind {r : Rule α} {f : α → Rule β} (hr : Gives P r Q)
    (hf : ∀ a, Q a → Gives P (f a) R) : Gives P (r >>= f) R :=
  fun ts => (hr ts).bind hf

theorem Gives.pure {a : α} (h : Q a) : Gives P (pure a : Rule α) Q := by
  intro ts printed s' b _ rule
  cases rule
  exact ⟨.refl _, h⟩

theorem Gives.none : Gives P (Pure.pure Option.none : Rule (Option α)) fun a? => ∀ a ∈ a?, Q a :=
  .pure nofun

theorem Gives.some {a : α} (h : Q a) :
    Gives P (Pure.pure (Option.some a) : Rule (Option α)) fun a? => ∀ a ∈ a?, Q a :=
  .pure fun b same => by
    cases same
    exact h

/-- A rule in front of which nothing is needed but its kind. -/
theorem Gives.after {r : Rule α} [hr : Keeps P r] {f : α → Rule β} (hf : ∀ a, Gives P (f a) R) :
    Gives P (r >>= f) R :=
  hr.gives.bind fun a _ => hf a

theorem KeepsAt.last {r : Rule α} {f : α → Rule β} (hr : KeepsAt P ts r Q)
    (hf : ∀ a, Keeps P (f a)) : KeepsAt P ts (r >>= f) fun _ => True :=
  hr.bind fun a _ => (hf a).gives

end

theorem KeepsAt.ahead {ts : List Token} {f : List Token → Rule α} (h : KeepsAt P ts (f ts) Q) :
    KeepsAt P ts (ahead >>= f) Q := h

theorem KeepsAt.ite {ts : List Token} {c : Prop} [Decidable c] {r q : Rule α}
    (hr : c → KeepsAt P ts r Q) (hq : ¬ c → KeepsAt P ts q Q) :
    KeepsAt P ts (if c then r else q) Q := by
  split
  · next holds => exact hr holds
  · next fails => exact hq fails

theorem Gives.ahead {f : List Token → Rule α} (hf : ∀ ts, KeepsAt P ts (f ts) Q) :
    Gives P (ahead >>= f) Q := fun ts => (hf ts).ahead

theorem Gives.sees {test : List Token → Bool} {f : Bool → Rule α}
    (hf : ∀ ts, KeepsAt P ts (f (test ts)) Q) : Gives P (sees test >>= f) Q := hf

theorem Gives.fail {problem : SyntaxProblem} : Gives P (fail problem : Rule α) Q := by
  intro ts printed s' a _ h
  cases h

instance (problem : SyntaxProblem) : Keeps P (fail problem : Rule α) := ⟨.fail⟩

instance (c : Prop) [Decidable c] (r q : Rule α) [hr : Keeps P r] [hq : Keeps P q] :
    Keeps P (if c then r else q) := by
  split
  · exact hr
  · exact hq

theorem KeepsAt.takeMany {ts : List Token} {n : Nat} (h : P (lexemes (ts.take n))) :
    KeepsAt P ts (takeMany n) fun _ => True := by
  intro printed s' a _ rule
  cases rule
  exact ⟨⟨ts.take n, _, (List.take_append_drop n ts).symm, rfl, h, h⟩, trivial⟩

theorem KeepsAt.take {ts : List Token} {t : Token} (h : P [t.lexeme]) :
    KeepsAt P (t :: ts) take fun _ => True := by
  intro printed s' a _ rule
  cases rule
  exact ⟨⟨[t], [t.lexeme], rfl, rfl, h, h⟩, trivial⟩

section
variable [Joins P]

instance (a : α) : Keeps P (pure a : Rule α) := ⟨.pure trivial⟩

theorem Keeps.bind {r : Rule α} {f : α → Rule β} (hr : Keeps P r) (hf : ∀ a, Keeps P (f a)) :
    Keeps P (r >>= f) :=
  ⟨hr.gives.bind fun a _ => (hf a).gives⟩

instance (r : Rule α) (f : α → Rule β) [hr : Keeps P r] [hf : ∀ a, Keeps P (f a)] :
    Keeps P (r >>= f) :=
  hr.bind hf

instance (r : Rule α) (f : α → β) [hr : Keeps P r] : Keeps P (f <$> r) :=
  hr.bind fun a => (inferInstance : Keeps P (pure (f a)))

instance : Keeps P (get : Rule Progress) where
  gives ts printed s' a _ h := by
    cases h
    exact ⟨.refl _, trivial⟩

/-! ## Elementary rules -/

instance : Keeps P ahead := by unfold ahead; infer_instance

instance (test : List Token → Bool) : Keeps P (sees test) := by unfold sees; infer_instance

instance : Keeps P atEnd := by unfold atEnd; infer_instance

instance (w : String) : Keeps P (seesWord w) := by unfold seesWord; infer_instance

instance (s : String) : Keeps P (seesOperator s) := by unfold seesOperator; infer_instance

instance (d : Delimiter) : Keeps P (seesGroup d) := by unfold seesGroup; infer_instance

theorem keeps_print {p : Phrase} (h : P p) : Keeps P (print p) where
  gives ts printed s' a _ rule := by
    cases rule
    exact ⟨⟨[], p, rfl, rfl, Joins.nil, h⟩, trivial⟩

theorem KeepsAt.drop {ts : List Token} {n : Nat} (h : P (lexemes (ts.take n))) :
    KeepsAt P ts (drop n) fun _ => True := by
  intro printed s' a _ rule
  cases rule
  exact ⟨⟨ts.take n, [], (List.take_append_drop n ts).symm, rfl, h, Joins.nil⟩, trivial⟩

end

/-! ## Operators and words -/

/-- The characters that have been found ahead are those that are taken. -/
theorem take_of_isOperatorChars {cs : List Char} :
    ∀ {ts : List Token}, Ahead.isOperatorChars cs ts = true →
      ∃ joint, lexemes (ts.take cs.length) = signs joint cs := by
  induction cs with
  | nil => exact fun _ => ⟨false, rfl⟩
  | cons c cs ih =>
    rintro (_ | ⟨⟨l, place⟩, ts⟩) found
    · cases cs <;> cases found
    cases l with
    | punct d joint =>
      cases cs with
      | nil =>
        obtain rfl := beq_iff_eq.mp found
        exact ⟨joint, rfl⟩
      | cons e cs =>
        cases joint with
        | false => cases found
        | true =>
          obtain ⟨same, more⟩ := Bool.and_eq_true_iff.mp found
          obtain rfl := beq_iff_eq.mp same
          obtain ⟨joint, rest⟩ := ih more
          exact ⟨joint, congrArg _ rest⟩
    | _ => cases cs <;> cases found

/-- The phrases of an operator. -/
def IsSign (sign : String) (p : Phrase) : Prop := ∃ joint, p = signs joint sign.toList

theorem IsSign.admits {sign : String} [admits : Admits P sign] {p : Phrase} (h : IsSign sign p) :
    P p := by
  obtain ⟨joint, rfl⟩ := h
  exact admits.signs joint

/-- An operator is taken and printed, or nothing happens. -/
theorem operator?_cases {sign : String} {found : Bool} (h : operator? sign s = .ok (found, t)) :
    found = true ∧ Advances (IsSign sign) s t ∨ found = false ∧ t = s := by
  obtain ⟨seen, _, look, h⟩ := bind_eq_ok h
  cases look
  split at h
  · next seen =>
    obtain ⟨_, _, drop, h⟩ := bind_eq_ok h
    cases drop
    obtain ⟨_, _, print, h⟩ := bind_eq_ok h
    cases print
    cases h
    obtain ⟨joint, taken⟩ := take_of_isOperatorChars seen
    rw [String.length_toList] at taken
    exact .inl ⟨rfl, s.tokens.take sign.length, _, (List.take_append_drop _ _).symm, rfl,
      ⟨joint, taken⟩, false, operator_eq_signs sign⟩
  · cases h
    exact .inr ⟨rfl, rfl⟩

theorem operator_advances {sign : String} {a : Unit} (h : operator sign s = .ok (a, t)) :
    Advances (IsSign sign) s t := by
  obtain ⟨found, u, look, h⟩ := bind_eq_ok h
  obtain ⟨rfl, advance⟩ | ⟨rfl, -⟩ := operator?_cases look
  · cases h
    exact advance
  · cases h

theorem ahead_eq_ok {ts : List Token} (h : ahead s = .ok (ts, t)) : ts = s.tokens ∧ t = s := by
  cases h
  exact ⟨rfl, rfl⟩

theorem take_advances {a : Unit} (h : take s = .ok (a, t)) : ∃ l, s.tokens = l :: t.tokens ∧
    Advances (· = [l.lexeme]) s t := by
  obtain ⟨ts, _, look, h⟩ := bind_eq_ok h
  cases look
  obtain ⟨_ | ⟨l, ts⟩, printed⟩ := s
  · cases h
  · cases h
    exact ⟨l, rfl, [l], [l.lexeme], rfl, rfl, rfl, rfl⟩

theorem exists_of_isWord {w : String} {ts : List Token} (h : Ahead.isWord w ts = true) :
    ∃ place us, ts = ⟨.word w, place⟩ :: us := by
  unfold Ahead.isWord Ahead.word? at h
  split at h
  · next v place us =>
    obtain rfl : v = w := by simpa using h
    exact ⟨place, us, rfl⟩
  · cases h

instance (sign : String) [Admits P sign] : Keeps P (operator sign) where
  gives _ _ _ _ _ h := ⟨(operator_advances h).mono fun _ => IsSign.admits, trivial⟩

section
variable [Joins P]

instance (sign : String) [Admits P sign] : Keeps P (operator? sign) where
  gives ts printed s' found _ h := by
    obtain ⟨-, advance⟩ | ⟨-, rfl⟩ := operator?_cases h
    · exact ⟨advance.mono fun _ => IsSign.admits, trivial⟩
    · exact ⟨.refl _, trivial⟩

instance (sign : String) [Admits P sign] : Keeps P (print (Phrase.operator sign)) :=
  keeps_print (Admits.operator sign)

instance (w : String) : Keeps P (word? w) where
  gives := .sees fun ts => by
    split
    · next seen =>
      obtain ⟨place, us, rfl⟩ := exists_of_isWord seen
      exact (KeepsAt.take (Joins.word _)).last fun _ => inferInstance
    · exact Gives.pure trivial ts

instance (w : String) : Keeps P (word w) := by unfold word; infer_instance

instance : Keeps P anyWord where
  gives := .ahead fun ts => by
    unfold Ahead.word?
    split
    · next found =>
      split at found
      · exact (KeepsAt.take (Joins.word _)).last fun _ => inferInstance
      · cases found
    · exact Gives.fail ts

instance : Keeps P identifier := by unfold identifier; infer_instance

end

/-! ## Lifetimes, literals and groups -/

section
variable [Holds P]

instance : Keeps P lifetime where
  gives := .sees fun ts => by
    split
    · next seen =>
      unfold Ahead.isLifetime at seen
      split at seen
      · obtain ⟨same, joint⟩ := Bool.and_eq_true_iff.mp seen
        obtain rfl := beq_iff_eq.mp same
        obtain rfl := joint
        intro printed s' a _ h
        cases h
        exact ⟨⟨_ :: [_], _, rfl, rfl, Holds.lifetime _, Holds.lifetime _⟩, trivial⟩
      · cases seen
    · exact Gives.fail ts

/-- A whole group. -/
def IsGroup (p : Phrase) : Prop := ∃ d e q, Closed q ∧ p = .opening d :: q ++ [.closing e]

theorem IsGroup.holds {p : Phrase} (h : IsGroup p) : P p := by
  obtain ⟨d, e, q, content, rfl⟩ := h
  exact Holds.group d e content

/-- What is read in a group is taken and printed as a group. -/
theorem Gives.group {d : Delimiter} {content : Rule α} (hc : Gives Closed content Q) :
    Gives IsGroup (group d content) Q := by
  refine .sees fun ts printed s' a nested h => ?_
  split at h
  · next seen =>
    unfold Ahead.isGroup at seen
    split at seen
    · next e place ts =>
      obtain ⟨_, s₁, opened, h⟩ := bind_eq_ok h
      cases opened
      obtain ⟨b, s₂, inside, h⟩ := bind_eq_ok h
      obtain ⟨advance, holds⟩ := hc _ _ (nested.suffix (List.suffix_cons _ _)) inside
      obtain ⟨us, _, look, h⟩ := bind_eq_ok h
      obtain ⟨closes, rfl⟩ := ahead_eq_ok look
      obtain _ | ⟨⟨l, place'⟩, us⟩ := us
      · cases h
      cases l with
      | closing e' =>
        obtain ⟨_, s₃, closed, h⟩ := bind_eq_ok h
        cases h
        obtain ⟨l, tokens, last⟩ := take_advances closed
        rw [← closes] at tokens
        cases tokens
        have first : Advances (· = [.opening e])
            ⟨⟨.opening e, place⟩ :: ts, printed⟩ ⟨ts, .opening e :: printed⟩ :=
          ⟨[_], [_], rfl, rfl, rfl, rfl⟩
        refine ⟨first.enclose advance last ?_, holds⟩
        rintro _ q _ rfl content rfl
        exact ⟨e, e', q, content, rfl⟩
      | _ => cases h
    · cases seen
  · cases h

instance (d : Delimiter) (content : Rule α) [hc : Keeps Closed content] :
    Keeps P (group d content) :=
  Keeps.mono (Gives.group hc.gives).keeps fun _ => IsGroup.holds

/-- A whole group is taken where one begins. -/
theorem KeepsAt.takeTree {d : Delimiter} {place : Span} {ts : List Token} :
    KeepsAt P (⟨.opening d, place⟩ :: ts) takeTree fun _ => True := by
  intro printed s' a nested h
  obtain ⟨c, e, place', us, rfl, content, next⟩ := nested.next_eq
  have taken : lexemes ((⟨.opening d, place⟩ :: (c ++ ⟨.closing e, place'⟩ :: us)).take
      ((⟨.opening d, place⟩ :: (c ++ ⟨.closing e, place'⟩ :: us)).length - us.length))
        = .opening d :: lexemes c ++ [.closing e] := by
    have shape : (⟨.opening d, place⟩ :: (c ++ ⟨.closing e, place'⟩ :: us) : List Token)
        = (⟨.opening d, place⟩ :: c ++ [⟨.closing e, place'⟩]) ++ us := by
      simp
    rw [shape, List.length_append, Nat.add_sub_cancel, List.take_left]
    simp [lexemes]
  obtain ⟨_, _, look, h⟩ := bind_eq_ok h
  cases look
  rw [next] at h
  refine KeepsAt.takeMany (P := P) ?_ printed nested h
  rw [taken]
  exact Holds.group d e content

/-- One token or two are taken where no group begins. -/
theorem take_next {l : Lexeme} (free : isDelimiter l = false) (place : Span) (ts : List Token) :
    ∀ m ∈ lexemes ((⟨l, place⟩ :: ts).take
      ((⟨l, place⟩ :: ts).length - (Ahead.next (⟨l, place⟩ :: ts)).length)), isDelimiter m = false := by
  have next : Ahead.next (⟨l, place⟩ :: ts)
      = if Ahead.isLifetime (⟨l, place⟩ :: ts) then ts.drop 1 else ts := by
    cases l <;> first | rfl | cases free
  rw [next]
  split
  · next lifetime =>
    unfold Ahead.isLifetime at lifetime
    split at lifetime
    · next w place' us same =>
      cases same
      have two : us.length + 1 + 1 - us.length = 2 := by omega
      simp [lexemes, two, isDelimiter]
    · cases lifetime
  · simp [lexemes, free]

instance : Keeps Closed takeTree where
  gives ts printed s' a nested h := by
    have leaves (free : ∀ m ∈ lexemes (ts.take (ts.length - (Ahead.next ts).length)),
        isDelimiter m = false) : Advances Closed ⟨ts, printed⟩ s' :=
      (KeepsAt.takeMany (closed_of_forall free) printed nested h).1
    refine ⟨?_, trivial⟩
    cases ts with
    | nil => exact leaves (by simp [lexemes])
    | cons t ts =>
      obtain ⟨l, place⟩ := t
      cases l with
      | opening d => exact (KeepsAt.takeTree printed nested h).1
      | closing d => exact leaves (by simp [Ahead.next, lexemes])
      | word w => exact leaves (take_next rfl place ts)
      | punct c joint => exact leaves (take_next rfl place ts)
      | literal text => exact leaves (take_next rfl place ts)

end

/-! ## Rules around rules -/

theorem captured_eq_ok {r : Rule α} {s s' : Progress} {a : α} {p : Phrase}
    (h : captured r s = .ok ((a, p), s')) :
    ∃ t, r { s with printed := [] } = .ok (a, t) ∧ p = t.printed.reverse ∧
      s' = { t with printed := s.printed } := by
  obtain ⟨outer, s₁, look, h⟩ := bind_eq_ok h
  cases look
  obtain ⟨u, s₂, clear, h⟩ := bind_eq_ok h
  cases clear
  obtain ⟨b, t, rule, h⟩ := bind_eq_ok h
  obtain ⟨inner, s₃, look, h⟩ := bind_eq_ok h
  cases look
  obtain ⟨u, s₄, restore, h⟩ := bind_eq_ok h
  cases restore
  cases h
  exact ⟨t, rule, rfl, rfl⟩

theorem consumed_append (c us : List Token) : consumed (c ++ us) us = c := by
  rw [consumed, List.length_append, Nat.add_sub_cancel, List.take_left]

/-- What is taken is printed as it stands. -/
theorem KeepsAt.verbatim {ts : List Token} {r : Rule α} (hr : KeepsAt P ts r Q) :
    KeepsAt P ts (verbatim r) Q := by
  intro printed s' a nested h
  obtain ⟨_, _, look, h⟩ := bind_eq_ok h
  cases look
  obtain ⟨⟨b, p⟩, t, inside, h⟩ := bind_eq_ok h
  obtain ⟨⟨us, q⟩, rule, -, rfl⟩ := captured_eq_ok inside
  obtain ⟨⟨c, _, rfl, -, hc, -⟩, holds⟩ := hr [] nested rule
  cases h
  have printed' : P (lexemes (consumed (c ++ us) us)) := by rwa [consumed_append]
  exact ⟨⟨c, _, rfl, rfl, hc, printed'⟩, holds⟩

instance (r : Rule α) [hr : Keeps P r] : Keeps P (verbatim r) :=
  ⟨fun ts => (hr.gives ts).verbatim⟩

section
variable [Joins P]

/-- What is captured is of the kind that is kept. -/
theorem KeepsAt.captured {ts : List Token} {r : Rule α} (hr : KeepsAt P ts r Q) :
    KeepsAt P ts (captured r) fun x => Q x.1 ∧ P x.2 := by
  rintro printed s' ⟨a, p⟩ nested h
  obtain ⟨⟨us, q⟩, rule, rfl, rfl⟩ := captured_eq_ok h
  obtain ⟨⟨c, q', tokens, same, hc, hq⟩, holds⟩ := hr [] nested rule
  rw [List.append_nil] at same
  dsimp only at same
  subst same
  rw [List.reverse_reverse]
  exact ⟨⟨c, [], tokens, rfl, hc, Joins.nil⟩, holds, hq⟩

theorem Gives.captured {r : Rule α} (hr : Gives P r Q) :
    Gives P (captured r) fun x => Q x.1 ∧ P x.2 := fun ts => (hr ts).captured

theorem gives_captured (r : Rule α) [hr : Keeps P r] : Gives P (captured r) fun x => P x.2 :=
  fun ts printed _ _ nested h =>
    (hr.gives.captured ts printed nested h).imp_right And.right

instance (r : Rule α) [Keeps P r] : Keeps P (captured r) := (gives_captured r).keeps

theorem Gives.spanned {r : Rule α} (hr : Gives P r Q) : Gives P (spanned r) fun x => Q x.1 :=
  .after fun _ => hr.bind fun _ holds => .after fun _ => .pure holds

instance (r : Rule α) [hr : Keeps P r] : Keeps P (spanned r) := (Gives.spanned hr.gives).keeps

/-! ## Repetitions -/

theorem Gives.repeatFor {step : Rule (Option α)} (hs : Gives P step fun a? => ∀ a ∈ a?, Q a)
    (fuel : Nat) : Gives P (repeatFor step fuel) fun as => ∀ a ∈ as, Q a := by
  induction fuel with
  | zero => exact .pure (List.forall_mem_nil _)
  | succ fuel ih =>
    refine hs.bind fun a? holds => ?_
    cases a? with
    | none => exact .pure (List.forall_mem_nil _)
    | some a =>
      exact ih.bind fun as more => .pure (List.forall_mem_cons.mpr ⟨holds a rfl, more⟩)

theorem Gives.collect {step : Rule (Option α)} (hs : Gives P step fun a? => ∀ a ∈ a?, Q a) :
    Gives P (collect step) fun as => ∀ a ∈ as, Q a :=
  .after fun _ => hs.repeatFor _

instance (step : Rule (Option α)) [hs : Keeps P step] : Keeps P (collect step) :=
  (Gives.collect (Q := fun _ => True) (hs.gives.mono fun _ _ _ _ => trivial)).keeps

instance (step : Rule Bool) [Keeps P step] : Keeps P (loop step) := by unfold loop; infer_instance

theorem Gives.commasUntil [Admits P ","] {stops : Rule Bool} [Keeps P stops] {item : Rule α}
    (hi : Gives P item Q) : Gives P (commasUntil stops item) fun as => ∀ a ∈ as, Q a := by
  refine .collect (.after fun ends => ?_)
  split
  · exact .none
  refine hi.bind fun a holds => .after fun last => ?_
  split
  · exact .some holds
  · exact .after fun _ => .some holds

instance (stops : Rule Bool) (item : Rule α) [Admits P ","] [Keeps P stops] [hi : Keeps P item] :
    Keeps P (commasUntil stops item) :=
  (Gives.commasUntil hi.gives).keeps

theorem Gives.commaList [Admits P ","] {item : Rule α} (hi : Gives P item Q) :
    Gives P (commaList item) fun as => ∀ a ∈ as, Q a :=
  hi.commasUntil

instance (item : Rule α) [Admits P ","] [hi : Keeps P item] : Keeps P (commaList item) :=
  (Gives.commaList hi.gives).keeps

instance keeps_sumFor (sign : String) [Admits P sign] (goesOn : Rule Bool) (item : Rule α)
    [Keeps P goesOn] [Keeps P item] (fuel : Nat) : Keeps P (sumFor sign goesOn item fuel) := by
  induction fuel with
  | zero => exact inferInstanceAs (Keeps P (pure _))
  | succ fuel ih => unfold sumFor; infer_instance

instance (sign : String) [Admits P sign] (goesOn : Rule Bool) (item : Rule α) [Keeps P goesOn]
    [Keeps P item] : Keeps P (sum sign goesOn item) := by
  unfold sum; infer_instance

instance keeps_forIn {σ : Type} (as : List α) (init : σ) (step : α → σ → Rule (ForInStep σ))
    [hs : ∀ a b, Keeps P (step a b)] : Keeps P (forIn as init step) := by
  induction as generalizing init with
  | nil => exact inferInstanceAs (Keeps P (pure init))
  | cons a as ih =>
    rw [List.forIn_cons]
    have := hs a init
    refine ⟨.after fun next => ?_⟩
    cases next with
    | done b => exact .pure trivial
    | yield b => exact (ih b).gives

theorem Gives.mapM {f : α → Rule β} (hf : ∀ a, Gives P (f a) R) (as : List α) :
    Gives P (as.mapM f) fun bs => ∀ b ∈ bs, R b := by
  induction as with
  | nil =>
    rw [List.mapM_nil]
    exact .pure (List.forall_mem_nil _)
  | cons a as ih =>
    rw [List.mapM_cons]
    refine (hf a).bind fun b first => ih.bind fun bs more => ?_
    exact .pure (List.forall_mem_cons.mpr ⟨first, more⟩)

end

end Rule

end RecordRows.Source
