import Mathlib.Data.List.Forall2
import RecordRows.Derive.Shape

/-!
What rules read. A rule reads a phrase in front of another one when it succeeds on the tokens of
both and leaves those of the second. Readings follow one another as the rules do.
-/
namespace RecordRows.Source

open Phrase

variable {α β ι : Type} {p u q : Phrase} {A : α → Prop} {B : β → Prop}

/-- A rule reads a phrase in front of another one, and its answer has a property. -/
def Rule.Reads (r : Rule α) (p q : Phrase) (A : α → Prop := fun _ => True) : Prop :=
  ∀ printed, ∃ a printed', r ⟨(p ++ q).unplaced, printed⟩ = .ok (a, ⟨q.unplaced, printed'⟩) ∧ A a

namespace Rule

/-! ## One rule behind the other -/

namespace Reads

theorem pure {a : α} (h : A a) : Reads (pure a : Rule α) [] q A := fun _ => ⟨a, _, rfl, h⟩

theorem mono {r : Rule α} {A' : α → Prop} (h : Reads r p q A) (weaker : ∀ a, A a → A' a) :
    Reads r p q A' := by
  intro printed
  obtain ⟨a, printed', read, holds⟩ := h printed
  exact ⟨a, printed', read, weaker a holds⟩

theorem bind {r : Rule α} {f : α → Rule β} (first : Reads r p (u ++ q) A)
    (rest : ∀ a, A a → Reads (f a) u q B) : Reads (r >>= f) (p ++ u) q B := by
  intro printed
  obtain ⟨a, printed₁, read, holds⟩ := first printed
  obtain ⟨b, printed₂, read', holds'⟩ := rest a holds printed₁
  refine ⟨b, printed₂, ?_, holds'⟩
  show r ⟨_, printed⟩ >>= (fun x => f x.1 x.2) = _
  rw [List.append_assoc, read]
  exact read'

/-- A rule that ends what is read. -/
theorem last {r : Rule α} {f : α → Rule β} (first : Reads r p q A)
    (rest : ∀ a, A a → Reads (f a) [] q B) : Reads (r >>= f) p q B :=
  List.append_nil p ▸ bind (u := []) first rest

/-- A rule that reads nothing. -/
theorem skip {r : Rule α} {f : α → Rule β} (first : Reads r [] (p ++ q) A)
    (rest : ∀ a, A a → Reads (f a) p q B) : Reads (r >>= f) p q B :=
  bind (p := []) first rest

/-- A rule whose answer is known. -/
theorem bind_eq {r : Rule α} {f : α → Rule β} {a : α} (first : Reads r p (u ++ q) (· = a))
    (rest : Reads (f a) u q B) : Reads (r >>= f) (p ++ u) q B :=
  bind first fun _ same => same ▸ rest

theorem last_eq {r : Rule α} {f : α → Rule β} {a : α} (first : Reads r p q (· = a))
    (rest : Reads (f a) [] q B) : Reads (r >>= f) p q B :=
  last first fun _ same => same ▸ rest

theorem skip_eq {r : Rule α} {f : α → Rule β} {a : α} (first : Reads r [] (p ++ q) (· = a))
    (rest : Reads (f a) p q B) : Reads (r >>= f) p q B :=
  skip first fun _ same => same ▸ rest

/-- What remains after the first steps of a rule is read. -/
theorem step {r f : Rule α} (h : ∀ printed, ∃ printed',
    r ⟨(p ++ q).unplaced, printed⟩ = f ⟨(u ++ q).unplaced, printed'⟩) (rest : Reads f u q A) :
    Reads r p q A := by
  intro printed
  obtain ⟨printed₁, same⟩ := h printed
  obtain ⟨a, printed₂, read, holds⟩ := rest printed₁
  exact ⟨a, printed₂, same.trans read, holds⟩

theorem ahead {f : List Token → Rule α} (rest : Reads (f (p ++ q).unplaced) p q A) :
    Reads (ahead >>= f) p q A := rest

theorem sees {test : List Token → Bool} {f : Bool → Rule α} {b : Bool}
    (h : test (p ++ q).unplaced = b) (rest : Reads (f b) p q A) :
    Reads (sees test >>= f) p q A := by
  subst h
  exact rest

theorem seen {test : List Token → Bool} {b : Bool} (h : test q.unplaced = b) :
    Reads (Rule.sees test) [] q (· = b) := fun printed => ⟨_, printed, rfl, h⟩

theorem take {l : Lexeme} : Reads take [l] q := fun _ => ⟨(), _, rfl, trivial⟩

theorem print {b : Phrase} : Reads (print b) [] q := fun _ => ⟨(), _, rfl, trivial⟩

theorem comma : Reads (operator ",") (Phrase.operator ",") q := fun _ => ⟨(), _, rfl, trivial⟩

theorem group {d : Delimiter} {content : Rule α} (h : Reads content p (.closing d :: q) A) :
    Reads (group d content) (grouped d p) q A := by
  refine .sees (b := true) (by cases d <;> rfl) ?_
  refine .bind (p := [.opening d]) .take fun _ _ => .bind (u := [.closing d]) h fun a holds => ?_
  exact .ahead (.last .take fun _ _ => .pure holds)

theorem captured {r : Rule α} (h : Reads r p q A) : Reads (Rule.captured r) p q fun x => A x.1 := by
  intro printed
  obtain ⟨a, printed₁, read, holds⟩ := h []
  refine ⟨(a, printed₁.reverse), printed, ?_, holds⟩
  show r ⟨_, []⟩ >>= _ = _
  rw [read]
  rfl

theorem captured_nothing {r : Rule α} {a : α}
    (h : ∀ printed, r ⟨q.unplaced, printed⟩ = .ok (a, ⟨q.unplaced, printed⟩)) :
    Reads (Rule.captured r) [] q (· = (a, [])) := by
  intro printed
  refine ⟨(a, []), printed, ?_, rfl⟩
  show r ⟨q.unplaced, []⟩ >>= _ = _
  rw [h]
  rfl

theorem operator?_absent {s : String} (h : Ahead.isOperator s q.unplaced = false) :
    Reads (operator? s) [] q (· = false) := .sees h (.pure rfl)

theorem word?_absent {w : String} (h : Ahead.isWord w q.unplaced = false) :
    Reads (word? w) [] q (· = false) := .sees h (.pure rfl)

end Reads

/-! ## Repetitions -/

/-- The steps of a repetition read a phrase one behind the other. -/
inductive Stepwise (step : Rule (Option α)) (q : Phrase) : Phrase → Prop
  | stop (h : Reads step [] q (· = none)) : Stepwise step q []
  | go {p u : Phrase} (nonempty : p ≠ []) (h : Reads step p (u ++ q) (·.isSome = true))
      (more : Stepwise step q u) : Stepwise step q (p ++ u)

theorem Stepwise.repeatFor {step : Rule (Option α)} (h : Stepwise step q p) :
    ∀ fuel, p.length < fuel → Reads (repeatFor step fuel) p q := by
  induction h with
  | stop h =>
    rintro (_ | fuel) more
    · exact absurd more (Nat.not_lt_zero _)
    · exact .last_eq h (.pure trivial)
  | @go p u nonempty h _ ih =>
    rintro (_ | fuel) more
    · exact absurd more (Nat.not_lt_zero _)
    · -- a step that goes on takes a token, so that the rest needs less fuel
      have shorter := List.length_pos_iff.mpr nonempty
      rw [List.length_append] at more
      refine .bind h fun a some => ?_
      obtain ⟨a, rfl⟩ := Option.isSome_iff_exists.mp some
      exact .last (A := fun _ => True) (ih fuel (by omega)) fun _ _ => .pure trivial

theorem Stepwise.collect {step : Rule (Option α)} (h : Stepwise step q p) :
    Reads (collect step) p q := by
  refine .ahead (h.repeatFor _ ?_)
  simp only [unplaced, List.length_map, List.length_append]
  omega

theorem Reads.collect_none {step : Rule (Option α)} (stop : Reads step [] q (· = none)) :
    Reads (collect step) [] q (· = []) :=
  .ahead (.last_eq stop (.pure rfl))

/-- Items with a comma behind each, and perhaps one more without. -/
def listed (items : List Phrase) (last? : Option Phrase) : Phrase :=
  items.flatMap (· ++ Phrase.operator ",") ++ last?.getD []

theorem Stepwise.listed {step : Rule (Option α)} {items : List Phrase} {last? : Option Phrase}
    (stop : Reads step [] q (· = none))
    (comma : ∀ i ∈ items, ∀ r, Reads step (i ++ Phrase.operator ",") r (·.isSome = true))
    (last : ∀ i ∈ last?, i ≠ [] ∧ Reads step i q (·.isSome = true)) :
    Stepwise step q (listed items last?) := by
  induction items with
  | nil =>
    cases last? with
    | none => exact .stop stop
    | some i =>
      obtain ⟨nonempty, read⟩ := last i rfl
      have one := Stepwise.go (u := []) nonempty read (.stop stop)
      rwa [List.append_nil] at one
  | cons i items ih =>
    have more := ih fun j member => comma j (List.mem_cons_of_mem _ member)
    have shape : Rule.listed (i :: items) last?
        = (i ++ Phrase.operator ",") ++ Rule.listed items last? := by
      simp [Rule.listed]
    rw [shape]
    exact .go (by simp [Phrase.operator, Phrase.operator.go]) (comma i List.mem_cons_self _) more

/-- What follows an item of a list. -/
def AfterItem (stop : Phrase) (r : Phrase) : Prop := r = stop ∨ ∃ t, r = Phrase.operator "," ++ t

theorem Reads.commaList {item : Rule α} {items : List Phrase} {last? : Option Phrase}
    {d : Delimiter}
    (starts : ∀ i ∈ items ++ last?.toList, ∀ r, Ahead.isEnd (i ++ r).unplaced = false)
    (each : ∀ i ∈ items ++ last?.toList, ∀ r, AfterItem (.closing d :: q) r → Reads item i r) :
    Reads (commaList item) (listed items last?) (.closing d :: q) := by
  refine (Stepwise.listed (.sees (b := true) rfl (.pure (A := (· = none)) rfl))
    (fun i member r => ?_) fun i member => ⟨?_, ?_⟩).collect
  · have member := List.mem_append_left last?.toList member
    refine .sees (b := false) (by rw [List.append_assoc]; exact starts i member _) ?_
    refine .bind (each i member _ (.inr ⟨r, rfl⟩)) fun a _ => ?_
    exact .sees (b := false) rfl (.last .comma fun _ _ => .pure rfl)
  · rintro rfl
    have member := List.mem_append_right items (Option.mem_toList.mpr member)
    cases starts [] member (.closing d :: q)
  · have member := List.mem_append_right items (Option.mem_toList.mpr member)
    refine .sees (b := false) (starts i member _) ?_
    refine .last (each i member _ (.inl rfl)) fun a _ => ?_
    exact .sees (b := true) rfl (.pure rfl)

/-- Phrases with a sign before each of them. -/
def signed (sign : String) (text : ι → Phrase) (items : List ι) : Phrase :=
  items.flatMap fun i => Phrase.operator sign ++ text i

theorem signed_nil (sign : String) (text : ι → Phrase) : signed sign text [] = [] := rfl

/-- What follows an item: what follows all of them, or a sign and one more item. -/
def AfterSigned (sign : String) (text : ι → Phrase) (items : List ι) (q r : Phrase) : Prop :=
  r = q ∨ ∃ i ∈ items, ∃ t, r = Phrase.operator sign ++ (text i ++ t)

/-- Items are read with signs between them. -/
theorem Reads.sumFor {sign : String} {goesOn : Rule Bool} {item : Rule α} {text : ι → Phrase}
    {A : ι → α → Prop} (present : ∀ r, Reads (operator? sign) (Phrase.operator sign) r (· = true))
    (absent : Ahead.isOperator sign q.unplaced = false) :
    ∀ (fuel : Nat) (first : ι) (rest : List ι), rest.length < fuel →
      (∀ i ∈ rest, ∀ r, Reads goesOn [] (text i ++ r) (· = true)) →
      (∀ i ∈ first :: rest, ∀ r, AfterSigned sign text rest q r → Reads item (text i) r (A i)) →
      Reads (sumFor sign goesOn item fuel) (text first ++ signed sign text rest) q
        fun x => List.Forall₂ A (first :: rest) x.1 ∧ x.2 = false := by
  intro fuel
  induction fuel with
  | zero => exact fun _ _ few => absurd few (Nat.not_lt_zero _)
  | succ fuel ih =>
    rintro first (_ | ⟨second, rest⟩) few goes items
    · refine .bind (items first List.mem_cons_self _ (.inl rfl)) fun a holds => ?_
      exact .last_eq (.operator?_absent absent) (.pure ⟨.cons holds .nil, rfl⟩)
    · have shape : signed sign text (second :: rest)
          = Phrase.operator sign ++ (text second ++ signed sign text rest) := by
        simp [signed]
      rw [shape]
      refine .bind (items first List.mem_cons_self _ (.inr ⟨second, List.mem_cons_self,
        signed sign text rest ++ q, by simp⟩)) fun a holds => ?_
      refine .bind_eq (present _) ?_
      -- whether another item follows is asked in front of that item and all behind it
      have goesOn := goes second List.mem_cons_self (signed sign text rest ++ q)
      rw [← List.append_assoc] at goesOn
      refine .skip_eq goesOn ?_
      have further := ih second rest (Nat.lt_of_succ_lt_succ few)
        (fun i member => goes i (List.mem_cons_of_mem _ member))
        fun i member r after => items i (List.mem_cons_of_mem _ member) r
          (after.imp_right fun ⟨j, inside, t⟩ => ⟨j, List.mem_cons_of_mem _ inside, t⟩)
      refine .last further ?_
      rintro ⟨as, trailing⟩ ⟨hold, rfl⟩
      exact .pure ⟨.cons holds hold, rfl⟩

theorem length_le_length_signed {sign : String} (long : 0 < (Phrase.operator sign).length)
    (text : ι → Phrase) (items : List ι) : items.length ≤ (signed sign text items).length := by
  induction items with
  | nil => exact Nat.zero_le _
  | cons i items ih =>
    have shape : signed sign text (i :: items)
        = Phrase.operator sign ++ text i ++ signed sign text items := rfl
    rw [shape, List.length_append, List.length_append, List.length_cons]
    omega

theorem Reads.sum {sign : String} {goesOn : Rule Bool} {item : Rule α} (text : ι → Phrase)
    {A : ι → α → Prop} (first : ι) {rest : List ι} (long : 0 < (Phrase.operator sign).length)
    (present : ∀ r, Reads (operator? sign) (Phrase.operator sign) r (· = true))
    (absent : Ahead.isOperator sign q.unplaced = false)
    (goes : ∀ i ∈ rest, ∀ r, Reads goesOn [] (text i ++ r) (· = true))
    (items : ∀ i ∈ first :: rest, ∀ r, AfterSigned sign text rest q r →
      Reads item (text i) r (A i)) :
    Reads (sum sign goesOn item) (text first ++ signed sign text rest) q
      fun x => List.Forall₂ A (first :: rest) x.1 ∧ x.2 = false := by
  refine .ahead (.sumFor present absent _ first rest ?_ goes items)
  have fewer := length_le_length_signed long text rest
  simp only [unplaced, List.length_map, List.length_append]
  omega

/-- A rule that reads a phrase to its end reads its tokens. -/
theorem Reads.readAll {r : Rule α} (h : Reads r p [] A) : ∃ x, readAll r p.unplaced = .ok x := by
  obtain ⟨a, printed', read, -⟩ := h []
  rw [List.append_nil] at read
  refine ⟨(a, printed'.reverse), ?_⟩
  show (r ⟨p.unplaced, []⟩ >>= _) >>= _ = _
  rw [read]
  rfl

end Rule

end RecordRows.Source
