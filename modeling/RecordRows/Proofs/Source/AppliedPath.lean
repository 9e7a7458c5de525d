import RecordRows.Proofs.Source.Rereading
import RecordRows.Proofs.Source.WordText

/-!
Paths whose arguments are paths again, to any depth. The rule for paths prints of such a path what
it reads (`Applied.rewrites`), and what is printed is scanned again, so that a printed path is read
as itself (`Applied.read_text`). Of ordinary types it is told only that they are read (`Reads`); here
it matters what is printed of them, and not where their tokens stand.
-/
namespace RecordRows.Source

open Rule Phrase

/-! ## Paths applied to paths -/

/-- The words that a path may have: identifiers that are no keywords, and five keywords. -/
def IsPathWord (w : String) : Prop :=
  IsIdentifier w ∧ (Ahead.isKeyword w = false ∨ w ∈ "try" :: relativeWords)

inductive PathPart where
  | word | path

/-- A path, and a word of it with its arguments, which are paths again. An argument is a type, and
types do not start with `try`. -/
inductive Applied : PathPart → Phrase → Prop
  | plain {w : String} (h : IsPathWord w) : Applied .word [.word w]
  | arguments {w : String} {items : List Phrase} {last? : Option Phrase}
      (identifier : IsIdentifier w) (free : Ahead.isKeyword w = false ∨ w = "Self") (colons : Bool)
      (h : ∀ i ∈ items ++ last?.toList, Applied .path i)
      (bare : ∀ i ∈ items ++ last?.toList, i.head? ≠ some (.word "try")) :
      Applied .word (.word w :: ((if colons then Phrase.operator "::" else [])
        ++ (Phrase.operator "<" ++ (listed items last? ++ Phrase.operator ">"))))
  | path (rooted : Bool) {first : Phrase} {rest : List Phrase}
      (h : ∀ v ∈ first :: rest, Applied .word v) :
      Applied .path
        ((if rooted then Phrase.operator "::" else []) ++ (first ++ signed "::" id rest))

variable {p u q : Phrase} {w : String}

theorem Applied.word_start (h : Applied .word p) : ∃ w t, p = .word w :: t := by
  cases h with
  | plain => exact ⟨_, _, rfl⟩
  | arguments => exact ⟨_, _, rfl⟩

theorem spaced_listed {items : List Phrase} {last? : Option Phrase}
    (h : ∀ i ∈ items ++ last?.toList, Spaced i) : Spaced (listed items last?) := by
  refine .append (.flatMap fun i member => ?_) ?_
  · exact (h i (List.mem_append_left _ member)).append (.sign (by decide) .nil)
  · cases last? with
    | none => exact .nil
    | some i => exact h i (by simp)

/-- Such a path is printed with blanks between its words and signs. -/
theorem Applied.spaced {part : PathPart} (h : Applied part p) : Spaced p := by
  induction h with
  | plain h => exact .word h.1 .nil
  | arguments identifier _ colons _ _ ih =>
    have angles : Spaced (Phrase.operator "<" ++ (listed _ _ ++ Phrase.operator ">")) :=
      .sign (by decide) ((spaced_listed ih).append (.sign (by decide) .nil))
    cases colons with
    | true => exact .word identifier (.colons angles)
    | false => exact .word identifier angles
  | path rooted _ ih =>
    obtain ⟨first, rest⟩ := List.forall_mem_cons.mp ih
    have words := first.append (.flatMap fun v member => .colons (rest v member))
    cases rooted with
    | true => exact .colons words
    | false => exact words

/-! ## Rules that print what they read -/

/-- The tokens of a phrase, where `σ` tells the place of each by the number of those behind it. -/
def Phrase.placed (σ : Nat → Span) : Phrase → List Token
  | [] => []
  | l :: p => ⟨l, σ p.length⟩ :: placed σ p

variable {σ : Nat → Span}

theorem length_placed (p : Phrase) : (p.placed σ).length = p.length := by
  induction p with
  | nil => rfl
  | cons l p ih => rw [placed, List.length_cons, List.length_cons, ih]

/-- The places of any tokens are told by how many follow. -/
theorem exists_placed (ts : List Token) : ∃ σ, Phrase.placed σ (ts.map (·.lexeme)) = ts := by
  let place (k : Nat) : Span := ((ts.reverse[k]?).map (·.span)).getD ⟨0, 0⟩
  have suffixes : ∀ us vs, ts = us ++ vs → Phrase.placed place (vs.map (·.lexeme)) = vs := by
    intro us vs split
    induction vs generalizing us with
    | nil => rfl
    | cons v vs ih =>
      have behind : place (vs.map (·.lexeme)).length = v.span := by
        simp [place, split]
      rw [List.map_cons, placed, behind, ih (us ++ [v]) (by simp [split])]
  exact ⟨place, suffixes [] ts rfl⟩

/-- A rule reads a phrase in front of another one, prints a third one, and answers. -/
def Rule.Rewrites {α : Type} (σ : Nat → Span) (r : Rule α) (p u q : Phrase) (a : α) : Prop :=
  ∀ printed, r ⟨(p ++ q).placed σ, printed⟩ = .ok (a, ⟨q.placed σ, u.reverse ++ printed⟩)

namespace Rule.Rewrites

variable {α β : Type} {r : Rule α} {f : α → Rule β} {a : α} {b : β} {t v : Phrase}

theorem pure : Rewrites σ (pure a : Rule α) [] [] q a := fun _ => rfl

theorem print : Rewrites σ (print u) [] u q () := fun _ => rfl

theorem bind (first : Rewrites σ r p u (t ++ q) a) (rest : Rewrites σ (f a) t v q b) :
    Rewrites σ (r >>= f) (p ++ t) (u ++ v) q b := by
  intro printed
  show r ⟨_, printed⟩ >>= (fun x => f x.1 x.2) = _
  rw [List.append_assoc, first printed, List.reverse_append, List.append_assoc]
  exact rest _

theorem last (first : Rewrites σ r p u q a) (rest : Rewrites σ (f a) [] [] q b) :
    Rewrites σ (r >>= f) p u q b := by
  have both := bind (t := []) first rest
  rwa [List.append_nil, List.append_nil] at both

/-- A rule behind which nothing more is read. -/
theorem silent (first : Rewrites σ r p [] q a) (rest : Rewrites σ (f a) [] u q b) :
    Rewrites σ (r >>= f) p u q b := by
  have both := bind (t := []) first rest
  rwa [List.append_nil] at both

theorem skip (first : Rewrites σ r [] [] (p ++ q) a) (rest : Rewrites σ (f a) p u q b) :
    Rewrites σ (r >>= f) p u q b :=
  bind (p := []) (u := []) first rest

theorem ahead {f : List Token → Rule α} (rest : Rewrites σ (f ((p ++ q).placed σ)) p u q a) :
    Rewrites σ (ahead >>= f) p u q a := rest

theorem sees {test : List Token → Bool} {f : Bool → Rule α} {b : Bool}
    (h : test ((p ++ q).placed σ) = b) (rest : Rewrites σ (f b) p u q a) :
    Rewrites σ (sees test >>= f) p u q a := by
  subst h
  exact rest

theorem seen {test : List Token → Bool} {b : Bool} (h : test (q.placed σ) = b) :
    Rewrites σ (Rule.sees test) [] [] q b := .sees h .pure

/-- What is captured is answered instead of printed. -/
theorem captured (h : Rewrites σ r p u q a) : Rewrites σ (captured r) p [] q (a, u) := by
  intro printed
  show r ⟨_, []⟩ >>= _ = _
  rw [h []]
  show Except.ok ((a, (u.reverse ++ []).reverse), _) = _
  rw [List.append_nil, List.reverse_reverse]
  rfl

theorem operator?_absent {s : String} (h : Ahead.isOperator s (q.placed σ) = false) :
    Rewrites σ (operator? s) [] [] q false := .sees h .pure

end Rule.Rewrites

/-! ## What stands behind paths -/

/-- What may stand behind a path, or behind one of its words. -/
inductive PathPart.Ends : PathPart → Phrase → Prop
  | nothing {part : PathPart} : Ends part []
  | comma {part : PathPart} (t : Phrase) : Ends part (Phrase.operator "," ++ t)
  | angle {part : PathPart} (t : Phrase) : Ends part (Phrase.operator ">" ++ t)
  | word (w : String) (t : Phrase) : Ends .word (Phrase.operator "::" ++ .word w :: t)

theorem PathPart.Ends.word_of_path (h : PathPart.Ends .path q) : PathPart.Ends .word q := by
  cases h with
  | nothing => exact .nothing
  | comma t => exact .comma t
  | angle t => exact .angle t

/-- No sign goes on with a path. -/
theorem PathPart.Ends.noSign (h : PathPart.Ends .path q) {s : String}
    (sign : s ∈ ["::", "+", "=", ":", "!"]) : Ahead.isOperator s (q.placed σ) = false := by
  cases h <;> fin_cases sign <;> rfl

/-! ## Words -/

variable {n n' : Nested}

theorem rewrites_wordArguments (ends : PathPart.Ends .word q) :
    Rewrites σ (wordArguments n false w) [] [] q (w, false) := by
  have none : (!false && Ahead.isOperator "<" (q.placed σ) && !Ahead.isOperator "<=" (q.placed σ)
      || Ahead.isOperator "::" (q.placed σ)
        && Ahead.isOperator "<" ((q.placed σ).drop 2)) = false := by
    cases ends <;> rfl
  exact .ahead ((if_neg (ne_true_of_eq_false none)).symm ▸ .pure)

/-- A word and what it is applied to. -/
theorem rewrites_pathWord {a : String × Bool} (free : Ahead.isKeyword w = false ∨ w = "Self")
    (rest : Rewrites σ (wordArguments n false w) p p q a) :
    Rewrites σ (pathWord n false) (.word w :: p) (.word w :: p) q a := by
  rcases free with free | rfl
  · have identifies : Ahead.isIdentifier (Phrase.placed σ (.word w :: p ++ q)) = true :=
      isIdentifier_of_free free
    have notRelative : ["super", "self", "crate", "try"].any
        (Ahead.isWord · (Phrase.placed σ (.word w :: p ++ q))) = false :=
      any_isWord_keyword free (by decide)
    have notSelf : Ahead.isWord "Self" (Phrase.placed σ (.word w :: p ++ q)) = false :=
      isWord_keyword free (by decide)
    refine .ahead ?_
    rw [if_neg (ne_true_of_eq_false notRelative)]
    dsimp only
    rw [if_neg (ne_true_of_eq_false notSelf)]
    exact .bind (p := [.word w]) (u := [.word w]) (a := w) (.sees identifies fun _ => rfl) rest
  · intro printed
    rw [List.reverse_cons, List.append_assoc]
    exact rest (.word "Self" :: printed)

theorem rewrites_plain (h : IsPathWord w) (ends : PathPart.Ends .word q) :
    Rewrites σ (pathWord n false) [.word w] [.word w] q (w, false) := by
  rcases h.2 with free | relative
  · exact rewrites_pathWord (.inl free) (rewrites_wordArguments ends)
  · fin_cases relative
    · exact fun _ => rfl
    · exact fun _ => rfl
    · exact fun _ => rfl
    · exact fun _ => rfl
    · exact rewrites_pathWord (.inr rfl) (rewrites_wordArguments ends)

/-! ## Arguments -/

/-- One more item of a list in angles, if there is one. -/
def listedItem (item : Rule Bool) : Rule (Option Listed) := do
  if ← seesOperator ">" then return none
  let (isLifetime, phrase) ← captured item
  if ← seesOperator ">" then return some (Listed.mk isLifetime phrase false)
  operator ","
  return some (Listed.mk isLifetime phrase true)

theorem listed_cons (i : Phrase) (items : List Phrase) (last? : Option Phrase) :
    listed (i :: items) last? = (i ++ Phrase.operator ",") ++ listed items last? := by
  simp [listed]

theorem length_items_le (items : List Phrase) (last? : Option Phrase) :
    items.length ≤ (listed items last?).length := by
  induction items with
  | nil => exact Nat.zero_le _
  | cons i items ih =>
    rw [listed_cons, List.length_append, List.length_cons, List.length_append]
    have comma : (Phrase.operator ",").length = 1 := rfl
    omega

/-- Items that are no lifetimes, with their commas. -/
def asListed (items : List Phrase) (last? : Option Phrase) : List Listed :=
  items.map (Listed.mk false · true) ++ last?.toList.map (Listed.mk false · false)

theorem printAfter_asListed (items : List Phrase) (last? : Option Phrase) :
    Listed.printAfter false (asListed items last?) = listed items last? := by
  induction items with
  | nil => cases last? <;> simp [asListed, Listed.printAfter, Listed.text, listed]
  | cons i items ih =>
    have first : asListed (i :: items) last? = ⟨false, i, true⟩ :: asListed items last? := rfl
    rw [first, Listed.printAfter, listed_cons, ← ih]
    rfl

/-- Items that are no lifetimes stay in their order. -/
theorem lifetimesFirst_asListed (items : List Phrase) (last? : Option Phrase) :
    Listed.lifetimesFirst (asListed items last?) = listed items last? := by
  have lifetime : ∀ i ∈ asListed items last?, i.isLifetime = false := by
    intro i member
    rcases List.mem_append.mp member with member | member <;>
      obtain ⟨p, -, rfl⟩ := List.mem_map.mp member <;> rfl
  have none : (asListed items last?).filter (·.isLifetime) = [] :=
    List.filter_eq_nil_iff.mpr fun i member => by simp [lifetime i member]
  have all : (asListed items last?).filter (fun i => !i.isLifetime) = asListed items last? :=
    List.filter_eq_self.mpr fun i member => by simp [lifetime i member]
  rw [Listed.lifetimesFirst, none, all]
  exact printAfter_asListed items last?

theorem rewrites_listedItem {item : Rule Bool} {i : Phrase}
    (starts : ∀ r, Ahead.isOperator ">" ((i ++ r).placed σ) = false)
    (each : ∀ r, PathPart.Ends .path r → Rewrites σ item i i r false) :
    (∀ r, Rewrites σ (listedItem item) (i ++ Phrase.operator ",") (Phrase.operator ",") r
      (some ⟨false, i, true⟩)) ∧
    ∀ r, Rewrites σ (listedItem item) i [] (Phrase.operator ">" ++ r) (some ⟨false, i, false⟩) := by
  constructor
  · intro r
    refine .sees (b := false) (by rw [List.append_assoc]; exact starts _) ?_
    refine .bind (u := []) (.captured (each _ (.comma r))) ?_
    exact .sees (b := false) rfl (.last (a := ()) (fun _ => rfl) .pure)
  · intro r
    refine .sees (b := false) (starts _) ?_
    refine .last (.captured (each _ (.angle r))) ?_
    exact .sees (b := true) rfl .pure

theorem rewrites_listedItems {item : Rule Bool} {items : List Phrase} {last? : Option Phrase}
    (starts : ∀ i ∈ items ++ last?.toList, ∀ r, Ahead.isOperator ">" ((i ++ r).placed σ) = false)
    (each : ∀ i ∈ items ++ last?.toList, ∀ r, PathPart.Ends .path r →
      Rewrites σ item i i r false) :
    ∀ fuel, items.length + 1 < fuel → ∃ u, Rewrites σ (repeatFor (listedItem item) fuel)
      (listed items last?) u (Phrase.operator ">" ++ q) (asListed items last?) := by
  have stop : Rewrites σ (listedItem item) [] [] (Phrase.operator ">" ++ q) none := fun _ => rfl
  induction items with
  | nil =>
    intro fuel enough
    obtain ⟨fuel, rfl⟩ : ∃ k, fuel = k + 2 := ⟨fuel - 2, by omega⟩
    cases last? with
    | none => exact ⟨[], .last stop .pure⟩
    | some i =>
      have read := (rewrites_listedItem (starts i (by simp)) (each i (by simp))).2 q
      exact ⟨[], .last read (.last (.last stop .pure) .pure)⟩
  | cons i items ih =>
    intro fuel enough
    obtain ⟨fuel, rfl⟩ : ∃ k, fuel = k + 1 := ⟨fuel - 1, by omega⟩
    obtain ⟨u, more⟩ := ih (fun j member => starts j (List.mem_cons_of_mem _ member))
      (fun j member => each j (List.mem_cons_of_mem _ member)) fuel
      (Nat.lt_of_succ_lt_succ enough)
    have read := (rewrites_listedItem (starts i List.mem_cons_self) (each i List.mem_cons_self)).1
      (listed items last? ++ (Phrase.operator ">" ++ q))
    rw [listed_cons]
    exact ⟨_, .bind read (.last more .pure)⟩

/-- A list in angles is printed as it is read. -/
theorem rewrites_angled {item : Rule Bool} {items : List Phrase} {last? : Option Phrase}
    (starts : ∀ i ∈ items ++ last?.toList, ∀ r, Ahead.isOperator ">" ((i ++ r).placed σ) = false)
    (each : ∀ i ∈ items ++ last?.toList, ∀ r, PathPart.Ends .path r →
      Rewrites σ item i i r false) :
    Rewrites σ (angled item)
      (Phrase.operator "<" ++ (listed items last? ++ Phrase.operator ">"))
      (Phrase.operator "<" ++ (listed items last? ++ Phrase.operator ">")) q () := by
  have enough : items.length + 1
      < (listed items last? ++ (Phrase.operator ">" ++ q)).length + 1 := by
    have few := length_items_le items last?
    rw [List.length_append]
    exact Nat.succ_lt_succ (Nat.lt_of_le_of_lt few (Nat.lt_add_of_pos_right (Nat.succ_pos _)))
  obtain ⟨u, content⟩ := rewrites_listedItems (q := q) starts each _ enough
  rw [← length_placed (σ := σ)] at content
  refine .bind (a := ()) (fun _ => rfl) ?_
  refine .bind (u := []) (.captured (r := collect (listedItem item)) (.ahead content)) ?_
  dsimp only
  rw [lifetimesFirst_asListed]
  exact .bind (p := []) .print (fun _ => rfl)

theorem rewrites_genericArguments {items : List Phrase} {last? : Option Phrase} (colons : Bool)
    (starts : ∀ i ∈ items ++ last?.toList, ∀ r, Ahead.isOperator ">" ((i ++ r).placed σ) = false)
    (each : ∀ i ∈ items ++ last?.toList, ∀ r, PathPart.Ends .path r →
      Rewrites σ (genericArgument n) i i r false) :
    Rewrites σ (wordArguments n false w)
      ((if colons then Phrase.operator "::" else [])
        ++ (Phrase.operator "<" ++ (listed items last? ++ Phrase.operator ">")))
      ((if colons then Phrase.operator "::" else [])
        ++ (Phrase.operator "<" ++ (listed items last? ++ Phrase.operator ">"))) q (w, true) := by
  have angles := rewrites_angled (q := q) starts each
  refine .ahead ?_
  cases colons with
  | true =>
    refine .last (a := ()) ?_ .pure
    exact .bind (p := Phrase.operator "::") (u := Phrase.operator "::") (a := true)
      (fun _ => rfl) angles
  | false =>
    refine .last (a := ()) ?_ .pure
    exact .skip (a := false) (fun _ => rfl) angles

/-! ## Paths as types -/

/-- A path is a type, without a binder before it or bounds behind it. -/
theorem rewrites_type {form : PathForm} (starts : StartsPath ((p ++ q).placed σ))
    (ends : PathPart.Ends .path q) (read : Rewrites σ (path n false) p p q form) :
    Rewrites σ (type n true) p p q (.path form) := by
  have object : (Ahead.isWord "dyn" ((p ++ q).placed σ)
      && Ahead.isOperator "*" (Ahead.next ((p ++ q).placed σ))) = false := by
    rw [starts.notWord "dyn" (by decide), Bool.false_and]
  have general : Ahead.isWord "for" ((p ++ q).placed σ) = false := starts.notWord "for" (by decide)
  have noBinder : Rewrites σ (binder? n) [] [] (p ++ q) false := fun _ => binder?_absent general
  have qualified : Rewrites σ (qualifiedPath n false) p p q (some form) :=
    .skip (.operator?_absent starts.notAngle) (.last read .pure)
  have noInvocation : Rewrites σ (seesInvocation form) [] [] q false := by
    unfold seesInvocation
    split
    · exact .pure
    · exact .seen (by rw [ends.noSign (by decide), Bool.false_and])
  refine .ahead ?_
  rw [if_neg (ne_true_of_eq_false object)]
  refine .skip (.captured noBinder) (.ahead ?_)
  rw [if_neg (by exact Bool.false_ne_true)]
  dsimp only
  rw [if_neg (ne_true_of_eq_false starts.notParen), if_neg (ne_true_of_eq_false starts.notFunction),
    if_pos starts.path]
  refine .silent (.captured qualified) (.skip noInvocation (.last .print ?_))
  exact .sees (b := false) (by rw [List.nil_append, ends.noSign (by decide)]) .pure

/-- How a path starts that is a type: with a word or with the root, but not with `try`. -/
theorem Applied.startsPath (h : Applied .path p) (bare : p.head? ≠ some (.word "try"))
    (q : Phrase) : StartsPath ((p ++ q).placed σ) ∧
      (literalAhead? ((p ++ q).placed σ)).isSome = false ∧
      Ahead.isGroup .brace ((p ++ q).placed σ) = false ∧
      Ahead.isOperator ">" ((p ++ q).placed σ) = false := by
  cases h with
  | @path rooted first rest words =>
    cases rooted with
    | true => exact ⟨startsPath_rooted, rfl, rfl, rfl⟩
    | false =>
      obtain ⟨w, t, rfl, named⟩ : ∃ w t, first = .word w :: t ∧
          (Ahead.isKeyword w = false ∨ w ∈ relativeWords) := by
        cases words first List.mem_cons_self with
        | plain admitted =>
          refine ⟨_, _, rfl, admitted.2.imp_right fun member => ?_⟩
          rcases List.mem_cons.mp member with rfl | member
          · exact absurd rfl bare
          · exact member
        | arguments _ free =>
          refine ⟨_, _, rfl, free.imp_right ?_⟩
          rintro rfl
          decide
      refine ⟨startsPath_word named, ?_, rfl, rfl⟩
      rcases named with free | relative
      · exact congrArg Option.isSome (literalAhead?_word free)
      · fin_cases relative <;> rfl

/-- A path as an argument, where paths are read one level deeper. -/
theorem rewrites_genericArgument {form : PathForm} (deeper : n.type true = type n' true)
    (h : Applied .path p) (bare : p.head? ≠ some (.word "try")) (ends : PathPart.Ends .path q)
    (read : Rewrites σ (Source.path n' false) p p q form) :
    Rewrites σ (genericArgument n) p p q false := by
  obtain ⟨starts, notLiteral, notBrace, -⟩ := h.startsPath (σ := σ) bare q
  refine .ahead ?_
  rw [if_neg (by simp [starts.notLifetime]), if_neg (by simp [notLiteral, notBrace]), deeper]
  refine .last (rewrites_type starts ends read) ?_
  dsimp only
  split
  · refine .skip (.operator?_absent (ends.noSign (by decide))) ?_
    exact .skip (.operator?_absent (ends.noSign (by decide))) .pure
  · exact .pure

/-! ## Paths -/

/-- One more word of a path, if there is one. -/
def furtherWord (n : Nested) (turbofish : Bool) : Rule (Option (String × Bool)) := do
  if ← sees goesOnToWord then
    Rule.operator "::"
    return some (← pathWord n turbofish)
  else return none

theorem rewrites_furtherWords {words : List Phrase} (ends : PathPart.Ends .path q)
    (starts : ∀ v ∈ words, ∃ w t, v = .word w :: t)
    (each : ∀ v ∈ words, ∀ r, PathPart.Ends .word r →
      ∃ a, Rewrites σ (pathWord n false) v v r a) :
    PathPart.Ends .word (signed "::" id words ++ q) ∧ ∀ fuel, words.length < fuel →
      ∃ as, Rewrites σ (repeatFor (furtherWord n false) fuel) (signed "::" id words)
        (signed "::" id words) q as := by
  induction words with
  | nil =>
    refine ⟨ends.word_of_path, fun fuel enough => ?_⟩
    obtain ⟨fuel, rfl⟩ : ∃ k, fuel = k + 1 := ⟨fuel - 1, by omega⟩
    have stop : Rewrites σ (furtherWord n false) [] [] q none :=
      .sees (b := false) (by
        rw [List.nil_append, goesOnToWord, ends.noSign (by decide), Bool.false_and]) .pure
    exact ⟨[], .last stop .pure⟩
  | cons v words ih =>
    obtain ⟨word, words', more⟩ : _ ∧ _ := ⟨starts v List.mem_cons_self, ih
      (fun u member => starts u (List.mem_cons_of_mem _ member))
      fun u member => each u (List.mem_cons_of_mem _ member)⟩
    obtain ⟨w, t, rfl⟩ := word
    have shape : signed "::" id ((.word w :: t) :: words)
        = (Phrase.operator "::" ++ (.word w :: t)) ++ signed "::" id words := by
      simp [signed]
    rw [shape]
    refine ⟨.word w _, fun fuel enough => ?_⟩
    obtain ⟨fuel, rfl⟩ : ∃ k, fuel = k + 1 := ⟨fuel - 1, by omega⟩
    obtain ⟨a, read⟩ := each _ List.mem_cons_self _ words'
    obtain ⟨as, more⟩ := more fuel (Nat.lt_of_succ_lt_succ enough)
    have first : Rewrites σ (furtherWord n false) (Phrase.operator "::" ++ (.word w :: t))
        (Phrase.operator "::" ++ (.word w :: t)) (signed "::" id words ++ q) (some a) :=
      .sees (b := true) rfl (.bind (a := ()) (fun _ => rfl) (.last read .pure))
    exact ⟨_, .bind first (.last more .pure)⟩

theorem rewrites_path (rooted : Bool) {first : Phrase} {rest : List Phrase}
    (ends : PathPart.Ends .path q) (starts : ∀ v ∈ first :: rest, ∃ w t, v = .word w :: t)
    (each : ∀ v ∈ first :: rest, ∀ r, PathPart.Ends .word r →
      ∃ a, Rewrites σ (pathWord n false) v v r a) :
    ∃ form, Rewrites σ (Source.path n false)
      ((if rooted then Phrase.operator "::" else []) ++ (first ++ signed "::" id rest))
      ((if rooted then Phrase.operator "::" else []) ++ (first ++ signed "::" id rest)) q form := by
  obtain ⟨behind, further⟩ := rewrites_furtherWords ends
    (fun v member => starts v (List.mem_cons_of_mem _ member))
    fun v member => each v (List.mem_cons_of_mem _ member)
  obtain ⟨a, word⟩ := each _ List.mem_cons_self _ behind
  have few : rest.length < (Phrase.placed σ (signed "::" id rest ++ q)).length + 1 := by
    have fewer := length_le_length_signed (show 0 < (Phrase.operator "::").length by decide) id rest
    rw [length_placed, List.length_append]
    omega
  obtain ⟨as, further⟩ := further _ few
  obtain ⟨w, t, rfl⟩ := starts first List.mem_cons_self
  have root : Rewrites σ (operator? "::") (if rooted then Phrase.operator "::" else [])
      (if rooted then Phrase.operator "::" else [])
      (((.word w :: t) ++ signed "::" id rest) ++ q) rooted := by
    cases rooted with
    | true => exact fun _ => rfl
    | false => exact .operator?_absent rfl
  exact ⟨⟨rooted, (a :: as).map (·.1), (a :: as).any (·.2), (as.getLastD a).2⟩,
    .bind root (.bind word (.last (r := collect (furtherWord n false)) (.ahead further) .pure))⟩

/-! ## Whole paths -/

/-- The rule for a part, with `d` levels of nesting below it, prints of a phrase what it reads. -/
def PathPart.RewrittenAt (d : Nat) (σ : Nat → Span) : PathPart → Phrase → Prop
  | .word, p => ∀ q, PathPart.Ends .word q →
      ∃ a, Rewrites σ (pathWord (nestedWithin d) false) p p q a
  | .path, p => ∀ q, PathPart.Ends .path q →
      ∃ form, Rewrites σ (Source.path (nestedWithin d) false) p p q form

/-- The levels of nesting that a path takes are no more than its lexemes. -/
theorem Applied.rewrites {part : PathPart} (h : Applied part p) :
    ∀ d, p.length < d → part.RewrittenAt d σ p := by
  induction h with
  | plain h => exact fun d _ q ends => ⟨_, rewrites_plain h ends⟩
  | @arguments w items last? identifier free colons h bare ih =>
    intro d deep q ends
    simp only [List.length_cons, List.length_append] at deep
    obtain ⟨d, rfl⟩ : ∃ e, d = e + 1 := ⟨d - 1, by omega⟩
    refine ⟨_, rewrites_pathWord free (rewrites_genericArguments colons
      (fun i member r => ((h i member).startsPath (bare i member) r).2.2.2)
      fun i member r ends => ?_)⟩
    have shorter := length_le_listed member
    obtain ⟨form, read⟩ := ih i member d (by omega) r ends
    exact rewrites_genericArgument rfl (h i member) (bare i member) ends read
  | @path rooted first rest h ih =>
    intro d deep q ends
    simp only [List.length_append] at deep
    refine rewrites_path rooted ends (fun v member => (h v member).word_start)
      fun v member r ends => ih v member d ?_ r ends
    rcases List.mem_cons.mp member with rfl | member
    · omega
    · have shorter : v.length ≤ _ := length_le_signed "::" id member
      omega

variable {value : String} {ts : List Token}

/-- A text whose tokens are such a path is read as it. -/
theorem Applied.read_of_scan (h : Applied .path p) (scanned : scan? value = some ts)
    (lexemes : ts.map (·.lexeme) = p) :
    ∃ form, Source.read (Source.path · false) value = .ok (form, p) := by
  obtain ⟨σ, places⟩ := exists_placed ts
  rw [lexemes] at places
  have levels : p.length < 2 * ts.length + 2 := by
    rw [← lexemes, List.length_map]
    omega
  obtain ⟨form, rewrites⟩ := h.rewrites (σ := σ) _ levels [] .nothing
  refine ⟨form, ?_⟩
  have rule : Source.path (nestedFor ts) false ⟨ts, []⟩ = .ok (form, ⟨[], p.reverse ++ []⟩) := by
    have all := rewrites []
    rwa [List.append_nil, places] at all
  have whole : readTokens (Source.path · false) ts = .ok (form, p) := by
    show (Source.path (nestedFor ts) false ⟨ts, []⟩ >>= _) >>= _ = _
    rw [rule, List.append_nil]
    show Except.ok (form, p.reverse.reverse) = _
    rw [List.reverse_reverse]
  rw [Source.read, scanned]
  show (readTokens (Source.path · false) ts).mapError ReadError.grammar = _
  rw [whole]
  rfl

/-- Printed, such a path is read as itself. -/
theorem Applied.read_text (h : Applied .path p) :
    ∃ form, Source.read (Source.path · false) p.text = .ok (form, p) := by
  obtain ⟨ts, scanned, lexemes⟩ := h.spaced.scan?_text
  exact h.read_of_scan scanned lexemes

end RecordRows.Source
