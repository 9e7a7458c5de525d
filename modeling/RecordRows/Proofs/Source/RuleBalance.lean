import RecordRows.Proofs.Source.Balance

/-!
What the rules of the grammar take and print, on every level of nesting (`keeps_nestedWithin`).
Types, bounds and all that is made of them keep angles balanced, everything else keeps groups
closed.
-/
namespace RecordRows.Source

-- The code of a rule is searched as a whole, with what stands behind its branches in each of them.
set_option synthInstance.maxSize 8000

open Phrase Progress Rule

variable {α : Type} {P : Phrase → Prop}

/-! ## Rules for what is nested -/

/-- All rules for one level of nesting keep their kinds. -/
class Nested.Keeps (n : Nested) : Prop where
  type (sums : Bool) : Rule.Keeps Balanced (n.type sums)
  bound (place : BoundPlace) : Rule.Keeps Balanced (n.bound place)
  expression (structs : Bool) : Rule.Keeps Closed (n.expression structs)
  operand (structs : Bool) : Rule.Keeps Closed (n.operand structs)
  arm : Rule.Keeps Closed n.arm
  pattern : Rule.Keeps Closed n.pattern
  block : Rule.Keeps Balanced n.block

attribute [instance] Nested.Keeps.type Nested.Keeps.bound Nested.Keeps.expression
  Nested.Keeps.operand Nested.Keeps.arm Nested.Keeps.pattern Nested.Keeps.block

variable (n : Nested) [n.Keeps]

/-! ## Attributes -/

instance keeps_pathWordsFor (mayStart : List Token → Bool) (fuel : Nat) :
    Keeps Closed (pathWordsFor mayStart fuel) := by
  induction fuel with
  | zero => exact inferInstanceAs (Keeps Closed (pure []))
  | succ fuel ih => unfold pathWordsFor; infer_instance

instance (mayStart : List Token → Bool) : Keeps Closed (pathWords mayStart) := by
  unfold pathWords; infer_instance

instance : Keeps Closed modulePath := by unfold modulePath; infer_instance

/-- A literal is a single token, or a number behind its minus sign. -/
theorem literalAhead?_eq_some {ts rest : List Token} {t : String}
    (h : literalAhead? ts = some (t, rest)) :
    (∃ l, (l = .word t ∨ l = .literal t) ∧ ∃ place, ts = ⟨l, place⟩ :: rest) ∨
      ∃ joint text place place', ts = ⟨.punct '-' joint, place⟩ :: ⟨.literal text, place'⟩ :: rest := by
  unfold literalAhead? at h
  split at h
  · cases h
    exact .inl ⟨_, .inr rfl, _, rfl⟩
  · split at h <;> cases h
    exact .inl ⟨_, .inl rfl, _, rfl⟩
  · split at h <;> cases h
    exact .inr ⟨_, _, _, _, rfl⟩
  · cases h

instance [Holds P] : Keeps P literal? where
  gives := .ahead fun ts => by
    split
    · next t rest found =>
      obtain ⟨l, single, place, rfl⟩ | ⟨joint, text, place, place', rfl⟩ :=
        literalAhead?_eq_some found
      · have unsigned : Ahead.isOperator "-" (⟨l, place⟩ :: rest) = false := by
          rcases single with rfl | rfl <;> rfl
        have holds : P [l] := by
          rcases single with rfl | rfl
          · exact Joins.word _
          · exact Holds.literal _
        have one : (consumed (⟨l, place⟩ :: rest) rest).length = 1 :=
          congrArg List.length (consumed_append [_] rest)
        rw [unsigned, if_neg Bool.false_ne_true]
        refine .ahead (f := fun ts => takeMany (consumed ts rest).length >>= _) ?_
        rw [one]
        exact (KeepsAt.takeMany holds).last fun _ => inferInstance
      · intro printed s' a _ h
        obtain ⟨_, s₁, sign, h⟩ := bind_eq_ok (r := Rule.operator "-") h
        obtain rfl : s₁ = ⟨⟨.literal text, place'⟩ :: rest, .punct '-' false :: printed⟩ := by
          cases sign
          rfl
        have one : (consumed (⟨.literal text, place'⟩ :: rest) rest).length = 1 :=
          congrArg List.length (consumed_append [_] rest)
        obtain ⟨_, _, look, h⟩ := bind_eq_ok (r := ahead) h
        cases look
        obtain ⟨_, _, taken, h⟩ := bind_eq_ok (r := takeMany _) h
        rw [one] at taken
        cases taken
        cases h
        exact ⟨⟨[_, _], [.punct '-' false, .literal text], rfl, rfl, Holds.negative _ _,
          Holds.negative _ _⟩, trivial⟩
    · exact Gives.pure trivial _

instance [Holds P] : Keeps P stringLiteral? where
  gives := .ahead fun ts => by
    split
    · split
      · exact (KeepsAt.take (Holds.literal _)).last fun _ => inferInstance
      · exact Gives.pure trivial _
    · exact Gives.pure trivial _

instance : Keeps Closed (metaValue n) := by unfold metaValue; infer_instance

instance : Keeps Closed (metaArgument n) := by unfold metaArgument; infer_instance

instance : Keeps Closed (attributeItem n) := by unfold attributeItem; infer_instance

instance [Holds P] [Admits P "#"] : Keeps P (outerAttributes n) := by
  unfold outerAttributes; infer_instance

instance : Keeps Closed (innerAttributes n) := by unfold innerAttributes; infer_instance

/-! ## Paths -/

theorem Listed.balanced_text {i : Listed} (h : Balanced i.phrase) : Balanced i.text := by
  unfold Listed.text
  split
  · exact h.append (Admits.operator ",")
  · rwa [List.append_nil]

theorem Listed.balanced_printAfter {items : List Listed} (h : ∀ i ∈ items, Balanced i.phrase)
    (missing : Bool) : Balanced (printAfter missing items) := by
  induction items generalizing missing with
  | nil => exact .nil
  | cons i items ih =>
    obtain ⟨first, rest⟩ := List.forall_mem_cons.mp h
    refine .append (.append ?_ (balanced_text first)) (ih rest _)
    split
    · exact Admits.operator ","
    · exact .nil

theorem Listed.balanced_lifetimesFirst {items : List Listed} (h : ∀ i ∈ items, Balanced i.phrase) :
    Balanced (lifetimesFirst items) :=
  .append (Joins.flatMap fun i member => balanced_text (h i (List.mem_filter.mp member |>.1)))
    (balanced_printAfter (fun i member => h i (List.mem_filter.mp member |>.1)) _)

/-- A balanced phrase in angles is a part of a path. -/
theorem Progress.Advances.angles {s t u v : Progress} (opened : Advances (IsSign "<") s t)
    (inside : Advances Balanced t u) (closed : Advances (IsSign ">") u v) : Advances IsPath s v := by
  refine opened.enclose inside closed ?_
  rintro _ q _ ⟨i, rfl⟩ content ⟨j, rfl⟩
  rw [List.append_assoc]
  exact .angles i j content .nil

instance (item : Rule Bool) [Keeps Balanced item] : Keeps IsPath (angled item) where
  gives ts printed s' a nested h := by
    have listed : Gives Balanced (captured (collect do
        if ← seesOperator ">" then return none
        let (isLifetime, phrase) ← captured item
        if ← seesOperator ">" then return some (Listed.mk isLifetime phrase false)
        Rule.operator ","
        return some (Listed.mk isLifetime phrase true)))
        fun x => (∀ i ∈ x.1, Balanced i.phrase) ∧ Balanced x.2 := by
      refine .captured (.collect (.after fun ends => ?_))
      split
      · exact .none
      refine (gives_captured item).bind fun (isLifetime, phrase) balanced => .after fun last => ?_
      split
      · exact .some balanced
      · exact .after fun _ => .some balanced
    obtain ⟨_, s₁, opened, h⟩ := bind_eq_ok h
    obtain ⟨⟨items, _⟩, s₂, inside, h⟩ := bind_eq_ok h
    obtain ⟨_, s₃, printing, closed⟩ := bind_eq_ok h
    have opened := operator_advances opened
    obtain ⟨inside, balanced, -⟩ := listed _ _ (opened.nested nested) inside
    have printing := (keeps_print (Listed.balanced_lifetimesFirst balanced)).advances
      (inside.nested (opened.nested nested)) printing
    exact ⟨opened.angles (inside.trans printing) (operator_advances closed), trivial⟩

instance [Admits P "+"] [Joins P] (stops : List Token → Bool) (bound : Rule α) [Keeps P bound] :
    Keeps P (boundsUntil stops bound) := by
  unfold boundsUntil; infer_instance

instance : Keeps Balanced (constArgument n) := by unfold constArgument; infer_instance

theorem gives_constraint (bounds : Rule Unit) [Keeps Balanced bounds] :
    Gives Balanced (constraint bounds) Balanced := by
  refine (gives_captured (operator? ":")).bind fun (found, colon) balanced => ?_
  cases found with
  | false => exact .pure .nil
  | true =>
    refine (gives_captured bounds).bind fun (_, phrase) more => .pure ?_
    split
    · exact .nil
    · exact balanced.append more

theorem gives_fallback (value : Rule Unit) [Keeps Balanced value] :
    Gives Balanced (fallback value) Balanced :=
  (gives_captured _).bind fun (_, _) balanced => .pure balanced

theorem Parameter.balanced_declared {p : Parameter} (attributes : Balanced p.attributes)
    (name : Balanced p.name) (constraint : Balanced p.constraint) (fallback : Balanced p.fallback) :
    Balanced p.declared := by
  unfold declared bounded
  refine .append (.append (.append (.append attributes ?_) name) constraint) fallback
  split
  · exact .leaf rfl .nil
  · exact .nil

/-- A parameter is printed as declared. -/
theorem gives_parameter : Gives Balanced (parameter n) fun p => Balanced p.declared := by
  refine (gives_captured (outerAttributes n)).bind fun (_, attributes) hattributes =>
    .after fun ts => ?_
  split
  · refine (gives_captured lifetime).bind fun (_, name) hname => ?_
    refine (gives_constraint _).bind fun bounds hbounds => .pure ?_
    exact Parameter.balanced_declared hattributes hname hbounds .nil
  split
  · refine (gives_captured identifier).bind fun (_, name) hname => ?_
    refine (gives_constraint _).bind fun bounds hbounds => ?_
    refine (gives_fallback _).bind fun value hvalue => .pure ?_
    exact Parameter.balanced_declared hattributes hname hbounds hvalue
  split
  · refine .after fun _ => (gives_captured identifier).bind fun (_, name) hname => ?_
    refine (gives_captured _).bind fun (_, type) htype => ?_
    refine (gives_fallback _).bind fun value hvalue => .pure ?_
    exact Parameter.balanced_declared hattributes hname htype hvalue
  · exact .fail

theorem gives_parameters :
    Gives Balanced (parameters n) fun ps => ∀ x ∈ ps, Balanced x.1.declared := by
  have listed {p : Parameter} (declared : Balanced p.declared) : Gives Balanced (do
      if ← seesOperator ">" then return some (p, false)
      let _ ← captured (Rule.operator ",")
      return some (p, true)) fun x? => ∀ x ∈ x?, Balanced x.1.declared := by
    refine .after fun last => ?_
    split
    · exact .some declared
    · exact .after fun _ => .some declared
  refine .collect (.after fun ends => ?_)
  split
  · exact .none
  refine .after fun unnamed => ?_
  split
  · refine (gives_captured anyWord).bind fun (_, name) hname => ?_
    exact listed (Parameter.balanced_declared .nil hname .nil .nil)
  · exact (gives_parameter n).bind fun p declared => listed declared

instance : Keeps Balanced (parameters n) := (gives_parameters n).keeps

instance : Keeps Balanced (binder? n) where
  gives := by
    refine .after fun introduces => ?_
    split
    · intro ts printed s' a nested h
      obtain ⟨_, s₁, opened, h⟩ := bind_eq_ok h
      obtain ⟨ps, s₂, inside, h⟩ := bind_eq_ok h
      obtain ⟨_, s₃, printing, h⟩ := bind_eq_ok h
      obtain ⟨_, s₄, closed, h⟩ := bind_eq_ok h
      cases h
      have opened := operator_advances opened
      obtain ⟨inside, declared⟩ := gives_parameters n _ _ (opened.nested nested) inside
      have balanced : Balanced (ps.flatMap fun (p, comma) =>
          p.declared ++ if comma then Phrase.operator "," else []) := by
        refine Joins.flatMap fun (p, comma) member => (declared _ member).append ?_
        split
        · exact Admits.operator ","
        · exact .nil
      have printing := (keeps_print balanced).advances
        (inside.nested (opened.nested nested)) printing
      have whole := opened.angles (inside.trans printing) (operator_advances closed)
      exact ⟨whole.mono fun _ => IsPath.balanced, trivial⟩
    · exact .pure trivial

instance : Keeps Balanced (genericArgument n) where
  gives := .after fun ts => by
    split
    · exact Keeps.gives
    split
    · exact Keeps.gives
    refine .after fun form => ?_
    split
    · exact Keeps.gives
    · exact Keeps.gives

instance : Keeps IsPath (genericArguments n) := by unfold genericArguments; infer_instance

instance (turbofish : Bool) : Keeps IsPath (pathWord n turbofish) := by
  unfold pathWord; infer_instance

instance (turbofish : Bool) : Keeps IsPath (path n turbofish) := by unfold path; infer_instance

instance (turbofish : Bool) : Keeps Balanced (qualifiedPath n turbofish) where
  gives := by
    intro ts printed s' a nested h
    obtain ⟨found, s₁, sign, h⟩ := bind_eq_ok h
    obtain ⟨rfl, opened⟩ | ⟨rfl, rfl⟩ := operator?_cases sign
    · -- the self type and its trait stand in angles, whether there is a trait or not
      have behind {s₂ : Progress} (inside : Advances Balanced s₁ s₂)
          (h : (do
            Rule.operator ">"
            Rule.operator "::"
            let _ ← sum "::" (return true) (pathWord n turbofish)
            return none : Rule (Option PathForm)) s₂ = .ok (a, s')) :
          Advances Balanced ⟨ts, printed⟩ s' := by
        obtain ⟨_, s₃, closed, h⟩ := bind_eq_ok h
        have self := (opened.angles inside (operator_advances closed)).mono fun _ => IsPath.balanced
        have words : Keeps Balanced (do
            Rule.operator "::"
            let _ ← sum "::" (return true) (pathWord n turbofish)
            return none : Rule (Option PathForm)) := inferInstance
        exact self.trans (words.advances (self.nested nested) h)
      obtain ⟨_, s₂, self, h⟩ := bind_eq_ok (r := n.type true) h
      have self : Advances Balanced s₁ s₂ := Keeps.advances (opened.nested nested) self
      obtain ⟨named, s₃, word, h⟩ := bind_eq_ok (r := word? "as") h
      have word : Advances Balanced s₂ s₃ :=
        Keeps.advances (self.nested (opened.nested nested)) word
      have self := self.trans word
      cases named with
      | false => exact ⟨behind self h, trivial⟩
      | true =>
        obtain ⟨_, s₄, trait, h⟩ := bind_eq_ok (r := path n false) h
        have trait : Advances Balanced s₃ s₄ :=
          Keeps.advances (self.nested (opened.nested nested)) trait
        exact ⟨behind (self.trans trait) h, trivial⟩
    · have words : Keeps Balanced (do return some (← path n turbofish) : Rule (Option PathForm)) :=
        inferInstance
      exact words.gives _ _ nested h

theorem exists_of_isAnyGroup {ts : List Token} (h : Ahead.isAnyGroup ts = true) :
    ∃ d place us, ts = ⟨.opening d, place⟩ :: us := by
  obtain _ | ⟨⟨l, place⟩, us⟩ := ts
  · cases h
  cases l with
  | opening d => exact ⟨d, place, us, rfl⟩
  | _ => cases h

instance : Keeps Balanced invocation where
  gives := .after fun _ => .ahead fun ts => by
    split
    · next group =>
      obtain ⟨d, place, us, rfl⟩ := exists_of_isAnyGroup group
      exact KeepsAt.takeTree.last fun _ => inferInstance
    · exact fun _ _ _ _ h => by cases h

instance (form : PathForm) [Joins P] : Keeps P (seesInvocation form) := by
  unfold seesInvocation; infer_instance

instance : Keeps Balanced (resultType n) := by unfold resultType; infer_instance

instance (constants : Bool) : Keeps Balanced (trait n constants) := by unfold trait; infer_instance

instance : Keeps Balanced capturedName := by unfold capturedName; infer_instance

instance (place : BoundPlace) : Keeps Balanced (bound n place) := by unfold bound; infer_instance

instance (sums : Bool) (place : BoundPlace) : Keeps Balanced (typeBounds n sums place) := by
  unfold typeBounds; infer_instance

/-! ## Types -/

instance : Keeps Closed (parenContent n) := by unfold parenContent; infer_instance

instance : Keeps Balanced (furtherBounds n) := by unfold furtherBounds; infer_instance

instance (sums : Bool) : Keeps Balanced (parenType n sums) where
  gives := .after fun content => by
    cases content <;> exact Keeps.gives

instance : Keeps Closed variadic := by unfold variadic; infer_instance

instance (isFirst : Bool) : Keeps Closed (functionParameter n isFirst) where
  gives := .ahead fun ts => .ite (fun receiver => by
      simp only [Bool.and_eq_true] at receiver
      obtain ⟨⟨-, first⟩, second⟩ := receiver
      obtain ⟨p, us, rfl⟩ := exists_of_isWord first
      obtain ⟨q, us, rfl⟩ := exists_of_isWord (show Ahead.isWord _ us = true from second)
      have words : Closed (lexemes [⟨.word "mut", p⟩, ⟨.word "self", q⟩]) :=
        .leaf rfl (.leaf rfl .nil)
      exact (KeepsAt.last (.takeMany words) fun _ => inferInstance).verbatim)
    fun _ => Keeps.gives ts

instance keeps_functionParameters (isFirst : Bool) (fuel : Nat) :
    Keeps Closed (functionParameters n isFirst fuel) := by
  induction fuel generalizing isFirst with
  | zero => exact inferInstanceAs (Keeps Closed (pure ()))
  | succ fuel ih => unfold functionParameters; infer_instance

instance : Keeps Balanced (functionType n) := by unfold functionType; infer_instance

theorem keeps_pathType (sums : Bool) {binder : Phrase} (balanced : Balanced binder) :
    Keeps Balanced (pathType n sums binder) where
  gives := by
    refine (gives_captured (qualifiedPath n false)).bind fun (form?, phrase) hphrase => ?_
    have := keeps_print hphrase
    have := keeps_print (balanced.append hphrase)
    cases form? <;> exact Keeps.gives

instance : Keeps Closed (bracketContent n) := by unfold bracketContent; infer_instance

instance (sums : Bool) : Keeps Balanced (type n sums) where
  gives := .ahead fun ts => .ite (fun object => by
      obtain ⟨first, second⟩ := Bool.and_eq_true_iff.mp object
      obtain ⟨place, us, rfl⟩ := exists_of_isWord first
      obtain ⟨joint, star⟩ : ∃ joint, lexemes (us.take 1) = signs joint ['*'] :=
        take_of_isOperatorChars second
      have words : Balanced (.word "dyn" :: lexemes (us.take 1)) := by
        rw [star]
        exact .leaf rfl (.leaf rfl .nil)
      exact (KeepsAt.last (KeepsAt.verbatim (.last (.takeMany words) fun _ => inferInstance))
        fun _ => inferInstance))
    fun _ => by
      refine Gives.bind (gives_captured (binder? n)) (fun (binds, binder) hbinder => ?_) ts
      have := keeps_print hbinder
      have := keeps_pathType n sums hbinder
      exact Keeps.gives

/-! ## Patterns -/

instance : Keeps Closed (alternatives n) := by unfold alternatives; infer_instance

instance : Keeps Closed (rangeBound? n) := by unfold rangeBound?; infer_instance

instance : Keeps Closed rangeDots := by unfold rangeDots; infer_instance

instance : Keeps Closed (rangeTail n) := by unfold rangeTail; infer_instance

instance : Keeps Closed (fieldPattern n) := by
  refine .bind inferInstance fun boxed => .bind inferInstance fun referenced =>
    .bind inferInstance fun mutable => ?_
  split
  · infer_instance
  refine ⟨.ahead fun ts => ?_⟩
  split
  · split
    · exact (KeepsAt.take (Holds.literal _)).last fun _ => inferInstance
    · exact Keeps.gives _
  · exact Keeps.gives _

instance : Keeps Closed (fieldPatterns n) := by unfold fieldPatterns; infer_instance

instance : Keeps Closed (pathPattern n) := by
  refine .bind inferInstance fun form? => ?_
  cases form? <;> infer_instance

instance : Keeps Closed (pattern n) := by unfold pattern; infer_instance

/-! ## Expressions -/

instance : Keeps Closed checkCast := by unfold checkCast; infer_instance

section
variable (operand : Rule ExpressionForm) [ho : Keeps Closed operand]

instance keeps_operatorsFor (structs : Bool) (fuel base : Nat) (lhs : ExpressionForm) :
    Keeps Closed (operatorsFor n operand structs fuel base lhs) := by
  induction fuel generalizing base lhs with
  | zero => exact inferInstanceAs (Keeps Closed (pure lhs))
  | succ fuel ih =>
    unfold operatorsFor
    split
    · infer_instance
    refine .bind inferInstance fun ts => ?_
    split <;> infer_instance

instance (structs : Bool) (base : Nat) (lhs : ExpressionForm) :
    Keeps Closed (operators n operand structs base lhs) := by
  unfold operators; infer_instance

end

instance : Keeps Closed label := by unfold label; infer_instance

instance keeps_conditionalFor (fuel : Nat) : Keeps Closed (conditionalFor n fuel) := by
  induction fuel with
  | zero => exact inferInstanceAs (Keeps Closed (pure ()))
  | succ fuel ih => unfold conditionalFor; infer_instance

instance : Keeps Closed (matchArm n) := by unfold matchArm; infer_instance

instance : Keeps Closed (matchExpression n) := by unfold matchExpression; infer_instance

instance : Keeps Closed (labelled n) := by unfold labelled; infer_instance

instance : Keeps Closed (closureParameter n) := by unfold closureParameter; infer_instance

instance (structs : Bool) : Keeps Closed (closure n structs) := by unfold closure; infer_instance

instance : Keeps Closed (structField n) := by
  refine .bind inferInstance fun _ => ⟨.ahead fun ts => ?_⟩
  split
  · split
    · next i _ =>
      have := keeps_print (P := Closed) (Holds.literal (toString i))
      exact (KeepsAt.drop (Holds.literal _)).last fun _ => inferInstance
    · exact Keeps.gives _
  · exact Keeps.gives _

instance : Keeps Closed (structFields n) := by unfold structFields; infer_instance

instance (structs : Bool) : Keeps Closed (pathExpression n structs) := by
  refine .bind inferInstance fun form? => ?_
  cases form? with
  | none => infer_instance
  | some form =>
    refine (inferInstance : Keeps Closed (seesInvocation form)).bind fun invokes => ?_
    split <;> infer_instance

instance : Keeps Closed (parenExpression n) := by unfold parenExpression; infer_instance

instance : Keeps Closed (bracketExpression n) := by unfold bracketExpression; infer_instance

instance (structs : Bool) : Keeps Closed (breakExpression n structs) := by
  unfold breakExpression; infer_instance

instance (w : String) : Keeps Closed (leaving n w) := by unfold leaving; infer_instance

section
variable (operand : Rule ExpressionForm) [ho : Keeps Closed operand]

instance (structs : Bool) : Keeps Closed (atom n operand structs) := by
  unfold atom
  refine .bind inferInstance fun ts => .bind inferInstance fun literal => ?_
  split
  · infer_instance
  split
  · infer_instance
  iterate 6
    split
    · infer_instance
  split <;> infer_instance

end

/-- The numbers of nested fields take one literal and print several. -/
theorem keepsAt_tupleIndices (text t : String) (place : Span) (us : List Token) :
    KeepsAt Closed (⟨.literal t, place⟩ :: us) (tupleIndices text) fun _ => True := by
  refine (KeepsAt.drop (n := 1) (Holds.literal t)).bind fun _ _ => ?_
  refine (Gives.mapM (R := Closed) (fun part => ?_) _).bind fun phrases closed => ?_
  · split
    · exact .pure (Holds.literal _)
    · exact .fail
  · have := keeps_print (Joins.separated (Admits.operator (P := Closed) ".") closed)
    exact Keeps.gives

instance : Keeps Closed (member n) := by
  refine ⟨.ahead fun ts => ?_⟩
  split
  · split
    · next i _ =>
      have := keeps_print (P := Closed) (Holds.literal (toString i))
      exact (KeepsAt.drop (Holds.literal _)).last fun _ => inferInstance
    · exact Keeps.gives _
  · exact Keeps.gives _

instance : Keeps Closed (afterPoint n) := by
  refine ⟨.ahead fun ts => ?_⟩
  split
  · split
    · exact (keepsAt_tupleIndices _ _ _ _).last fun _ => inferInstance
    · exact Keeps.gives _
  · exact Keeps.gives _

instance keeps_trailersFor (fuel : Nat) (form : ExpressionForm) :
    Keeps Closed (trailersFor n fuel form) := by
  induction fuel generalizing form with
  | zero => exact inferInstanceAs (Keeps Closed (pure form))
  | succ fuel ih => unfold trailersFor; infer_instance

instance (form : ExpressionForm) : Keeps Closed (trailers n form) := by unfold trailers; infer_instance

instance : Keeps Closed reference := by
  refine .bind inferInstance fun _ => ⟨.ahead fun ts => .ite (fun raw => ?_) fun _ => Keeps.gives ts⟩
  obtain ⟨first, second⟩ := Bool.and_eq_true_iff.mp raw
  obtain ⟨p, us, rfl⟩ := exists_of_isWord first
  obtain ⟨w, q, us, rfl⟩ : ∃ w q vs, us = ⟨.word w, q⟩ :: vs := by
    rcases Bool.or_eq_true_iff.mp second with second | second
    · exact ⟨_, exists_of_isWord (show Ahead.isWord _ us = true from second)⟩
    · exact ⟨_, exists_of_isWord (show Ahead.isWord _ us = true from second)⟩
  have words : Closed (lexemes [⟨.word "raw", p⟩, ⟨.word w, q⟩]) := .leaf rfl (.leaf rfl .nil)
  exact (KeepsAt.takeMany words).last fun _ => inferInstance

instance (structs : Bool) : Keeps Closed (operand n structs) := by
  refine .bind inferInstance fun attributes => .bind inferInstance fun ts => ?_
  split
  · infer_instance
  split <;> infer_instance

instance (structs : Bool) : Keeps Closed (expression n structs) := by unfold expression; infer_instance

instance : Keeps Closed (arm n) := by unfold arm; infer_instance

/-! ## Statements and blocks -/

instance : Keeps Closed declaration := by unfold declaration; infer_instance

instance : Keeps Closed (binding n) := by unfold binding; infer_instance

instance : Keeps Closed (statement n) := by unfold statement; infer_instance

instance : Keeps Closed (statements n) := by unfold statements; infer_instance

instance : Keeps Balanced (block n) := by unfold block; infer_instance

/-! ## All levels -/

instance keeps_nestedWithin (depth : Nat) : (nestedWithin depth).Keeps := by
  induction depth with
  | zero => constructor <;> intros <;> exact ⟨.fail⟩
  | succ depth ih =>
    constructor
    · exact fun sums => inferInstanceAs (Keeps Balanced (type (nestedWithin depth) sums))
    · exact fun place => inferInstanceAs (Keeps Balanced (bound (nestedWithin depth) place))
    · exact fun structs => inferInstanceAs (Keeps Closed (expression (nestedWithin depth) structs))
    · exact fun structs => inferInstanceAs (Keeps Closed (operand (nestedWithin depth) structs))
    · exact inferInstanceAs (Keeps Closed (arm (nestedWithin depth)))
    · exact inferInstanceAs (Keeps Closed (pattern (nestedWithin depth)))
    · exact inferInstanceAs (Keeps Balanced (block (nestedWithin depth)))

instance (ts : List Token) : (nestedFor ts).Keeps := keeps_nestedWithin _

/-! ## Declarations -/

instance [Joins P] (r : Rule String) [Keeps P r] : Keeps P (nameOf r) := by
  unfold nameOf; infer_instance

instance : Keeps Closed restriction := by unfold restriction; infer_instance

instance : Keeps Closed visibility := by
  refine .bind inferInstance fun isPublic => ?_
  split
  · refine .bind inferInstance fun ts => ?_
    split <;> infer_instance
  · infer_instance

instance : Keeps Closed keyword := by
  refine .bind inferInstance fun ts => ?_
  split <;> infer_instance

instance : Keeps Closed (predicate n) := by unfold predicate; infer_instance

instance keeps_collectPredicates (fuel : Nat) :
    Keeps Closed (whereClause?.collectPredicates n fuel) := by
  induction fuel with
  | zero => exact inferInstanceAs (Keeps Closed (pure []))
  | succ fuel ih => unfold whereClause?.collectPredicates; infer_instance

instance : Keeps Closed (whereClause? n) := by unfold whereClause?; infer_instance

instance : Keeps Closed (genericParameters n) := by unfold genericParameters; infer_instance

instance (fields : Rule Unit) [Keeps Balanced fields] : Keeps Balanced (anonymousRecord fields) := by
  unfold anonymousRecord; infer_instance

/-! ## The types of fields -/

theorem gives_namedFieldFor (fuel : Nat) :
    Gives Closed (namedFieldFor n fuel) fun f => Balanced f.type := by
  induction fuel with
  | zero => exact .fail
  | succ fuel ih =>
    have := ih.keeps
    refine .after fun _ => .after fun _ => .after fun unnamed => .after fun name => .after fun _ =>
      .after fun ts => ?_
    refine ((gives_captured (P := Balanced) _).widen fun _ => Balanced.closed).bind
      fun (_, type) balanced => .pure balanced

theorem gives_namedFields :
    Gives Closed (namedFields n) fun fields => ∀ f ∈ fields, Balanced f.type :=
  (Gives.group (.commaList (.after fun _ => gives_namedFieldFor n _))).widen fun _ => IsGroup.holds

instance : Keeps Closed (namedFields n) := (gives_namedFields n).keeps

theorem gives_positionalField : Gives Closed (positionalField n) Balanced :=
  .after fun _ => .after fun _ =>
    ((gives_captured (P := Balanced) (n.type true)).widen fun _ => Balanced.closed).bind
      fun (_, _) balanced => .pure balanced

theorem gives_positionalFields :
    Gives Closed (positionalFields n) fun types => ∀ t ∈ types, Balanced t :=
  (Gives.group (.commaList (gives_positionalField n))).widen fun _ => IsGroup.holds

instance : Keeps Closed (positionalFields n) := (gives_positionalFields n).keeps

/-- The types of the fields of a body. -/
def Fields.types : Fields → List Phrase
  | .named fields => fields.map (·.type)
  | .positional types => types
  | .unit => []

theorem gives_structBody :
    Gives Closed (structBody n) fun x => ∀ t ∈ x.2.types, Balanced t := by
  refine .after fun before? => .after fun parens => ?_
  split
  · refine (gives_positionalFields n).bind fun types balanced => ?_
    exact .after fun after? => .after fun _ => .pure balanced
  · refine .after fun braces => ?_
    split
    · exact (gives_namedFields n).bind fun fields balanced =>
        .pure (List.forall_mem_map.mpr balanced)
    · exact .after fun _ => .pure (List.forall_mem_nil _)

instance : Keeps Closed (variant n) := by unfold variant; infer_instance

/-- The types of a struct's fields are balanced; enums and unions have no fields of their own. -/
theorem gives_declarationOf : Gives Closed (declarationOf n) fun d =>
    ∀ fields, d.body = .struct fields → ∀ t ∈ fields.types, Balanced t := by
  refine .after fun attributes => .after fun (_, visibility) => .after fun w => .after fun name =>
    .after fun parameters => ?_
  split
  · exact (gives_structBody n).bind fun (where?, fields) balanced => .pure fun fields' same => by
      cases same
      exact balanced
  · exact .after fun where? => .after fun _ => .pure nofun
  · exact .after fun where? => .after fun _ => .pure nofun

instance : Keeps Closed (declarationOf n) := (gives_declarationOf n).keeps

/-! ## Whole texts -/

/-- The kernel is slow to take a text apart, which is avoided if its characters are given. -/
theorem scan?_ofList (cs : List Char) :
    scan? (String.ofList cs) = scanFrom cs.length (cs.length + 1) [] (dropByteOrderMark cs) := by
  rw [scan?, String.toList_ofList]

theorem readTokens_eq_ok {r : Nested → Rule α} {ts : List Token} {a : α} {p : Phrase}
    (h : readTokens r ts = .ok (a, p)) : ∃ printed,
      r (nestedFor ts) { tokens := ts } = .ok (a, ⟨[], printed⟩) ∧ p = printed.reverse := by
  obtain ⟨⟨b, t⟩, whole, h⟩ := exists_of_bind_eq_ok h
  cases h
  obtain ⟨b, ⟨left, printed⟩, first, rest⟩ := bind_eq_ok whole
  obtain ⟨_, _, look, rest⟩ := bind_eq_ok rest
  cases look
  cases left with
  | nil =>
    cases rest
    exact ⟨printed, first, rfl⟩
  | cons => cases rest

/-- What is read of a text is read by its rule from the tokens of the text. -/
theorem exists_of_read_eq_ok {r : Nested → Rule α} {source : String} {a : α} {p : Phrase}
    (h : Source.read r source = .ok (a, p)) : ∃ ts printed, scan? source = some ts ∧
      r (nestedFor ts) { tokens := ts } = .ok (a, ⟨[], printed⟩) ∧ p = printed.reverse := by
  unfold Source.read at h
  split at h
  · cases h
  · next ts scanned =>
    cases read : readTokens r ts with
    | error e =>
      rw [read] at h
      cases h
    | ok result =>
      rw [read] at h
      cases h
      obtain ⟨printed, rule, same⟩ := readTokens_eq_ok read
      exact ⟨ts, printed, scanned, rule, same⟩

/-- A declaration that is read is read by its rule from the tokens of the source. -/
theorem Declaration.read_eq_ok {source : String} {d : Declaration}
    (h : Declaration.read source = .ok d) : ∃ ts s, scan? source = some ts ∧
      declarationOf (nestedFor ts) { tokens := ts } = .ok (d, s) := by
  unfold Declaration.read at h
  cases read : Source.read declarationOf source with
  | error e =>
    rw [read] at h
    cases h
  | ok result =>
    rw [read] at h
    cases h
    obtain ⟨ts, printed, scanned, rule, -⟩ := exists_of_read_eq_ok read
    exact ⟨ts, _, scanned, rule⟩

/-- What a whole text prints is of the kind that its rule keeps. -/
theorem Rule.Keeps.read {r : Nested → Rule α} (hr : ∀ (m : Nested) [m.Keeps], Keeps P (r m)) 
    {source : String} {a : α} {p : Phrase} (h : Source.read r source = .ok (a, p)) : P p := by
  obtain ⟨ts, printed, scanned, rule, rfl⟩ := exists_of_read_eq_ok h
  obtain ⟨_, q, -, same, -, hq⟩ := (hr (nestedFor ts)).advances (wellNested_scan? scanned) rule
  obtain rfl : printed = q.reverse := by simpa using same
  rwa [List.reverse_reverse]

/-- The types of a declaration's fields are balanced. -/
theorem Declaration.balanced_types {source : String} {d : Declaration} {fields : Fields}
    (read : Declaration.read source = .ok d) (body : d.body = .struct fields) :
    ∀ t ∈ fields.types, Balanced t := by
  obtain ⟨ts, s, scanned, rule⟩ := Declaration.read_eq_ok read
  exact (gives_declarationOf (nestedFor ts) ts [] (wellNested_scan? scanned) rule).2 fields body

end RecordRows.Source
