import RecordRows.Proofs.Source.OrdinaryType

/-!
What the rules for types, paths and bounds read, given what the rules for their parts read.
-/
namespace RecordRows.Source

open Rule Phrase

variable {n : Nested} {p q : Phrase} {w : String} {s : Span} {ts : List Token}

/-! ## Words of a path -/

/-- What a word of a path may have behind itself. -/
def wordArguments (n : Nested) (turbofish : Bool) (w : String) : Rule (String × Bool) := do
  let ts ← ahead
  if !turbofish && Ahead.isOperator "<" ts && !Ahead.isOperator "<=" ts
      || Ahead.isOperator "::" ts && Ahead.isOperator "<" (ts.drop 2) then
    genericArguments n
    return (w, true)
  else return (w, false)

variable {turbofish : Bool}

theorem reads_pathWord {A : String × Bool → Prop} (free : Ahead.isKeyword w = false)
    (rest : Reads (wordArguments n turbofish w) p q A) :
    Reads (pathWord n turbofish) (.word w :: p) q A := by
  have identifies : Ahead.isIdentifier (Phrase.unplaced (.word w :: p ++ q)) = true :=
    isIdentifier_of_free free
  have notRelative : ["super", "self", "crate", "try"].any
      (Ahead.isWord · (Phrase.unplaced (.word w :: p ++ q))) = false :=
    any_isWord_keyword free (by decide)
  have notSelf : Ahead.isWord "Self" (Phrase.unplaced (.word w :: p ++ q)) = false :=
    isWord_keyword free (by decide)
  refine .ahead ?_
  rw [if_neg (ne_true_of_eq_false notRelative)]
  dsimp only
  rw [if_neg (ne_true_of_eq_false notSelf)]
  exact .bind_eq (p := [.word w]) (a := w) (.sees identifies fun _ => ⟨w, _, rfl, rfl⟩) rest

theorem reads_wordArguments (ends : EndsWord q) :
    Reads (wordArguments n turbofish w) [] q (· = (w, false)) := by
  have none : (!turbofish && Ahead.isOperator "<" q.unplaced && !Ahead.isOperator "<=" q.unplaced
      || Ahead.isOperator "::" q.unplaced && Ahead.isOperator "<" (q.unplaced.drop 2)) = false := by
    rw [ends.1, ends.2, Bool.and_false]
    rfl
  exact .ahead ((if_neg (ne_true_of_eq_false none)).symm ▸ .pure rfl)

theorem reads_name (free : Ahead.isKeyword w = false) (ends : EndsWord q) :
    Reads (pathWord n turbofish) [.word w] q (· = (w, false)) :=
  reads_pathWord free (reads_wordArguments ends)

theorem reads_relative (h : w ∈ relativeWords) (ends : EndsWord q) :
    Reads (pathWord n false) [.word w] q := by
  fin_cases h
  · exact fun _ => ⟨_, _, rfl, trivial⟩
  · exact fun _ => ⟨_, _, rfl, trivial⟩
  · exact fun _ => ⟨_, _, rfl, trivial⟩
  · exact .step (f := wordArguments n false "Self") (u := []) (fun _ => ⟨_, rfl⟩)
      ((reads_wordArguments ends).mono fun _ _ => trivial)

theorem reads_angled {item : Rule Bool} {items : List Phrase} {last? : Option Phrase}
    (starts : ∀ i ∈ items ++ last?.toList, ∀ r, Ahead.isOperator ">" (i ++ r).unplaced = false)
    (each : ∀ i ∈ items ++ last?.toList, ∀ r, AfterItem (Phrase.operator ">" ++ q) r →
      Reads item i r) :
    Reads (angled item) (Phrase.operator "<" ++ (listed items last? ++ Phrase.operator ">")) q := by
  refine .bind (A := fun _ => True) (fun _ => ⟨(), _, rfl, trivial⟩) fun _ _ => ?_
  refine .bind (.captured (Stepwise.listed (.sees (b := true) rfl (.pure (A := (· = none)) rfl))
    (fun i member r => ?_) fun i member => ⟨?_, ?_⟩).collect) fun _ _ => ?_
  · have member := List.mem_append_left last?.toList member
    refine .sees (b := false) (by rw [List.append_assoc]; exact starts i member _) ?_
    refine .bind (.captured (each i member _ (.inr ⟨r, rfl⟩))) fun _ _ => ?_
    exact .sees (b := false) rfl (.last .comma fun _ _ => .pure rfl)
  · rintro rfl
    cases starts [] (List.mem_append_right _ (Option.mem_toList.mpr member)) (Phrase.operator ">")
  · have member := List.mem_append_right items (Option.mem_toList.mpr member)
    refine .sees (b := false) (starts i member _) ?_
    refine .last (.captured (each i member _ (.inl rfl))) fun _ _ => ?_
    exact .sees (b := true) rfl (.pure rfl)
  · exact .skip .print fun _ _ => fun _ => ⟨(), _, rfl, trivial⟩

theorem reads_applied {items : List Phrase} {last? : Option Phrase}
    (free : Ahead.isKeyword w = false)
    (starts : ∀ i ∈ items ++ last?.toList, ∀ r, Ahead.isOperator ">" (i ++ r).unplaced = false)
    (each : ∀ i ∈ items ++ last?.toList, ∀ r, AfterItem (Phrase.operator ">" ++ q) r →
      Reads (genericArgument n) i r) :
    Reads (pathWord n false)
      (.word w :: (Phrase.operator "<" ++ (listed items last? ++ Phrase.operator ">"))) q := by
  refine reads_pathWord free (.ahead (.last (A := fun _ => True) ?_ fun _ _ => .pure trivial))
  exact .skip (.operator?_absent rfl) fun _ _ => reads_angled starts each

/-! ## Paths -/

/-- Words of a path behind the first one. -/
theorem stepwise_words {words : List Phrase} (ends : EndsType q)
    (starts : ∀ v ∈ words, ∃ w t, v = .word w :: t)
    (each : ∀ v ∈ words, ∀ r, EndsWord r → Reads (pathWord n false) v r) :
    Stepwise (do
      if ← sees goesOnToWord then
        operator "::"
        return some (← pathWord n false)
      else return none) q (signed "::" id words) ∧ EndsWord (signed "::" id words ++ q) := by
  induction words with
  | nil =>
    have stops : goesOnToWord q.unplaced = false := by
      simp [goesOnToWord, ends.concludes.notRoot]
    exact ⟨.stop (.sees stops (.pure rfl)), ends.endsWord⟩
  | cons v words ih =>
    obtain ⟨steps, endsWord⟩ := ih (fun u member => starts u (List.mem_cons_of_mem _ member))
      fun u member => each u (List.mem_cons_of_mem _ member)
    obtain ⟨w, t, rfl⟩ := starts v List.mem_cons_self
    refine ⟨.go (by simp) ?_ steps, rfl, rfl⟩
    refine .sees (b := true) rfl ?_
    refine .bind (p := Phrase.operator "::") (A := fun _ => True) (fun _ => ⟨(), _, rfl, trivial⟩)
      fun _ _ => ?_
    exact .last (each _ List.mem_cons_self _ endsWord) fun _ _ => .pure rfl

theorem reads_path (rooted : Bool) {first : Phrase} {rest : List Phrase} (ends : EndsType q)
    (starts : ∀ v ∈ first :: rest, ∃ w t, v = .word w :: t)
    (each : ∀ v ∈ first :: rest, ∀ r, EndsWord r → Reads (pathWord n false) v r) :
    Reads (path n false)
      ((if rooted then Phrase.operator "::" else []) ++ (first ++ signed "::" id rest)) q := by
  obtain ⟨steps, endsWord⟩ := stepwise_words ends
    (fun v member => starts v (List.mem_cons_of_mem _ member))
    fun v member => each v (List.mem_cons_of_mem _ member)
  obtain ⟨w, t, rfl⟩ := starts first List.mem_cons_self
  refine .bind (A := fun _ => True) ?_ fun _ _ =>
    .bind (each _ List.mem_cons_self _ endsWord) fun _ _ =>
      .last steps.collect fun _ _ => .pure trivial
  cases rooted with
  | true => exact fun _ => ⟨_, _, rfl, trivial⟩
  | false => exact (Reads.operator?_absent rfl).mono fun _ _ => trivial

/-- A path of a single word. -/
theorem reads_path_name (free : Ahead.isKeyword w = false) (ends : EndsWord q)
    (stops : goesOnToWord q.unplaced = false) :
    Reads (path n turbofish) [.word w] q (· = ⟨false, [w], false, false⟩) := by
  refine .skip_eq (.operator?_absent rfl) (.last_eq (reads_name free ends) ?_)
  exact .skip_eq (.collect_none (.sees stops (.pure (A := (· = none)) rfl))) (.pure rfl)

/-- The lifetimes in front of a type or of a bound. -/
theorem reads_binder {names : List String} {last? : Option String} :
    Reads (binder? n) (introducing names last?) q (· = true) := by
  refine .bind_eq (p := [.word "for"]) (a := true) (fun _ => ⟨_, _, rfl, rfl⟩) ?_
  refine .bind (p := Phrase.operator "<") (A := fun _ => True) (fun _ => ⟨_, _, rfl, trivial⟩)
    fun _ _ => ?_
  refine .bind (p := listed (names.map ofLifetime) (last?.map ofLifetime)) (A := fun _ => True) ?_
    fun _ _ => .skip .print fun _ _ => fun _ => ⟨_, _, rfl, rfl⟩
  refine (Stepwise.listed (.sees (b := true) rfl (.pure (A := (· = none)) rfl)) ?_ ?_).collect
  · intro i member r
    obtain ⟨name, -, rfl⟩ := List.mem_map.mp member
    exact fun _ => ⟨_, _, rfl, rfl⟩
  · intro i member
    obtain ⟨name, -, rfl⟩ := Option.mem_map.mp member
    exact ⟨nofun, fun _ => ⟨_, _, rfl, rfl⟩⟩

theorem binder?_absent {printed : Phrase} (h : Ahead.isWord "for" ts = false) :
    binder? n ⟨ts, printed⟩ = .ok (false, ⟨ts, printed⟩) := by
  have absent : word? "for" ⟨ts, printed⟩ = .ok (false, ⟨ts, printed⟩) := by
    show (if Ahead.isWord "for" ts = true then _ else _ : Rule Bool) _ = _
    rw [if_neg (ne_true_of_eq_false h)]
    rfl
  show word? "for" _ >>= _ = _
  rw [absent]
  rfl

theorem reads_no_binder (h : Ahead.isWord "for" q.unplaced = false) :
    Reads (binder? n) [] q (· = false) := fun _ => ⟨_, _, binder?_absent h, rfl⟩

/-! ## Bounds -/

/-- What a trait reads behind its modifiers; `excluded` tells whether these exclude one another. -/
def traitPath (n : Nested) (excluded : Bool) : Rule Unit := do
  let form ← path n false
  if !form.endsInArguments && seesParenthesised (← ahead) then
    let _ ← operator? "::"
    let _ ← group .paren (commaList (n.type true))
    resultType n
  if excluded then fail (.excluded "binder is not allowed here")

theorem reads_traitPath (ends : EndsType q) (read : Reads (path n false) p q) :
    Reads (traitPath n false) p q := by
  refine .last read fun form _ => .ahead ?_
  have none : (!form.endsInArguments && seesParenthesised q.unplaced) = false := by
    simp [seesParenthesised, ends.concludes.notParen, ends.concludes.notRoot]
  exact (if_neg (ne_true_of_eq_false none)).symm ▸ .pure trivial

theorem reads_resultType {result? : Option Phrase} (ends : EndsType q)
    (read : ∀ r ∈ result?, Reads (n.type false) r q) :
    Reads (resultType n) (returning result?) q := by
  cases result? with
  | none =>
    refine .skip_eq (.operator?_absent ends.concludes.notArrow) ?_
    exact .pure trivial
  | some r =>
    refine .bind_eq (p := Phrase.operator "->") (a := true) (fun _ => ⟨_, _, rfl, rfl⟩) ?_
    exact .last (read r rfl) fun _ _ => .pure trivial

/-- A trait whose arguments are in parentheses. -/
theorem reads_traitPath_callable {items : List Phrase} {last? result? : Option Phrase}
    (free : Ahead.isKeyword w = false)
    (starts : ∀ i ∈ items ++ last?.toList, ∀ r, Ahead.isEnd (i ++ r).unplaced = false)
    (each : ∀ i ∈ items ++ last?.toList, ∀ r t, AfterItem (.closing .paren :: t) r →
      Reads (n.type true) i r)
    (result : Reads (resultType n) (returning result?) q) :
    Reads (traitPath n false)
      (.word w :: (grouped .paren (listed items last?) ++ returning result?)) q := by
  refine .bind_eq (p := [.word w]) (reads_path_name free ⟨rfl, rfl⟩ rfl) (.ahead ?_)
  refine .skip (.operator?_absent rfl) fun _ _ => ?_
  refine .bind (.group (.commaList starts fun i member r after => each i member r _ after))
    fun _ _ => ?_
  exact .last result fun _ _ => .pure trivial

theorem reads_trait {b : Phrase} {binds : Bool} (constants : Bool)
    (before : Reads (binder? n) b (p ++ q) (· = binds)) (starts : StartsPath (p ++ q).unplaced)
    (read : Reads (traitPath n false) p q) : Reads (trait n constants) (b ++ p) q := by
  refine .bind before fun _ _ => .sees starts.notBracket ?_
  refine .skip_eq (.word?_absent (starts.notWord "const" (by decide))) ?_
  refine .skip_eq (.operator?_absent starts.notMark) ?_
  refine .skip_eq (.pure (A := (· = false)) rfl) ?_
  exact read

theorem reads_trait_relaxed (constants : Bool) (starts : StartsPath (p ++ q).unplaced)
    (read : Reads (traitPath n false) p q) :
    Reads (trait n constants) (Phrase.operator "?" ++ p) q := by
  refine .skip_eq (reads_no_binder rfl) ?_
  refine .sees (b := false) rfl (.skip_eq (.word?_absent rfl) ?_)
  refine .bind_eq (p := Phrase.operator "?") (a := true) (fun _ => ⟨_, _, rfl, rfl⟩) ?_
  refine .skip_eq (reads_no_binder (starts.notWord "for" (by decide))) ?_
  exact read

theorem reads_bound_lifetime (place : BoundPlace) (name : String) :
    Reads (bound n place) (ofLifetime name) q (· = .lifetime) := fun _ => ⟨_, _, rfl, rfl⟩

theorem reads_bound_trait {place : BoundPlace}
    (notLifetime : Ahead.isLifetime (p ++ q).unplaced = false)
    (notUse : Ahead.isWord "use" (p ++ q).unplaced = false)
    (notParen : Ahead.isGroup .paren (p ++ q).unplaced = false)
    (read : Reads (trait n place.constants) p q) : Reads (bound n place) p q (· = .trait) := by
  refine .ahead ?_
  rw [if_neg (ne_true_of_eq_false notLifetime), if_neg (ne_true_of_eq_false notUse)]
  dsimp only
  rw [if_neg (ne_true_of_eq_false notParen)]
  exact .last read fun _ _ => .pure rfl

/-- A trait with nothing before its path. -/
theorem reads_bound_path {place : BoundPlace} (starts : StartsPath (p ++ q).unplaced)
    (read : Reads (traitPath n false) p q) : Reads (bound n place) p q (· = .trait) :=
  reads_bound_trait starts.notLifetime (starts.notWord "use" (by decide)) starts.notParen
    (reads_trait (b := []) place.constants (reads_no_binder (starts.notWord "for" (by decide)))
      starts read)

/-- Bounds in a place that takes plus signs. -/
theorem reads_typeBounds {place : BoundPlace} (first : BoundForm × Phrase)
    {rest : List (BoundForm × Phrase)} (ends : EndsType q)
    (noPlus : Ahead.isOperator "+" q.unplaced = false)
    (trait : ∃ i ∈ first :: rest, i.1 = .trait)
    (starts : ∀ i ∈ rest, ∀ r, startsBound place (i.2 ++ r).unplaced = true)
    (each : ∀ i ∈ first :: rest, ∀ r, EndsType r → Reads (bound n place) i.2 r (· = i.1)) :
    Reads (typeBounds n true place) (first.2 ++ signed "+" Prod.snd rest) q := by
  refine .last (.sum Prod.snd first (A := fun i a => a = i.1) (by decide)
    (fun _ _ => ⟨_, _, rfl, rfl⟩) noPlus
    (fun i member r => .seen (starts i member r))
    fun i member r h => each i member r (ends.orPlus h)) ?_
  rintro ⟨forms, trailing⟩ ⟨hold, rfl⟩
  have same : forms = (first :: rest).map Prod.fst := by
    rw [← List.forall₂_eq_eq_eq, List.forall₂_map_right_iff]
    exact hold.flip
  have any : forms.any (· = .trait) = true := by
    rw [same]
    simpa using trait
  dsimp only
  rw [if_pos any]
  exact .pure trivial

/-- A lone bound. -/
theorem reads_typeBounds_lone {place : BoundPlace}
    (read : Reads (bound n place) p q (· = BoundForm.trait)) :
    Reads (typeBounds n false place) p q :=
  .last_eq read (.pure trivial)

/-! ## Types that are paths -/

theorem reads_qualifiedPath {A : PathForm → Prop}
    (starts : Ahead.isOperator "<" (p ++ q).unplaced = false)
    (read : Reads (path n turbofish) p q A) :
    Reads (qualifiedPath n turbofish) p q fun form? => ∃ form, form? = some form ∧ A form := by
  refine .skip_eq (.operator?_absent starts) ?_
  exact .last read fun form holds => .pure ⟨form, rfl, holds⟩

theorem reads_no_invocation (form : PathForm) (ends : EndsType q) :
    Reads (seesInvocation form) [] q (· = false) := by
  unfold seesInvocation
  split
  · exact .pure rfl
  · exact .seen (by simp [ends.concludes.notBang])

variable {sums : Bool} {b : Phrase}

/-- A path without bounds behind it. -/
theorem reads_pathType {A : PathForm → Prop} (ends : EndsType q)
    (noPlus : (sums && Ahead.isOperator "+" q.unplaced) = false)
    (read : Reads (qualifiedPath n false) p q fun form? => ∃ form, form? = some form ∧ A form) :
    Reads (pathType n sums b) p q fun t => ∃ form, A form ∧
      t = if b.isEmpty then .path form else .bounds true := by
  refine .last (.captured read) ?_
  rintro ⟨_, phrase⟩ ⟨form, rfl, holds⟩
  refine .skip_eq (reads_no_invocation form ends) ?_
  refine .skip .print fun _ _ => .sees rfl ?_
  exact (if_neg (ne_true_of_eq_false noPlus)).symm ▸ .pure ⟨form, holds, rfl⟩

/-- A path that a sum of bounds starts with. -/
theorem reads_pathType_sum {first : BoundForm × Phrase} {rest : List (BoundForm × Phrase)}
    (ends : EndsType q) (noPlus : Ahead.isOperator "+" q.unplaced = false)
    (read : Reads (qualifiedPath n false) p (signed "+" Prod.snd (first :: rest) ++ q)
      (·.isSome = true))
    (starts : ∀ i ∈ first :: rest, ∀ r, startsBound objectBounds (i.2 ++ r).unplaced = true)
    (each : ∀ i ∈ first :: rest, ∀ r, EndsType r → Reads (bound n objectBounds) i.2 r) :
    Reads (pathType n true b) (p ++ signed "+" Prod.snd (first :: rest)) q := by
  refine .bind (.captured read) ?_
  rintro ⟨form?, phrase⟩ some
  obtain ⟨form, rfl⟩ := Option.isSome_iff_exists.mp some
  refine .skip_eq (reads_no_invocation form (endsType_plus _)) ?_
  refine .skip .print fun _ _ => .sees (b := true) rfl ?_
  refine .bind (p := Phrase.operator "+") (u := first.2 ++ signed "+" Prod.snd rest)
    (A := fun _ => True) (fun _ => ⟨_, _, rfl, trivial⟩) fun _ _ => .ahead ?_
  rw [if_pos (by rw [List.append_assoc]; exact starts first List.mem_cons_self _)]
  refine .last (.sum Prod.snd first (A := fun _ _ => True) (by decide)
    (fun _ _ => ⟨_, _, rfl, rfl⟩) noPlus
    (fun i member r => .seen (starts i (List.mem_cons_of_mem _ member) r))
    fun i member r h => each i member r (ends.orPlus h)) fun _ _ => .pure trivial

/-! ## Types -/

theorem reads_type_path {A : TypeForm → Prop} (starts : StartsPath (p ++ q).unplaced)
    (read : Reads (pathType n sums []) p q A) : Reads (type n sums) p q A := by
  have object : (Ahead.isWord "dyn" (p ++ q).unplaced
      && Ahead.isOperator "*" (Ahead.next (p ++ q).unplaced)) = false := by
    rw [starts.notWord "dyn" (by decide), Bool.false_and]
  refine .ahead ?_
  rw [if_neg (ne_true_of_eq_false object)]
  have none : Ahead.isWord "for" (p ++ q).unplaced = false := starts.notWord "for" (by decide)
  refine .skip_eq (.captured_nothing fun _ => binder?_absent none) (.ahead ?_)
  rw [if_neg (by exact Bool.false_ne_true)]
  dsimp only
  rw [if_neg (ne_true_of_eq_false starts.notParen), if_neg (ne_true_of_eq_false starts.notFunction),
    if_pos starts.path]
  exact read

theorem reads_type_general {names : List String} {last? : Option String}
    (starts : isModuleWord (p ++ q).unplaced = true) (path : StartsPath (p ++ q).unplaced)
    (read : ∀ b, Reads (pathType n sums b) p q) :
    Reads (type n sums) (introducing names last? ++ p) q := by
  refine .ahead (.bind (.captured reads_binder) ?_)
  rintro ⟨_, b⟩ rfl
  refine .ahead ?_
  rw [if_neg (by simp [starts])]
  dsimp only
  rw [if_neg (ne_true_of_eq_false path.notParen), if_neg (ne_true_of_eq_false path.notFunction),
    if_pos path.path]
  exact read b

theorem reads_type_reference {lifetime? : Option String} {mutable : Bool}
    (notLifetime : Ahead.isLifetime (p ++ q).unplaced = false)
    (notMut : Ahead.isWord "mut" (p ++ q).unplaced = false) (read : Reads (n.type false) p q) :
    Reads (type n sums) (Phrase.operator "&" ++ ((lifetime?.map ofLifetime).getD []
      ++ ((if mutable then [.word "mut"] else []) ++ p))) q := by
  have rest : Reads (do
      let _ ← word? "mut"
      let _ ← n.type false
      return TypeForm.other) ((if mutable then [.word "mut"] else []) ++ p) q := by
    refine .bind (A := fun _ => True) ?_ fun _ _ => .last read fun _ _ => .pure trivial
    cases mutable with
    | true => exact fun _ => ⟨_, _, rfl, trivial⟩
    | false => exact (Reads.word?_absent notMut).mono fun _ _ => trivial
  -- the sign and the lifetime are taken by computation; without a lifetime the test for one remains
  cases lifetime? with
  | some name =>
    refine .step (u := (if mutable then [.word "mut"] else []) ++ p) (fun _ => ⟨_, rfl⟩) rest
  | none =>
    refine .step (f := do
      if ← sees Ahead.isLifetime then lifetime
      let _ ← word? "mut"
      let _ ← n.type false
      return TypeForm.other) (u := (if mutable then [.word "mut"] else []) ++ p)
      (fun _ => ⟨_, rfl⟩) ?_
    refine .sees (b := false) ?_ rest
    cases mutable with
    | true => rfl
    | false => exact notLifetime

theorem reads_type_pointer {mutable : Bool} (read : Reads (n.type false) p q) :
    Reads (type n sums)
      (Phrase.operator "*" ++ .word (if mutable then "mut" else "const") :: p) q := by
  refine .step (f := do
    let _ ← n.type false
    return TypeForm.other) (u := p) ?_ (.last read fun _ _ => .pure trivial)
  cases mutable <;> exact fun _ => ⟨_, rfl⟩

theorem reads_type_never : Reads (type n sums) (Phrase.operator "!") q :=
  fun _ => ⟨_, _, rfl, trivial⟩

theorem reads_type_inferred : Reads (type n sums) [.word "_"] q := fun _ => ⟨_, _, rfl, trivial⟩

theorem reads_type_unit : Reads (type n sums) (grouped .paren []) q := fun _ => ⟨_, _, rfl, trivial⟩

theorem reads_type_tuple {first : Phrase} {items : List Phrase} {last? : Option Phrase}
    (notEnd : ∀ r, Ahead.isEnd (first ++ r).unplaced = false)
    (notLifetime : ∀ r, Ahead.isLifetime (first ++ r).unplaced = false)
    (notMark : ∀ r, Ahead.isOperator "?" (first ++ r).unplaced = false)
    (read : ∀ r, Reads (n.type true) first (Phrase.operator "," ++ r))
    (starts : ∀ i ∈ items ++ last?.toList, ∀ r, Ahead.isEnd (i ++ r).unplaced = false)
    (each : ∀ i ∈ items ++ last?.toList, ∀ r, AfterItem (.closing .paren :: q) r →
      Reads (n.type true) i r) :
    Reads (type n sums)
      (grouped .paren (first ++ (Phrase.operator "," ++ listed items last?))) q := by
  have content : Reads (parenContent n) (first ++ (Phrase.operator "," ++ listed items last?))
      (.closing .paren :: q) (· = .tuple) := by
    refine .ahead ?_
    rw [List.append_assoc, if_neg (ne_true_of_eq_false (notEnd _)),
      if_neg (ne_true_of_eq_false (notLifetime _)), if_neg (ne_true_of_eq_false (notMark _))]
    refine .bind (List.append_assoc .. ▸ read _) fun _ _ => ?_
    refine .bind_eq (p := Phrase.operator ",") (a := true) (fun _ => ⟨_, _, rfl, rfl⟩) ?_
    exact .last (.commaList starts each) fun _ _ => .pure rfl
  exact .step (f := parenType n sums) (fun _ => ⟨_, rfl⟩)
    (.last_eq (.group content) (.pure trivial))

theorem reads_type_slice (read : Reads (n.type true) p (.closing .bracket :: q)) :
    Reads (type n sums) (grouped .bracket p) q := by
  have content : Reads (bracketContent n) p (.closing .bracket :: q) := by
    refine .last read fun _ _ => .skip_eq (.operator?_absent rfl) ?_
    exact .pure trivial
  refine .step (f := do
    group .bracket (bracketContent n)
    return TypeForm.other) (fun _ => ⟨_, rfl⟩) (.last (.group content) fun _ _ => .pure trivial)

theorem reads_type_array {e : Phrase} (read : ∀ r, Reads (n.type true) p (Phrase.operator ";" ++ r))
    (length : Reads (n.expression true) e (.closing .bracket :: q)) :
    Reads (type n sums) (grouped .bracket (p ++ (Phrase.operator ";" ++ e))) q := by
  have content : Reads (bracketContent n) (p ++ (Phrase.operator ";" ++ e))
      (.closing .bracket :: q) := by
    refine .bind (List.append_assoc .. ▸ read _) fun _ _ => ?_
    refine .bind_eq (p := Phrase.operator ";") (a := true) (fun _ => ⟨_, _, rfl, rfl⟩) ?_
    exact .last length fun _ _ => .pure trivial
  refine .step (f := do
    group .bracket (bracketContent n)
    return TypeForm.other) (fun _ => ⟨_, rfl⟩) (.last (.group content) fun _ _ => .pure trivial)

/-- Types that are bounds behind a keyword. -/
theorem reads_type_dyn (notStar : Ahead.isOperator "*" (p ++ q).unplaced = false)
    (read : Reads (typeBounds n sums objectBounds) p q) :
    Reads (type n sums) (.word "dyn" :: p) q := by
  have object : (Ahead.isWord "dyn" (Phrase.unplaced (.word "dyn" :: p ++ q))
      && Ahead.isOperator "*" (Ahead.next (Phrase.unplaced (.word "dyn" :: p ++ q)))) = false := by
    show (true && Ahead.isOperator "*" (p ++ q).unplaced) = false
    rw [notStar]
    rfl
  refine .ahead ?_
  rw [if_neg (ne_true_of_eq_false object)]
  refine .step (f := do
    let _ ← typeBounds n sums objectBounds
    return TypeForm.other) (u := p) (fun _ => ⟨_, rfl⟩) ?_
  exact .last read fun _ _ => .pure trivial

theorem reads_type_impl (read : Reads (typeBounds n sums { captures := true }) p q) :
    Reads (type n sums) (.word "impl" :: p) q :=
  .step (f := do
    let _ ← typeBounds n sums { captures := true }
    return TypeForm.other) (u := p) (fun _ => ⟨_, rfl⟩) (.last read fun _ _ => .pure trivial)

theorem reads_type_bounds {name : String}
    (read : Reads (typeBounds n true objectBounds) (ofLifetime name ++ p) q) :
    Reads (type n sums) (ofLifetime name ++ p) q :=
  .step (f := do return .bounds (← typeBounds n true objectBounds)) (fun _ => ⟨_, rfl⟩)
    (.last read fun _ _ => .pure trivial)

theorem reads_type_projected {self trait first : Phrase} {rest : List Phrase} (ends : EndsType q)
    (noPlus : (sums && Ahead.isOperator "+" q.unplaced) = false)
    (readSelf : ∀ r, Reads (n.type true) self (.word "as" :: r))
    (readTrait : ∀ r, Reads (path n false) trait (Phrase.operator ">" ++ r))
    (starts : ∀ v ∈ first :: rest, ∃ w t, v = .word w :: t)
    (each : ∀ v ∈ first :: rest, ∀ r, EndsWord r → Reads (pathWord n false) v r) :
    Reads (type n sums) (Phrase.operator "<" ++ (self ++ (.word "as" :: (trait ++
      (Phrase.operator ">" ++ (Phrase.operator "::" ++ (first ++ signed "::" id rest))))))) q := by
  have qualified : Reads (qualifiedPath n false)
      (Phrase.operator "<" ++ (self ++ (.word "as" :: (trait ++ (Phrase.operator ">"
        ++ (Phrase.operator "::" ++ (first ++ signed "::" id rest))))))) q (· = none) := by
    refine .bind_eq (a := true) (fun _ => ⟨_, _, rfl, rfl⟩) ?_
    refine .bind (readSelf _) fun _ _ => ?_
    refine .bind_eq (p := [.word "as"]) (a := true) (fun _ => ⟨_, _, rfl, rfl⟩) ?_
    refine .bind (List.append_assoc .. ▸ readTrait _) fun _ _ => ?_
    refine .bind (A := fun _ => True) (fun _ => ⟨_, _, rfl, trivial⟩) fun _ _ => ?_
    refine .bind (A := fun _ => True) (fun _ => ⟨_, _, rfl, trivial⟩) fun _ _ => ?_
    refine .last (.sum id first (A := fun _ _ => True) (by decide)
      (fun _ _ => ⟨_, _, rfl, rfl⟩) ends.concludes.notRoot (fun i member r => .pure rfl)
      fun i member r h => each i member r ?_) fun _ _ => .pure rfl
    obtain rfl | ⟨v, inside, t, rfl⟩ := h
    · exact ends.endsWord
    · obtain ⟨w, u, rfl⟩ := starts v (List.mem_cons_of_mem _ inside)
      exact ⟨rfl, rfl⟩
  refine .step (f := pathType n sums []) (fun _ => ⟨_, rfl⟩) (.last (.captured qualified) ?_)
  rintro ⟨_, phrase⟩ rfl
  exact .skip .print fun _ _ => .pure trivial

theorem reads_functionParameter {isFirst : Bool}
    (notMut : Ahead.isWord "mut" (p ++ q).unplaced = false) (unnamed : Unnamed (p ++ q).unplaced)
    (read : Reads (n.type true) p q) :
    Reads (functionParameter n isFirst) p q := by
  have receiver : (isFirst && Ahead.isWord "mut" (p ++ q).unplaced
      && Ahead.isWord "self" (Ahead.next (p ++ q).unplaced)) = false := by
    rw [notMut, Bool.and_false, Bool.false_and]
  have name : ((Ahead.isIdentifier (p ++ q).unplaced || Ahead.isWord "_" (p ++ q).unplaced
      || isFirst && Ahead.isWord "self" (p ++ q).unplaced)
        && isLoneColon (Ahead.next (p ++ q).unplaced)) = false := by
    rcases unnamed.name with none | none
    · simp only [Bool.or_eq_false_iff] at none
      rw [none.1.1, none.1.2, none.2, Bool.and_false]
      rfl
    · rw [none, Bool.and_false]
  refine .ahead ?_
  dsimp only
  rw [if_neg (ne_true_of_eq_false receiver), if_neg (ne_true_of_eq_false name)]
  exact .last read fun _ _ => .pure trivial

theorem reads_no_attributes (h : Ahead.isOperator "#" q.unplaced = false) :
    Reads (outerAttributes n) [] q (· = []) :=
  .collect_none (.skip_eq (.operator?_absent h) (.pure rfl))

theorem reads_functionParameters (last? : Option Phrase) :
    ∀ (items : List Phrase) (isFirst : Bool) (fuel : Nat), (listed items last?).length < fuel →
      (∀ i ∈ items ++ last?.toList, ∀ r, Commences (i ++ r).unplaced) →
      (∀ i ∈ items ++ last?.toList, ∀ r, AfterItem (.closing .paren :: q) r →
        Unnamed (i ++ r).unplaced ∧ Reads (n.type true) i r) →
      Reads (functionParameters n isFirst fuel) (listed items last?) (.closing .paren :: q) := by
  intro items
  -- only the first parameter may be a receiver, which none of an ordinary type looks like
  induction items with
  | nil =>
    rintro isFirst (_ | fuel) enough starts each
    · exact absurd enough (Nat.not_lt_zero _)
    cases last? with
    | none => exact .sees (b := true) rfl (.pure trivial)
    | some i =>
      have start := starts i (by simp) (.closing .paren :: q)
      obtain ⟨unnamed, read⟩ := each i (by simp) _ (.inl rfl)
      refine .sees start.notEnd (.skip (reads_no_attributes start.notHash) fun _ _ => ?_)
      refine .sees unnamed.variadic ?_
      refine .last (reads_functionParameter start.notMut unnamed read) fun _ _ => ?_
      exact .sees (b := true) rfl (.pure trivial)
  | cons i items ih =>
    rintro isFirst (_ | fuel) enough starts each
    · exact absurd enough (Nat.not_lt_zero _)
    have shape : listed (i :: items) last? = i ++ (Phrase.operator "," ++ listed items last?) := by
      simp [listed]
    rw [shape] at enough ⊢
    have start := starts i List.mem_cons_self
      (Phrase.operator "," ++ listed items last? ++ .closing .paren :: q)
    obtain ⟨unnamed, read⟩ := each i List.mem_cons_self
      (Phrase.operator "," ++ listed items last? ++ .closing .paren :: q)
      (.inr ⟨_, List.append_assoc ..⟩)
    rw [← List.append_assoc] at start unnamed
    refine .sees start.notEnd (.skip (reads_no_attributes start.notHash) fun _ _ => ?_)
    refine .sees unnamed.variadic ?_
    rw [List.append_assoc] at start unnamed
    refine .bind (reads_functionParameter start.notMut unnamed read) fun _ _ => ?_
    refine .sees (b := false) rfl (.bind .comma fun _ _ => ?_)
    have comma : (Phrase.operator ",").length = 1 := rfl
    rw [List.length_append, List.length_append] at enough
    exact ih false fuel (by omega) (fun j member => starts j (List.mem_cons_of_mem _ member))
      fun j member => each j (List.mem_cons_of_mem _ member)

theorem reads_functionType {items : List Phrase} {last? result? : Option Phrase}
    (starts : ∀ i ∈ items ++ last?.toList, ∀ r, Commences (i ++ r).unplaced)
    (each : ∀ i ∈ items ++ last?.toList, ∀ r t, AfterItem (.closing .paren :: t) r →
      Unnamed (i ++ r).unplaced ∧ Reads (n.type true) i r)
    (result : Reads (resultType n) (returning result?) q) :
    Reads (functionType n)
      (.word "fn" :: (grouped .paren (listed items last?) ++ returning result?)) q := by
  refine .step (f := do
    group .paren do functionParameters n true ((← ahead).length + 1)
    resultType n) (fun _ => ⟨_, rfl⟩)
      (.bind (A := fun _ => True) (.group (.ahead ?_)) fun _ _ => result)
  refine reads_functionParameters last? items true _ ?_ starts fun i member r after =>
    each i member r _ after
  simp only [unplaced, List.length_map, List.length_append]
  omega

theorem reads_type_function (read : Reads (functionType n) (.word "fn" :: p) q) :
    Reads (type n sums) (.word "fn" :: p) q :=
  .step (f := do
    functionType n
    return .other) (fun _ => ⟨_, rfl⟩) (.last read fun _ _ => .pure trivial)

theorem reads_type_generalFunction {names : List String} {last? : Option String}
    (read : Reads (functionType n) (.word "fn" :: p) q) :
    Reads (type n sums) (introducing names last? ++ .word "fn" :: p) q := by
  refine .ahead (.bind (.captured reads_binder) ?_)
  rintro ⟨_, b⟩ rfl
  exact .step (f := do
    functionType n
    return .other) (fun _ => ⟨_, rfl⟩) (.last read fun _ _ => .pure trivial)

theorem reads_type_parenthesised (notEnd : Ahead.isEnd (p ++ .closing .paren :: q).unplaced = false)
    (notLifetime : Ahead.isLifetime (p ++ .closing .paren :: q).unplaced = false)
    (notMark : Ahead.isOperator "?" (p ++ .closing .paren :: q).unplaced = false)
    (noPlus : (sums && Ahead.isOperator "+" q.unplaced) = false)
    (read : Reads (n.type true) p (.closing .paren :: q)) :
    Reads (type n sums) (grouped .paren p) q := by
  have content : Reads (parenContent n) p (.closing .paren :: q)
      fun x => ∃ form, x = .type form := by
    refine .ahead ?_
    rw [if_neg (ne_true_of_eq_false notEnd), if_neg (ne_true_of_eq_false notLifetime),
      if_neg (ne_true_of_eq_false notMark)]
    refine .last read fun form _ => .skip_eq (.operator?_absent rfl) ?_
    exact .pure ⟨form, rfl⟩
  refine .step (f := parenType n sums) (fun _ => ⟨_, rfl⟩) (.last (.group content) ?_)
  rintro _ ⟨form, rfl⟩
  refine .sees (b := Ahead.isOperator "+" q.unplaced) rfl ?_
  rw [if_neg]
  · exact .pure trivial
  · cases sums
    · exact Bool.false_ne_true
    · simp [show Ahead.isOperator "+" q.unplaced = false from noPlus]

/-! ## Arguments -/

theorem reads_literal (text : String) : Reads literal? [.literal text] q (· = some text) := by
  have alone (ts : List Token) : (consumed (⟨.literal text, ⟨0, 0⟩⟩ :: ts) ts).length = 1 := by
    simp [consumed]
  refine .step (f := do
    takeMany (consumed (Phrase.unplaced (.literal text :: q)) q.unplaced).length
    return some text) (fun _ => ⟨_, rfl⟩) ?_
  have first : Phrase.unplaced (.literal text :: q) = ⟨.literal text, ⟨0, 0⟩⟩ :: q.unplaced := rfl
  rw [first, alone]
  exact fun _ => ⟨_, _, rfl, rfl⟩

theorem reads_genericArgument_type (lifetime : (Ahead.isLifetime (p ++ q).unplaced
      && !Ahead.isOperator "+" (Ahead.next (p ++ q).unplaced)) = false)
    (value : ((literalAhead? (p ++ q).unplaced).isSome
      || Ahead.isGroup .brace (p ++ q).unplaced) = false)
    (noBinding : Ahead.isOperator "=" q.unplaced = false ∧ Ahead.isOperator ":" q.unplaced = false)
    (read : Reads (n.type true) p q) : Reads (genericArgument n) p q := by
  refine .ahead ?_
  rw [if_neg (ne_true_of_eq_false lifetime)]
  rw [if_neg (ne_true_of_eq_false value)]
  refine .last read fun form _ => ?_
  split
  · refine .skip_eq (.operator?_absent noBinding.1) ?_
    refine .skip_eq (.operator?_absent noBinding.2) ?_
    exact .pure trivial
  · exact .pure trivial

theorem reads_genericArgument_lifetime {name : String}
    (ends : AfterItem (Phrase.operator ">" ++ p) q) :
    Reads (genericArgument n) (ofLifetime name) q := by
  obtain rfl | ⟨t, rfl⟩ := ends <;> exact fun _ => ⟨_, _, rfl, trivial⟩

theorem reads_genericArgument_literal {text : String} :
    Reads (genericArgument n) [.literal text] q := by
  refine .step (f := do
    constArgument n
    return false) (fun _ => ⟨_, rfl⟩) (.last (A := fun _ => True)
      (.last_eq (reads_literal text) (.pure trivial)) fun _ _ => .pure trivial)

theorem reads_type_name (free : Ahead.isKeyword w = false) (ends : EndsType q)
    (noPlus : (sums && Ahead.isOperator "+" q.unplaced) = false) :
    Reads (type n sums) [.word w] q (· = .path ⟨false, [w], false, false⟩) := by
  have stops : goesOnToWord q.unplaced = false := by simp [goesOnToWord, ends.concludes.notRoot]
  have path := reads_pathType (b := []) ends noPlus
    (reads_qualifiedPath (n := n) (p := [.word w]) rfl (reads_path_name free ends.endsWord stops))
  refine reads_type_path (startsPath_word (.inl free)) (path.mono ?_)
  rintro _ ⟨_, rfl, rfl⟩
  rfl

theorem reads_genericArgument_binding (free : Ahead.isKeyword w = false)
    (name : ∀ r, Reads (n.type true) [.word w] (Phrase.operator "=" ++ r)
      (· = .path ⟨false, [w], false, false⟩))
    (value : ((literalAhead? (p ++ q).unplaced).isSome
      || Ahead.isGroup .brace (p ++ q).unplaced) = false)
    (read : Reads (n.type true) p q) :
    Reads (genericArgument n) (.word w :: (Phrase.operator "=" ++ p)) q := by
  have word : literalAhead? (Phrase.unplaced (.word w :: (Phrase.operator "=" ++ p) ++ q)) = none :=
    literalAhead?_word free
  refine .ahead ?_
  rw [if_neg (by exact Bool.false_ne_true), if_neg (by rw [word]; exact Bool.false_ne_true)]
  refine .bind_eq (p := [.word w]) (name _) ?_
  refine .bind_eq (p := Phrase.operator "=") (r := operator? "=") (a := true)
    (fun _ => ⟨_, _, rfl, rfl⟩) ?_
  refine .ahead ?_
  rw [if_neg (ne_true_of_eq_false value)]
  exact .last read fun _ _ => .pure trivial

end RecordRows.Source
