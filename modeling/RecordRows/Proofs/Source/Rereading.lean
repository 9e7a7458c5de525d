import RecordRows.Proofs.Source.TypeRules

/-!
Ordinary types are read wherever a type can stand: in front of all that may stand behind a type, and
again as the subject of a bound. The induction is on the syntax of the types; a type that is nested
in another one is shorter, and this is why the levels of nesting suffice.
-/
namespace RecordRows.Source

open Rule Phrase

variable {n : Nested} {p q r t : Phrase} {w : String} {s : Span} {ts : List Token} {sums : Bool}
  {d : Nat}

/-! ## Ordinary parts are read -/

/-- Arguments are types again, one level deeper. -/
def Part.size : Part → Phrase → Nat
  | .argument, p => p.length + 1
  | _, p => p.length

/-- The rule for a part, with `d` levels of nesting below it, reads a phrase in front of all that
may stand behind the part. -/
def ReadsAt (d : Nat) : Part → Phrase → Prop
  | .word, p => ∀ r, EndsWord r → Reads (pathWord (nestedWithin d) false) p r
  | .path, p => ∀ r, EndsType r → Reads (path (nestedWithin d) false) p r
  | .argument, p => ∀ r t, AfterItem (Phrase.operator ">" ++ t) r →
      Reads (genericArgument (nestedWithin d)) p r
  | .bound form, p => ∀ place r, EndsType r → Reads (bound (nestedWithin d) place) p r (· = form)
  | .plain, p => ∀ sums r, EndsType r → (sums && Ahead.isOperator "+" r.unplaced) = false →
      Reads (type (nestedWithin d) sums) p r
  | .type, p => ∀ r, EndsType r → Ahead.isOperator "+" r.unplaced = false →
      Reads (type (nestedWithin d) true) p r

/-- The rule for a part reads a phrase when there are levels enough. -/
def Readable (part : Part) (p : Phrase) : Prop := ∀ d, part.size p < d → ReadsAt d part p

theorem Rule.AfterItem.endsType {stop : Phrase} (h : AfterItem stop r) (ends : EndsType stop) :
    EndsType r := by
  obtain rfl | ⟨t, rfl⟩ := h
  · exact ends
  · exact .cons (by decide)

theorem Rule.AfterItem.absent {stop : Phrase} {s : String} (h : AfterItem stop r)
    (none : Ahead.isOperator s stop.unplaced = false)
    (comma : ∀ t, Ahead.isOperator s (Phrase.operator "," ++ t).unplaced = false) :
    Ahead.isOperator s r.unplaced = false := by
  obtain rfl | ⟨t, rfl⟩ := h
  · exact none
  · exact comma t

theorem Readable.nested (h : Readable .type p) (deep : p.length + 1 < d) (ends : EndsType r)
    (noPlus : Ahead.isOperator "+" r.unplaced = false) :
    Reads ((nestedWithin d).type true) p r := by
  cases d with
  | zero => exact absurd deep (Nat.not_lt_zero _)
  | succ d => exact h d (Nat.lt_of_succ_lt_succ deep) r ends noPlus

theorem Readable.nestedPlain (h : Readable .plain p) (deep : p.length + 1 < d) (ends : EndsType r) :
    Reads ((nestedWithin d).type false) p r := by
  cases d with
  | zero => exact absurd deep (Nat.not_lt_zero _)
  | succ d => exact h d (Nat.lt_of_succ_lt_succ deep) false r ends rfl

theorem length_le_flatMap_of_mem {ι : Type} (text : ι → Phrase) {items : List ι} {i : ι}
    (h : i ∈ items) : (text i).length ≤ (items.flatMap text).length := by
  rw [List.flatMap_def]
  exact (List.sublist_flatten_of_mem (List.mem_map_of_mem h)).length_le

theorem length_le_listed {items : List Phrase} {last? : Option Phrase} {i : Phrase}
    (h : i ∈ items ++ last?.toList) : i.length ≤ (listed items last?).length := by
  unfold listed
  rw [List.length_append]
  rcases List.mem_append.mp h with h | h
  · have part := length_le_flatMap_of_mem (· ++ Phrase.operator ",") h
    rw [List.length_append] at part
    omega
  · rw [Option.mem_toList] at h
    subst h
    exact Nat.le_add_left _ _

theorem length_le_signed {ι : Type} (sign : String) (text : ι → Phrase) {items : List ι} {i : ι}
    (h : i ∈ items) : (text i).length ≤ (signed sign text items).length := by
  unfold signed
  have part := length_le_flatMap_of_mem (fun j => Phrase.operator sign ++ text j) h
  rw [List.length_append] at part
  omega

/-! ### Words, paths and arguments -/

theorem readable_applied {items : List Phrase} {last? : Option Phrase}
    (free : Ahead.isKeyword w = false) (h : ∀ i ∈ items ++ last?.toList, Ordinary .argument i)
    (ih : ∀ i ∈ items ++ last?.toList, Readable .argument i) :
    Readable .word
      (.word w :: (Phrase.operator "<" ++ (listed items last? ++ Phrase.operator ">"))) := by
  intro d deep r ends
  refine reads_applied free (fun i member r => ((h i member).commences r).notAngle)
    fun i member r after => ih i member d ?_ r _ after
  have shorter := length_le_listed member
  simp only [Part.size, List.length_cons, List.length_append] at deep ⊢
  omega

theorem readable_words {first : Phrase} {rest : List Phrase}
    (h : ∀ v ∈ first :: rest, Ordinary .word v) (ih : ∀ v ∈ first :: rest, Readable .word v)
    (deep : (first ++ signed "::" id rest).length < d) :
    (∀ v ∈ first :: rest, ∃ w t, v = .word w :: t) ∧
      ∀ v ∈ first :: rest, ∀ r, EndsWord r → Reads (pathWord (nestedWithin d) false) v r := by
  refine ⟨fun v member => ?_, fun v member r ends => ih v member d ?_ r ends⟩
  · obtain ⟨w, t, rfl, -⟩ := (h v member).word_start
    exact ⟨w, t, rfl⟩
  · rw [List.length_append] at deep
    rcases List.mem_cons.mp member with rfl | member
    · exact Nat.lt_of_le_of_lt (Nat.le_add_right _ _) deep
    · have shorter : v.length ≤ _ := length_le_signed "::" id member
      simp only [Part.size]
      omega

theorem readable_path (rooted : Bool) {first : Phrase} {rest : List Phrase}
    (h : ∀ v ∈ first :: rest, Ordinary .word v) (ih : ∀ v ∈ first :: rest, Readable .word v) :
    Readable .path
      ((if rooted then Phrase.operator "::" else []) ++ (first ++ signed "::" id rest)) := by
  intro d deep r ends
  simp only [Part.size] at deep
  rw [List.length_append] at deep
  obtain ⟨starts, each⟩ := readable_words (d := d) h ih (by omega)
  exact reads_path rooted ends starts each

theorem afterAngle (h : AfterItem (Phrase.operator ">" ++ t) r) : EndsType r ∧
    Ahead.isOperator "+" r.unplaced = false ∧ Ahead.isOperator "=" r.unplaced = false ∧
      Ahead.isOperator ":" r.unplaced = false := by
  exact ⟨h.endsType (.cons (by decide)), h.absent rfl fun _ => rfl, h.absent rfl fun _ => rfl,
    h.absent rfl fun _ => rfl⟩

theorem readable_argument (h : Ordinary .type p) (ih : Readable .type p) :
    Readable .argument p := by
  intro d deep r t after
  obtain ⟨ends, noPlus, noBinding⟩ := afterAngle after
  exact reads_genericArgument_type (h.not_argument_start r) (h.not_value_start r) noBinding
    (ih.nested deep ends noPlus)

theorem readable_binding (free : Ahead.isKeyword w = false) (h : Ordinary .type p)
    (ih : Readable .type p) : Readable .argument (.word w :: (Phrase.operator "=" ++ p)) := by
  intro d deep r t after
  obtain ⟨ends, noPlus, -⟩ := afterAngle after
  simp only [Part.size, List.length_cons, List.length_append] at deep
  obtain ⟨d, rfl⟩ : ∃ e, d = e + 1 := ⟨d - 1, by omega⟩
  exact reads_genericArgument_binding free
    (fun r => reads_type_name free (.cons (by decide)) rfl) (h.not_value_start r)
    (ih.nested (by omega) ends noPlus)

/-! ### Bounds -/

theorem readable_trait (h : Ordinary .path p) (ih : Readable .path p) :
    Readable (.bound .trait) p := by
  intro d deep place r ends
  exact reads_bound_path (h.startsPath r) (reads_traitPath ends (ih d deep r ends))

theorem readable_relaxed (h : Ordinary .path p) (ih : Readable .path p) :
    Readable (.bound .trait) (Phrase.operator "?" ++ p) := by
  intro d deep place r ends
  have path := reads_traitPath ends (ih d (Nat.lt_of_succ_lt deep) r ends)
  exact reads_bound_trait (isLifetime_punct rfl) rfl rfl
    (reads_trait_relaxed place.constants (h.startsPath r) path)

theorem readable_general {names : List String} {last? : Option String} (h : Ordinary .path p)
    (ih : Readable .path p) : Readable (.bound .trait) (introducing names last? ++ p) := by
  intro d deep place r ends
  simp only [Part.size] at deep
  rw [List.length_append] at deep
  exact reads_bound_trait rfl rfl rfl (reads_trait place.constants reads_binder (h.startsPath r)
    (reads_traitPath ends (ih d (show p.length < d by omega) r ends)))

theorem afterParen (h : AfterItem (.closing .paren :: t) r) : EndsType r ∧
    Ahead.isOperator "+" r.unplaced = false ∧ Ahead.isOperator ":" r.unplaced = false := by
  exact ⟨h.endsType (.cons (by decide)), h.absent rfl fun _ => rfl, h.absent rfl fun _ => rfl⟩

theorem readable_callable {items : List Phrase} {last? result? : Option Phrase}
    (free : Ahead.isKeyword w = false) (h : ∀ i ∈ items ++ last?.toList, Ordinary .type i)
    (ih : ∀ i ∈ items ++ last?.toList, Readable .type i) (ihr : ∀ r ∈ result?, Readable .plain r) :
    Readable (.bound .trait)
      (.word w :: (grouped .paren (listed items last?) ++ returning result?)) := by
  intro d deep place q ends
  simp only [Part.size, grouped, List.length_cons, List.length_append] at deep
  have result : Reads (resultType (nestedWithin d)) (returning result?) q := by
    refine reads_resultType ends fun r member => (ihr r member).nestedPlain ?_ ends
    subst member
    simp only [returning, Option.map_some, Option.getD_some, List.length_append] at deep
    omega
  have read : Reads (traitPath (nestedWithin d) false)
      (.word w :: (grouped .paren (listed items last?) ++ returning result?)) q := by
    refine reads_traitPath_callable free (fun i member r => ((h i member).commences r).notEnd)
      (fun i member r t after => ?_) result
    obtain ⟨ends, noPlus, -⟩ := afterParen after
    have shorter := length_le_listed member
    exact (ih i member).nested (by omega) ends noPlus
  exact reads_bound_path (startsPath_word (.inl free)) read

/-! ### Types -/

theorem readable_named (h : Ordinary .path p) (ih : Readable .path p) : Readable .plain p := by
  intro d deep sums r ends noPlus
  have starts := h.startsPath r
  exact reads_type_path starts ((reads_pathType ends noPlus
    (reads_qualifiedPath starts.notAngle (ih d deep r ends))).mono fun _ _ => trivial)

theorem readable_projected {self trait first : Phrase} {rest : List Phrase}
    (ihs : Readable .type self) (iht : Readable .path trait)
    (h : ∀ v ∈ first :: rest, Ordinary .word v)
    (ih : ∀ v ∈ first :: rest, Readable .word v) :
    Readable .plain (Phrase.operator "<" ++ (self ++ (.word "as" :: (trait
      ++ (Phrase.operator ">" ++ (Phrase.operator "::" ++ (first ++ signed "::" id rest))))))) := by
  intro d deep sums r ends noPlus
  simp only [Part.size, List.length_cons, List.length_append] at deep
  have angle : (Phrase.operator "<").length = 1 := rfl
  have root : (Phrase.operator "::").length = 2 := rfl
  obtain ⟨starts, each⟩ := readable_words (d := d) h ih (by rw [List.length_append]; omega)
  exact reads_type_projected ends noPlus
    (fun r => ihs.nested (by omega) (.cons (by decide)) rfl)
    (fun r => iht d (show trait.length < d by omega) _ (.cons (by decide))) starts each

theorem readable_reference {lifetime? : Option String} {mutable : Bool} (h : Ordinary .plain p)
    (ih : Readable .plain p) :
    Readable .plain (Phrase.operator "&" ++ ((lifetime?.map ofLifetime).getD []
      ++ ((if mutable then [.word "mut"] else []) ++ p))) := by
  intro d deep sums r ends noPlus
  simp only [Part.size, List.length_append] at deep
  have sign : (Phrase.operator "&").length = 1 := rfl
  exact reads_type_reference ((Ordinary.type h).type_start h.plain_bare r).1 (h.commences r).notMut
    (ih.nestedPlain (by omega) ends)

theorem readable_pointer {mutable : Bool} (ih : Readable .plain p) :
    Readable .plain (Phrase.operator "*" ++ .word (if mutable then "mut" else "const") :: p) := by
  intro d deep sums r ends noPlus
  simp only [Part.size, List.length_cons, List.length_append] at deep
  exact reads_type_pointer (ih.nestedPlain (by omega) ends)

theorem readable_parenthesised (h : Ordinary .type p) (bare : p.head? ≠ some (.punct '\'' true))
    (ih : Readable .type p) : Readable .plain (grouped .paren p) := by
  intro d deep sums r ends noPlus
  simp only [Part.size, grouped, List.length_cons, List.length_append] at deep
  obtain ⟨notLifetime, notMark⟩ := h.type_start bare (.closing .paren :: r)
  exact reads_type_parenthesised (h.commences _).notEnd notLifetime notMark noPlus
    (ih.nested (by omega) (.cons (by decide)) rfl)

/-- The items of a list in parentheses. -/
theorem readable_items {items : List Phrase} {last? : Option Phrase}
    (ih : ∀ i ∈ items ++ last?.toList, Readable .type i)
    (deep : (grouped .paren (listed items last?)).length < d) {i : Phrase}
    (member : i ∈ items ++ last?.toList) (after : AfterItem (.closing .paren :: t) r) :
    Reads ((nestedWithin d).type true) i r := by
  obtain ⟨ends, noPlus, -⟩ := afterParen after
  have shorter := length_le_listed member
  simp only [grouped, List.length_cons, List.length_append] at deep
  exact (ih i member).nested (by omega) ends noPlus

theorem readable_tuple {first : Phrase} {items : List Phrase} {last? : Option Phrase}
    (hf : Ordinary .type first) (bare : first.head? ≠ some (.punct '\'' true))
    (h : ∀ i ∈ items ++ last?.toList, Ordinary .type i) (ihf : Readable .type first)
    (ih : ∀ i ∈ items ++ last?.toList, Readable .type i) :
    Readable .plain (grouped .paren (first ++ (Phrase.operator "," ++ listed items last?))) := by
  intro d deep sums r ends noPlus
  simp only [Part.size, grouped, List.length_cons, List.length_append] at deep
  refine reads_type_tuple (fun r => (hf.commences r).notEnd) (fun r => (hf.type_start bare r).1)
    (fun r => (hf.type_start bare r).2) (fun r => ihf.nested (by omega) (.cons (by decide)) rfl)
    (fun i member r => ((h i member).commences r).notEnd)
    fun i member r after => readable_items ih ?_ member after
  simp only [grouped, List.length_cons, List.length_append]
  omega

theorem readable_slice (ih : Readable .type p) : Readable .plain (grouped .bracket p) := by
  intro d deep sums r ends noPlus
  simp only [Part.size, grouped, List.length_cons, List.length_append] at deep
  exact reads_type_slice (ih.nested (by omega) (.cons (by decide)) rfl)

theorem readable_array {e : Phrase} (ih : Readable .type p) (length : IsLength e) :
    Readable .plain (grouped .bracket (p ++ (Phrase.operator ";" ++ e))) := by
  intro d deep sums r ends noPlus
  simp only [Part.size, grouped, List.length_cons, List.length_append] at deep
  exact reads_type_array (fun r => ih.nested (by omega) (.cons (by decide)) rfl)
    (length d r (by omega))

theorem reads_function {items : List Phrase} {last? result? : Option Phrase} (ends : EndsType q)
    (h : ∀ i ∈ items ++ last?.toList, Ordinary .type i)
    (ih : ∀ i ∈ items ++ last?.toList, Readable .type i) (ihr : ∀ r ∈ result?, Readable .plain r)
    (deep : (grouped .paren (listed items last?) ++ returning result?).length + 1 < d) :
    Reads (functionType (nestedWithin d))
      (.word "fn" :: (grouped .paren (listed items last?) ++ returning result?)) q := by
  rw [List.length_append] at deep
  refine reads_functionType (fun i member r => (h i member).commences r)
    (fun i member r t after => ⟨(h i member).unnamed (afterParen after).2.2,
      readable_items ih (by omega) member after⟩)
    (reads_resultType ends fun r member => (ihr r member).nestedPlain ?_ ends)
  subst member
  simp only [returning, Option.map_some, Option.getD_some, List.length_append] at deep
  omega

theorem readable_function {items : List Phrase} {last? result? : Option Phrase}
    (h : ∀ i ∈ items ++ last?.toList, Ordinary .type i)
    (ih : ∀ i ∈ items ++ last?.toList, Readable .type i) (ihr : ∀ r ∈ result?, Readable .plain r) :
    Readable .plain (.word "fn" :: (grouped .paren (listed items last?) ++ returning result?)) :=
  fun _ deep _ _ ends _ => reads_type_function (reads_function ends h ih ihr deep)

theorem readable_generalFunction {names : List String} {last? : Option String} {items : List Phrase}
    {final? result? : Option Phrase} (h : ∀ i ∈ items ++ final?.toList, Ordinary .type i)
    (ih : ∀ i ∈ items ++ final?.toList, Readable .type i) (ihr : ∀ r ∈ result?, Readable .plain r) :
    Readable .type (introducing names last? ++ (.word "fn" :: (grouped .paren (listed items final?)
      ++ returning result?))) := by
  intro d deep r ends noPlus
  simp only [Part.size] at deep
  rw [List.length_append] at deep
  exact reads_type_generalFunction
    (reads_function ends h ih ihr (Nat.lt_of_le_of_lt (Nat.le_add_left _ _) deep))

theorem readable_lone {place : BoundPlace} (ih : Readable (.bound .trait) p) (deep : p.length < d)
    (ends : EndsType r) (noPlus : (sums && Ahead.isOperator "+" r.unplaced) = false) :
    Reads (typeBounds (nestedWithin d) sums place) p r := by
  have read := ih d deep
  cases sums with
  | false => exact reads_typeBounds_lone (read place r ends)
  | true =>
    have one : Reads (typeBounds (nestedWithin d) true place)
        (p ++ signed "+" Prod.snd ([] : List (BoundForm × Phrase))) r := by
      refine reads_typeBounds (.trait, p) ends noPlus ⟨_, List.mem_cons_self, rfl⟩ nofun ?_
      rintro i member r ends
      rw [List.mem_singleton.mp member]
      exact read place r ends
    rwa [signed_nil, List.append_nil] at one

theorem readable_dyn (h : Ordinary (.bound .trait) p) (ih : Readable (.bound .trait) p) :
    Readable .plain (.word "dyn" :: p) := fun _ deep _ r ends noPlus =>
  reads_type_dyn (h.bound_start objectBounds r).2
    (readable_lone ih (Nat.lt_of_succ_lt deep) ends noPlus)

theorem readable_impl (ih : Readable (.bound .trait) p) :
    Readable .plain (.word "impl" :: p) := fun _ deep _ _ ends noPlus =>
  reads_type_impl (readable_lone ih (Nat.lt_of_succ_lt deep) ends noPlus)

variable {first : BoundForm × Phrase} {rest : List (BoundForm × Phrase)}

theorem readable_bounds {bounds : List (BoundForm × Phrase)}
    (ih : ∀ i ∈ bounds, Readable (.bound i.1) i.2)
    (deep : (signed "+" Prod.snd bounds).length < d) (place : BoundPlace) :
    ∀ i ∈ bounds, ∀ r, EndsType r → Reads (bound (nestedWithin d) place) i.2 r (· = i.1) := by
  intro i member r ends
  have shorter := length_le_signed "+" Prod.snd member
  exact ih i member d (Nat.lt_of_le_of_lt shorter deep) place r ends

theorem readable_pathSum {b : Phrase} (h : Ordinary .path p) (ih : Readable .path p)
    (hs : ∀ i ∈ rest, Ordinary (.bound i.1) i.2) (ihs : ∀ i ∈ rest, Readable (.bound i.1) i.2)
    (deep : (p ++ signed "+" Prod.snd rest).length < d) (ends : EndsType r)
    (noPlus : Ahead.isOperator "+" r.unplaced = false) :
    Reads (pathType (nestedWithin d) true b) (p ++ signed "+" Prod.snd rest) r := by
  rw [List.length_append] at deep
  have path := fun q ends => reads_qualifiedPath (h.startsPath q).notAngle
    (ih d (show p.length < d by omega) q ends)
  cases rest with
  | nil =>
    rw [signed_nil, List.append_nil]
    have alone : (true && Ahead.isOperator "+" r.unplaced) = false := noPlus
    exact (reads_pathType ends alone (path r ends)).mono fun _ _ => trivial
  | cons first rest =>
    refine reads_pathType_sum ends noPlus ((path _ (endsType_plus _)).mono ?_)
      (fun i member q => ((hs i member).bound_start objectBounds q).1)
      fun i member q ends => (readable_bounds ihs (by omega) objectBounds i member q ends).mono
        fun _ _ => trivial
    rintro _ ⟨form, rfl, -⟩
    rfl

theorem readable_sum (h : Ordinary .path p) (ih : Readable .path p)
    (hs : ∀ i ∈ first :: rest, Ordinary (.bound i.1) i.2)
    (ihs : ∀ i ∈ first :: rest, Readable (.bound i.1) i.2) :
    Readable .type (p ++ signed "+" Prod.snd (first :: rest)) := by
  intro d deep r ends noPlus
  have starts := h.startsPath (signed "+" Prod.snd (first :: rest) ++ r)
  rw [← List.append_assoc] at starts
  exact reads_type_path starts (readable_pathSum h ih hs ihs deep ends noPlus)

theorem readable_generalSum {names : List String} {last? : Option String} {first : Phrase}
    {words : List Phrase} (h : ∀ v ∈ first :: words, Ordinary .word v)
    (ih : ∀ v ∈ first :: words, Readable .word v) (hs : ∀ i ∈ rest, Ordinary (.bound i.1) i.2)
    (ihs : ∀ i ∈ rest, Readable (.bound i.1) i.2) :
    Readable .type (introducing names last? ++ ((first ++ signed "::" id words)
      ++ signed "+" Prod.snd rest)) := by
  intro d deep r ends noPlus
  simp only [Part.size] at deep
  rw [List.length_append] at deep
  have read (b : Phrase) : Reads (pathType (nestedWithin d) true b) _ r :=
    readable_pathSum (.path false h) (readable_path false h ih) hs ihs
      (Nat.lt_of_le_of_lt (Nat.le_add_left _ _) deep) ends noPlus
  obtain ⟨w, t, rfl, named⟩ := (h first List.mem_cons_self).word_start
  exact reads_type_general (isModuleWord_of_named named) (startsPath_word named) read

theorem readable_outliving {name : String} (hs : ∀ i ∈ first :: rest, Ordinary (.bound i.1) i.2)
    (ihs : ∀ i ∈ first :: rest, Readable (.bound i.1) i.2)
    (trait : ∃ i ∈ first :: rest, i.1 = .trait) :
    Readable .type (ofLifetime name ++ signed "+" Prod.snd (first :: rest)) := by
  intro d deep r ends noPlus
  simp only [Part.size] at deep
  rw [List.length_append] at deep
  obtain ⟨i, member, trait⟩ := trait
  refine reads_type_bounds (reads_typeBounds (.lifetime, ofLifetime name) ends noPlus
    ⟨i, List.mem_cons_of_mem _ member, trait⟩
    (fun i member q => ((hs i member).bound_start _ q).1) ?_)
  rintro i member q ends
  rcases List.mem_cons.mp member with rfl | member
  · exact reads_bound_lifetime _ name
  · exact readable_bounds ihs (by omega) _ i member q ends

theorem readable_boundList {place : BoundPlace}
    (hs : ∀ i ∈ first :: rest, Ordinary (.bound i.1) i.2)
    (ihs : ∀ i ∈ first :: rest, Readable (.bound i.1) i.2)
    (trait : ∃ i ∈ first :: rest, i.1 = .trait)
    (deep : (first.2 ++ signed "+" Prod.snd rest).length < d) (ends : EndsType r)
    (noPlus : Ahead.isOperator "+" r.unplaced = false) :
    Reads (typeBounds (nestedWithin d) true place) (first.2 ++ signed "+" Prod.snd rest) r := by
  rw [List.length_append] at deep
  refine reads_typeBounds first ends noPlus trait
    (fun i member q => ((hs i (List.mem_cons_of_mem _ member)).bound_start _ q).1) ?_
  rintro i member q ends
  rcases List.mem_cons.mp member with rfl | member
  · exact ihs _ List.mem_cons_self d (Nat.lt_of_le_of_lt (Nat.le_add_right _ _) deep) place q ends
  · exact readable_bounds (fun i member => ihs i (List.mem_cons_of_mem _ member)) (by omega) _ i
      member q ends

theorem readable_dynSum (hs : ∀ i ∈ first :: rest, Ordinary (.bound i.1) i.2)
    (ihs : ∀ i ∈ first :: rest, Readable (.bound i.1) i.2)
    (trait : ∃ i ∈ first :: rest, i.1 = .trait) :
    Readable .type (.word "dyn" :: (first.2 ++ signed "+" Prod.snd rest)) := by
  intro d deep r ends noPlus
  have starts := ((hs first List.mem_cons_self).bound_start objectBounds
    (signed "+" Prod.snd rest ++ r)).2
  rw [← List.append_assoc] at starts
  exact reads_type_dyn starts (readable_boundList hs ihs trait (Nat.lt_of_succ_lt deep) ends noPlus)

theorem readable_implSum (hs : ∀ i ∈ first :: rest, Ordinary (.bound i.1) i.2)
    (ihs : ∀ i ∈ first :: rest, Readable (.bound i.1) i.2)
    (trait : ∃ i ∈ first :: rest, i.1 = .trait) :
    Readable .type (.word "impl" :: (first.2 ++ signed "+" Prod.snd rest)) :=
  fun _ deep _ ends noPlus =>
    reads_type_impl (readable_boundList hs ihs trait (Nat.lt_of_succ_lt deep) ends noPlus)

/-- The rules of the grammar read every part of an ordinary type, in front of all that may stand
behind it. -/
theorem Ordinary.readable {part : Part} {p : Phrase} (h : Ordinary part p) : Readable part p := by
  -- the levels of nesting are a hypothesis of every part, so each case takes one off for its parts
  induction h with
  | name free => exact fun d _ r ends => (reads_name free ends).mono fun _ _ => trivial
  | relative h => exact fun d _ r ends => reads_relative h ends
  | applied free h ih => exact readable_applied free h ih
  | path rooted h ih => exact readable_path rooted h ih
  | lifetime name => exact fun d _ r t after => reads_genericArgument_lifetime after
  | literal text => exact fun d _ r t _ => reads_genericArgument_literal
  | argument h ih => exact readable_argument h ih
  | binding free h ih => exact readable_binding free h ih
  | outlives name => exact fun d _ place r _ => reads_bound_lifetime place name
  | trait h ih => exact readable_trait h ih
  | relaxed h ih => exact readable_relaxed h ih
  | general h ih => exact readable_general h ih
  | callable free h hr ih ihr => exact readable_callable free h ih ihr
  | named h ih => exact readable_named h ih
  | projected hs ht h ihs iht ih => exact readable_projected ihs iht h ih
  | reference lifetime? mutable h ih => exact readable_reference h ih
  | pointer mutable h ih => exact readable_pointer ih
  | unit => exact fun d _ sums r _ _ => reads_type_unit
  | parenthesised h bare ih => exact readable_parenthesised h bare ih
  | tuple hf bare h ihf ih => exact readable_tuple hf bare h ihf ih
  | slice h ih => exact readable_slice ih
  | array h he ih => exact readable_array ih he
  | never => exact fun d _ sums r _ _ => reads_type_never
  | inferred => exact fun d _ sums r _ _ => reads_type_inferred
  | function h hr ih ihr => exact readable_function h ih ihr
  | dyn h ih => exact readable_dyn h ih
  | impl h ih => exact readable_impl ih
  | type h ih => exact fun d deep r ends noPlus => ih d deep true r ends noPlus
  | sum h hs ih ihs => exact readable_sum h ih hs ihs
  | generalSum h hs ih ihs => exact readable_generalSum h ih hs ihs
  | generalFunction h hr ih ihr => exact readable_generalFunction h ih ihr
  | outliving h trait ih => exact readable_outliving h ih trait
  | dynSum h trait ih => exact readable_dynSum h ih trait
  | implSum h trait ih => exact readable_implSum h ih trait

/-! ## Lengths of arrays -/

/-- What an operand reads that has neither attributes nor a sign before it. -/
def bareOperand (n : Nested) : Rule ExpressionForm := do
  let form ← trailers n (← atom n (n.operand true) true)
  if form = .range && !([] : List MetaItem).isEmpty then
    fail (.excluded "attributes are not allowed on ranges")
  return form

theorem reads_atom_literal (text : String) {operand : Rule ExpressionForm} :
    Reads (atom n operand true) [.literal text] q (· = .literal text) := by
  exact .ahead (.last_eq (reads_literal text) (.pure rfl))

theorem reads_no_literal (h : literalAhead? q.unplaced = none) :
    Reads literal? [] q (· = none) := by
  refine .ahead ?_
  rw [List.nil_append, h]
  exact .pure rfl

theorem reads_atom_name (free : Ahead.isKeyword w = false) {operand : Rule ExpressionForm} :
    Reads (atom n operand true) [.word w] (.closing .bracket :: q) (· = .path (some w)) := by
  have other (k) (h : k ∈ Ahead.keywords) :
      Ahead.isWord k (Phrase.unplaced ([.word w] ++ .closing .bracket :: q)) = false :=
    isWord_keyword free h
  refine .ahead (.skip_eq (reads_no_literal (literalAhead?_word free)) ?_)
  dsimp only
  have block : (blockWords.find? fun b => seesBlock b.1
      (Phrase.unplaced ([.word w] ++ .closing .bracket :: q))) = none :=
    List.find?_eq_none.mpr fun b member => by
      rw [seesBlock, other b.1 (by fin_cases member <;> decide), Bool.false_and]
      exact Bool.false_ne_true
  have closure : startsClosure (Phrase.unplaced ([.word w] ++ .closing .bracket :: q)) = false := by
    rw [startsClosure, other "move" (by decide), other "static" (by decide),
      other "for" (by decide), other "const" (by decide), other "async" (by decide)]
    rfl
  have path :
      startsPathExpression (Phrase.unplaced ([.word w] ++ .closing .bracket :: q)) = true := by
    have names : isModuleWord (Phrase.unplaced ([.word w] ++ .closing .bracket :: q)) = true :=
      isModuleWord_of_named (.inl free)
    rw [startsPathExpression, startsPath, names]
    rfl
  rw [block]
  dsimp only
  rw [if_neg (ne_true_of_eq_false closure), if_pos path]
  refine .last (reads_qualifiedPath rfl (reads_path_name free ⟨rfl, rfl⟩ rfl)) ?_
  rintro _ ⟨form, rfl, rfl⟩
  exact fun _ => ⟨_, _, rfl, rfl⟩

theorem reads_expression_literal (text : String) :
    Reads (expression n true) [.literal text] (.closing .bracket :: q) := by
  refine .last (A := (· = ExpressionForm.literal text)) ?_ fun _ same => ?_
  · refine .step (f := bareOperand n) (fun _ => ⟨_, rfl⟩) (.last (reads_atom_literal text) ?_)
    rintro _ rfl
    exact fun _ => ⟨_, _, rfl, rfl⟩
  · subst same
    exact fun _ => ⟨_, _, rfl, trivial⟩

theorem reads_expression_name (free : Ahead.isKeyword w = false) :
    Reads (expression n true) [.word w] (.closing .bracket :: q) := by
  refine .last (A := (· = ExpressionForm.path (some w))) ?_ fun _ same => ?_
  · refine .step (f := bareOperand n) (fun _ => ⟨_, rfl⟩) (.last (reads_atom_name free) ?_)
    rintro _ rfl
    exact fun _ => ⟨_, _, rfl, rfl⟩
  · subst same
    exact fun _ => ⟨_, _, rfl, trivial⟩

theorem isLength_literal (text : String) : IsLength [.literal text] := by
  rintro (_ | d) q deep
  · exact absurd deep (Nat.not_lt_zero _)
  · exact reads_expression_literal text

theorem isLength_name {w : String} (free : Ahead.isKeyword w = false) : IsLength [.word w] := by
  rintro (_ | d) q deep
  · exact absurd deep (Nat.not_lt_zero _)
  · exact reads_expression_name free

/-! ## Types in front of a bound -/

namespace Ordinary

theorem reads_boundsUntil {bound : Phrase} (h : Ordinary .path bound)
    (deep : bound.length + 1 < d) :
    Reads (boundsUntil endsPredicate ((nestedWithin d).bound {})) bound [] := by
  obtain ⟨d, rfl⟩ : ∃ e, d = e + 1 := ⟨d - 1, by omega⟩
  have one : Reads
      (Rule.sum "+" (sees fun ts => !endsPredicate ts) ((nestedWithin (d + 1)).bound {}))
      (bound ++ signed "+" id []) []
      fun x => List.Forall₂ (fun _ _ => True) [bound] x.1 ∧ x.2 = false := by
    refine .sum id bound (by decide) (fun _ _ => ⟨_, _, rfl, rfl⟩) rfl nofun ?_
    rintro i member r (rfl | ⟨_, inside, -⟩)
    · rw [List.mem_singleton.mp member]
      exact ((Ordinary.trait h).readable d (Nat.lt_of_succ_lt_succ deep) {} [] nofun).mono
        fun _ _ => trivial
    · cases inside
  rw [signed_nil, List.append_nil] at one
  exact .sees (h.path_not_endsPredicate []) (.last one fun _ _ => .pure trivial)

/-- A type is read again in front of a bound. -/
theorem reads_predicate {bound : Phrase} (h : Ordinary .type p) (hb : Ordinary .path bound)
    (deep : (p ++ (Phrase.operator ":" ++ bound)).length + 1 < d) :
    Reads (predicate (nestedWithin d)) (p ++ (Phrase.operator ":" ++ bound)) [] := by
  simp only [List.length_append] at deep
  have none := h.not_lifetime_predicate (Phrase.operator ":" ++ bound ++ [])
  rw [← List.append_assoc] at none
  refine .ahead ?_
  rw [if_neg (ne_true_of_eq_false none)]
  have rest {t : Phrase} (ht : Ordinary .type t) (shorter : t.length + 1 < d) : Reads (do
      let _ ← (nestedWithin d).type true
      operator ":"
      boundsUntil endsPredicate ((nestedWithin d).bound {}))
      (t ++ (Phrase.operator ":" ++ bound)) [] := by
    refine .bind (ht.readable.nested shorter (.cons (by decide)) rfl) fun _ _ => ?_
    exact .bind (A := fun _ => True) (fun _ => ⟨_, _, rfl, trivial⟩) fun _ _ =>
      reads_boundsUntil hb (by omega)
  -- lifetimes in front of the type are taken for those of the predicate, and the type behind them
  -- is an ordinary one without them
  obtain ⟨names, last?, t, rfl, ht⟩ | single := h.introduces
  · rw [List.append_assoc]
    rw [List.length_append] at deep
    exact .bind reads_binder fun _ _ => rest ht (by omega)
  · have single := single (Phrase.operator ":" ++ bound ++ [])
    rw [← List.append_assoc] at single
    exact .skip (reads_no_binder single) fun _ _ => rest h (by omega)

end Ordinary

end RecordRows.Source
