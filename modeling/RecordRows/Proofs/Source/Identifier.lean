import Mathlib.Data.List.TakeDrop
import Mathlib.Data.List.TakeWhile
import RecordRows.Proofs.Source.RuleBalance

/-!
Identifiers. Every word of a scanned text is one identifier, plain or raw, and so is the name of
every declaration, since the rules before it only take tokens away (`isIdentifier_name`). Without
its mark a name has no further one, so two names that are compared without their marks are compared
as the language does.
-/
namespace RecordRows.Source

open Text

/-! ## Texts that are identifiers -/

/-- The characters of a plain identifier. -/
def IsPlain (cs : List Char) : Prop :=
  ∃ c tail, cs = c :: tail ∧ startsIdentifier c = true
    ∧ ∀ t ∈ tail, identifierContinue.contains t = true

/-- A text that is read as one identifier, plain or raw. -/
def IsIdentifier (text : String) : Prop := readWord text.toList = some (text.toList, [])

/-- A text with the mark of raw identifiers. -/
def IsRaw (text : String) : Prop := ∃ cs, text.toList = 'r' :: '#' :: cs

/-- Identifiers that are the same name, whether they are raw or not. -/
def SameName (a b : String) : Prop := Name.plainText a = Name.plainText b

instance (a b : String) : Decidable (SameName a b) :=
  inferInstanceAs (Decidable (Name.plainText a = Name.plainText b))

/-- In ASCII identifiers start with letters and underscores. -/
theorem startsIdentifier_of_ascii {c : Char} (ascii : c.toNat < 128) :
    startsIdentifier c = (c.isAlpha || c == '_') := by
  have all : ∀ n ∈ List.range 128, startsIdentifier (Char.ofNat n) =
      ((Char.ofNat n).isAlpha || Char.ofNat n == '_') := by decide +kernel
  have one := all _ (List.mem_range.mpr ascii)
  rwa [Char.ofNat_toNat] at one

/-- In ASCII digits continue them, too. -/
theorem identifierContinue_of_ascii {c : Char} (ascii : c.toNat < 128) :
    identifierContinue.contains c = (c.isAlphanum || c == '_') := by
  have all : ∀ n ∈ List.range 128, identifierContinue.contains (Char.ofNat n) =
      ((Char.ofNat n).isAlphanum || Char.ofNat n == '_') := by decide +kernel
  have one := all _ (List.mem_range.mpr ascii)
  rwa [Char.ofNat_toNat] at one

theorem identifierContinue_of_all {cs : List Char}
    (h : cs.all (fun c => c.toNat < 128 && (c.isAlphanum || c == '_')) = true) :
    ∀ c ∈ cs, identifierContinue.contains c = true := by
  intro c member
  obtain ⟨ascii, word⟩ := Bool.and_eq_true_iff.mp (List.all_eq_true.mp h c member)
  rw [identifierContinue_of_ascii (of_decide_eq_true ascii), word]

theorem readName_eq_some {cs name rest : List Char} (h : readName cs = some (name, rest)) :
    IsPlain name := by
  cases cs with
  | nil => cases h
  | cons c cs =>
    rw [readName] at h
    split at h
    · next starts =>
      rw [List.span_eq_takeWhile_dropWhile] at h
      cases h
      exact ⟨c, _, rfl, starts, fun t => List.mem_takeWhile_imp⟩
    · cases h

theorem readName_of_isPlain {cs : List Char} (h : IsPlain cs) : readName cs = some (cs, []) := by
  obtain ⟨c, tail, rfl, starts, continues⟩ := h
  rw [readName, if_pos starts, List.span_eq_takeWhile_dropWhile,
    List.takeWhile_eq_self_iff.mpr continues, List.dropWhile_eq_nil_iff.mpr continues]

namespace IsPlain

variable {cs : List Char}

theorem hash_notMem (h : IsPlain cs) : '#' ∉ cs := by
  have start : startsIdentifier '#' = false := startsIdentifier_of_ascii (by decide)
  have tail : identifierContinue.contains '#' = false := identifierContinue_of_ascii (by decide)
  obtain ⟨c, cs, rfl, starts, continues⟩ := h
  rw [List.mem_cons]
  rintro (rfl | inside)
  · rw [start] at starts
    cases starts
  · rw [continues _ inside] at tail
    cases tail

theorem not_isRaw (h : IsPlain cs) : ¬ IsRaw (String.ofList cs) := by
  rintro ⟨rest, raw⟩
  rw [String.toList_ofList] at raw
  exact h.hash_notMem (by simp [raw])

/-- More characters that continue an identifier can stand behind it. -/
theorem append (h : IsPlain cs) {more : List Char}
    (continues : ∀ t ∈ more, identifierContinue.contains t = true) : IsPlain (cs ++ more) := by
  obtain ⟨c, tail, rfl, starts, inside⟩ := h
  refine ⟨c, tail ++ more, rfl, starts, fun t ht => ?_⟩
  rcases List.mem_append.mp ht with ht | ht
  · exact inside t ht
  · exact continues t ht

theorem isIdentifier (h : IsPlain cs) : IsIdentifier (String.ofList cs) := by
  have unmarked := h.hash_notMem
  unfold IsIdentifier
  rw [String.toList_ofList]
  unfold readWord
  split
  · simp at unmarked
  · exact readName_of_isPlain h

end IsPlain

theorem plainText_of_not_isRaw {text : String} (h : ¬ IsRaw text) : Name.plainText text = text := by
  unfold Name.plainText
  split
  · next cs marked => exact absurd ⟨cs, marked⟩ h
  · rfl

theorem IsPlain.plainText {text : String} (h : IsPlain text.toList) :
    Name.plainText text = text := by
  have unmarked := h.not_isRaw
  rw [String.ofList_toList] at unmarked
  exact plainText_of_not_isRaw unmarked

/-- An identifier without a mark is the same name as another one when it is spelled like it, the
mark of the other aside. -/
theorem sameName_iff {text : String} (unmarked : ¬ IsRaw text) (n : Name) :
    SameName text n.text ↔ text = n.plain := by
  rw [SameName, plainText_of_not_isRaw unmarked]
  rfl

/-- What is read of an identifier is one, and without its mark it is a plain one. -/
theorem readWord_eq_some {cs name rest : List Char} (h : readWord cs = some (name, rest)) :
    IsIdentifier (String.ofList name) ∧ IsPlain (Name.plainText (String.ofList name)).toList := by
  unfold readWord at h
  split at h
  · next cs =>
    obtain ⟨⟨plain, after⟩, read, h⟩ := Option.bind_eq_some_iff.mp h
    dsimp only at h
    split at h
    · cases h
    · next allowed =>
      cases h
      have isPlain := readName_eq_some read
      constructor
      · unfold IsIdentifier
        rw [String.toList_ofList, readWord, readName_of_isPlain isPlain]
        exact if_neg allowed
      · simpa [Name.plainText] using isPlain
  · have isPlain := readName_eq_some h
    refine ⟨isPlain.isIdentifier, ?_⟩
    rwa [plainText_of_not_isRaw isPlain.not_isRaw, String.toList_ofList]

/-- Without its mark an identifier is a plain one. -/
theorem IsIdentifier.isPlain {text : String} (h : IsIdentifier text) :
    IsPlain (Name.plainText text).toList := by
  have plain := (readWord_eq_some h).2
  rwa [String.ofList_toList] at plain

/-! ## Scanned words -/

/-- A word is an identifier. -/
def Lexeme.IsSound : Lexeme → Prop
  | .word w => IsIdentifier w
  | _ => True

theorem isSound_readLeaf {cs rest : List Char} {l : Lexeme} (h : readLeaf cs = some (l, rest)) :
    l.IsSound := by
  obtain ⟨_, rfl⟩ | ⟨_, _, rfl⟩ | ⟨name, read, rfl⟩ := readLeaf_eq_some h
  · trivial
  · trivial
  · exact (readWord_eq_some read).1

theorem isSound_documentation {inner : Bool} {content : List Char} {l : Lexeme}
    (h : l ∈ documentation inner content) : l.IsSound := by
  have doc : IsIdentifier "doc" := by
    have plain : IsPlain ['d', 'o', 'c'] :=
      ⟨'d', _, rfl, startsIdentifier_of_ascii (by decide), identifierContinue_of_all (by decide)⟩
    exact plain.isIdentifier
  simp only [documentation, Phrase.grouped, List.mem_append, List.mem_cons, List.cons_append,
    List.not_mem_nil, or_false, List.nil_append] at h
  obtain rfl | inner | rfl | rfl | rfl | rfl | rfl := h
  · trivial
  · split at inner <;> simp at inner
    subst inner
    trivial
  · trivial
  · exact doc
  · trivial
  · trivial
  · trivial

theorem isSound_scanFrom {size fuel : Nat} {stack : List Delimiter} {cs : List Char}
    {ts : List Token} (h : scanFrom size fuel stack cs = some ts) : ∀ t ∈ ts, t.lexeme.IsSound := by
  induction fuel generalizing stack cs ts with
  | zero => cases h
  | succ fuel ih =>
    cases scanStep_of_scanFrom h with
    | documentation inner content place more =>
      refine List.forall_mem_append.mpr ⟨fun t ht => ?_, ih more⟩
      obtain ⟨l, hl, rfl⟩ := List.mem_map.mp ht
      exact isSound_documentation hl
    | done => exact List.forall_mem_nil _
    | opening d place more => exact List.forall_mem_cons.mpr ⟨trivial, ih more⟩
    | closing d place top more => exact List.forall_mem_cons.mpr ⟨trivial, ih more⟩
    | leaf place read more => exact List.forall_mem_cons.mpr ⟨isSound_readLeaf read, ih more⟩

/-- Every word of a text is an identifier. -/
theorem isSound_scan? {source : String} {ts : List Token} (h : scan? source = some ts) :
    ∀ t ∈ ts, t.lexeme.IsSound :=
  isSound_scanFrom h

/-! ## Names of declarations -/

namespace Rule

theorem anyWord_eq_ok {s s' : Progress} {w : String} (h : anyWord s = .ok (w, s')) :
    Ahead.word? s.tokens = some w := by
  obtain ⟨ts, _, look, h⟩ := bind_eq_ok h
  cases look
  cases word : Ahead.word? s.tokens with
  | none =>
    simp only [word] at h
    cases h
  | some v =>
    simp only [word] at h
    obtain ⟨_, _, -, h⟩ := bind_eq_ok h
    cases h
    rfl

/-- An identifier is the word in front, and no keyword. -/
theorem identifier_eq_ok {s s' : Progress} {w : String} (h : identifier s = .ok (w, s')) :
    Ahead.word? s.tokens = some w ∧ Ahead.isKeyword w = false := by
  obtain ⟨identifies, _, look, h⟩ := bind_eq_ok h
  split at h
  · next yes =>
    cases look
    have word := anyWord_eq_ok h
    rw [Ahead.isIdentifier, word] at yes
    exact ⟨word, by simpa using yes⟩
  · cases h

end Rule

open Phrase Progress Rule

theorem word?_eq_some {ts : List Token} {w : String} (h : Ahead.word? ts = some w) :
    ∃ t ∈ ts, t.lexeme = .word w := by
  unfold Ahead.word? at h
  split at h
  · cases h
    exact ⟨_, List.mem_cons_self, rfl⟩
  · cases h

/-- The rules that a declaration is read by, up to its parameters. -/
theorem declarationOf_eq_ok {n : Nested} {s s' : Progress} {d : Declaration}
    (h : declarationOf n s = .ok (d, s')) : ∃ attributes v w s₁ s₂ s₃ s₄ s₅,
      outerAttributes n s = .ok (attributes, s₁) ∧ captured visibility s₁ = .ok (v, s₂) ∧
      keyword s₂ = .ok (w, s₃) ∧ nameOf identifier s₃ = .ok (d.name, s₄) ∧
      genericParameters n s₄ = .ok (d.generics.parameters, s₅) := by
  obtain ⟨attributes, s₁, ha, h⟩ := bind_eq_ok h
  obtain ⟨v, s₂, hv, h⟩ := bind_eq_ok h
  obtain ⟨w, s₃, hw, h⟩ := bind_eq_ok h
  obtain ⟨name, s₄, hn, h⟩ := bind_eq_ok h
  obtain ⟨parameters, s₅, hp, h⟩ := bind_eq_ok h
  refine ⟨attributes, v, w, s₁, s₂, s₃, s₄, s₅, ha, hv, hw, ?_⟩
  -- whatever the keyword is, name and parameters are those that have been read
  split at h
  · obtain ⟨_, _, -, h⟩ := bind_eq_ok h
    cases h
    exact ⟨hn, hp⟩
  · obtain ⟨_, _, -, h⟩ := bind_eq_ok h
    obtain ⟨_, _, -, h⟩ := bind_eq_ok h
    cases h
    exact ⟨hn, hp⟩
  · obtain ⟨_, _, -, h⟩ := bind_eq_ok h
    obtain ⟨_, _, -, h⟩ := bind_eq_ok h
    cases h
    exact ⟨hn, hp⟩

/-- The name of a declaration is a word among its tokens, and no keyword. -/
theorem declarationOf_name {n : Nested} [n.Keeps] {s s' : Progress} {d : Declaration}
    (nested : WellNested s.tokens) (h : declarationOf n s = .ok (d, s')) :
    (∃ t ∈ s.tokens, t.lexeme = d.name.lexeme) ∧ Ahead.isKeyword d.name.text = false := by
  obtain ⟨attributes, v, w, s₁, s₂, s₃, s₄, s₅, ha, hv, hw, hn, -⟩ := declarationOf_eq_ok h
  obtain ⟨⟨text, place?⟩, t, hs, h⟩ := bind_eq_ok hn
  have named : ⟨text, place?⟩ = d.name := (Prod.mk.inj (Except.ok.inj h)).1
  obtain ⟨_, _, look, hs⟩ := bind_eq_ok hs
  cases look
  obtain ⟨w, _, hi, hs⟩ := bind_eq_ok hs
  obtain ⟨_, _, look, hs⟩ := bind_eq_ok hs
  cases look
  cases hs
  obtain ⟨word, free⟩ := identifier_eq_ok hi
  obtain ⟨t, inside, lexeme⟩ := word?_eq_some word
  -- the rules in front only take tokens away, so the word found is one of the source
  have first : Advances Closed s s₁ := Keeps.advances nested ha
  have second : Advances Closed s₁ s₂ := Keeps.advances (first.nested nested) hv
  have third : Advances Closed s₂ s₃ := Keeps.advances (second.nested (first.nested nested)) hw
  rw [← named]
  exact ⟨⟨t, ((first.trans second).trans third).suffix.subset inside, lexeme⟩, free⟩

/-- The name of a declaration is one of the words of its source, and no keyword. -/
theorem isIdentifier_name {source : String} {d : Declaration}
    (h : Declaration.read source = .ok d) :
    IsIdentifier d.name.text ∧ Ahead.isKeyword d.name.text = false := by
  obtain ⟨ts, s, scanned, rule⟩ := Declaration.read_eq_ok h
  obtain ⟨⟨t, inside, lexeme⟩, free⟩ := declarationOf_name (wellNested_scan? scanned) rule
  have sound := isSound_scan? scanned t inside
  rw [lexeme] at sound
  exact ⟨sound, free⟩

end RecordRows.Source
