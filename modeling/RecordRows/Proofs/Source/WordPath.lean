import RecordRows.Proofs.Source.AppliedPath

/-!
Paths of words. What a path prints either has angles in it or is a list of words with double colons
between them (`path_eq_ok`), and such a list is the simplest kind of a path that is read as itself
(`applied_ofWords`).
-/
namespace RecordRows.Source

open Rule Phrase

variable {n : Nested} {s s' : Progress} {w : String} {turbofish : Bool}

/-- Words with a double colon before each. -/
def Phrase.further (words : List String) : Phrase :=
  words.flatMap fun v => operator "::" ++ [.word v]

/-- Words with double colons between them, and perhaps one in front. -/
def Phrase.ofWords (rooted : Bool) (w : String) (words : List String) : Phrase :=
  (if rooted then operator "::" else []) ++ .word w :: further words

/-- A phrase with an angle. -/
def Phrase.HasAngle (p : Phrase) : Prop := ∃ joint, .punct '<' joint ∈ p

/-! ## What rules print -/

/-- All words ahead are identifiers, and all groups are closed. -/
structure Rule.SoundAt (s : Progress) : Prop where
  words : ∀ t ∈ s.tokens, t.lexeme.IsSound
  nested : WellNested s.tokens

namespace Rule

theorem SoundAt.after {α : Type} {r : Rule α} [hr : Keeps Closed r] {a : α} (sound : SoundAt s)
    (h : r s = .ok (a, s')) : SoundAt s' where
  words t member := sound.words t ((hr.suffix sound.nested h).subset member)
  nested := sound.nested.suffix (hr.suffix sound.nested h)

theorem anyWord_taken (h : anyWord s = .ok (w, s')) :
    ∃ t, s.tokens = t :: s'.tokens ∧ t.lexeme = .word w ∧ s'.printed = .word w :: s.printed := by
  have word := anyWord_eq_ok h
  obtain ⟨ts, _, look, h⟩ := bind_eq_ok h
  cases look
  rw [word] at h
  obtain ⟨_, u, taken, h⟩ := bind_eq_ok h
  cases h
  unfold Ahead.word? at word
  split at word
  · next v place us tokens =>
    cases word
    obtain ⟨ts, _, look, taken⟩ := bind_eq_ok taken
    cases look
    rw [tokens] at taken
    obtain ⟨_, _, drop, taken⟩ := bind_eq_ok taken
    cases drop
    cases taken
    refine ⟨⟨.word w, place⟩, ?_, rfl, rfl⟩
    show _ = _ :: List.drop 1 s.tokens
    rw [tokens]
    rfl
  · cases word

theorem identifier_taken (h : identifier s = .ok (w, s')) :
    anyWord s = .ok (w, s') ∧ Ahead.isKeyword w = false := by
  have free := (identifier_eq_ok h).2
  obtain ⟨identifies, _, look, h⟩ := bind_eq_ok h
  cases look
  split at h
  · exact ⟨h, free⟩
  · cases h

theorem operator?_eq_ok {sign : String} {found : Bool} (h : operator? sign s = .ok (found, s')) :
    s'.printed = (if found then (Phrase.operator sign).reverse else []) ++ s.printed ∧
      (found = false → s' = s) := by
  obtain ⟨seen, _, look, h⟩ := bind_eq_ok h
  cases look
  split at h
  · obtain ⟨_, _, drop, h⟩ := bind_eq_ok h
    cases drop
    obtain ⟨_, _, print, h⟩ := bind_eq_ok h
    cases print
    cases h
    exact ⟨rfl, nofun⟩
  · cases h
    exact ⟨rfl, fun _ => rfl⟩

theorem operator_eq_ok {sign : String} {u : Unit} (h : operator sign s = .ok (u, s')) :
    s'.printed = (Phrase.operator sign).reverse ++ s.printed := by
  obtain ⟨found, _, look, h⟩ := bind_eq_ok h
  split at h
  · next present =>
    cases h
    rw [(operator?_eq_ok look).1, if_pos present]
  · cases h

end Rule

theorem angled_eq_ok {item : Rule Bool} {u : Unit} (h : angled item s = .ok (u, s')) :
    ∃ new, s'.printed = new ++ s.printed ∧ HasAngle new := by
  obtain ⟨_, s₁, opened, h⟩ := bind_eq_ok h
  obtain ⟨⟨items, _⟩, s₂, inside, h⟩ := bind_eq_ok h
  obtain ⟨_, s₃, print, h⟩ := bind_eq_ok h
  cases print
  have opened := operator_eq_ok opened
  obtain ⟨_, -, -, rfl⟩ := captured_eq_ok inside
  have closed := operator_eq_ok h
  rw [opened] at closed
  refine ⟨(Phrase.operator ">").reverse ++ (Listed.lifetimesFirst items).reverse
    ++ (Phrase.operator "<").reverse, by simpa using closed, false, ?_⟩
  simp [Phrase.operator, Phrase.operator.go]

theorem genericArguments_eq_ok {u : Unit} (h : genericArguments n s = .ok (u, s')) :
    ∃ new, s'.printed = new ++ s.printed ∧ HasAngle new := by
  obtain ⟨found, s₁, colons, h⟩ := bind_eq_ok h
  obtain ⟨new, printed, joint, angle⟩ := angled_eq_ok h
  rw [(operator?_eq_ok colons).1, ← List.append_assoc] at printed
  exact ⟨_, printed, joint, List.mem_append_left _ angle⟩

/-- Arguments leave an angle in what is printed, and where there are none nothing happens. -/
theorem wordArguments_eq_ok {v : String} {applied : Bool}
    (h : wordArguments n turbofish v s = .ok ((w, applied), s')) : v = w ∧
      ∃ args, s'.printed = args ++ s.printed ∧ (args = [] ∧ s' = s ∨ HasAngle args) := by
  obtain ⟨ts, _, look, h⟩ := bind_eq_ok h
  cases look
  split at h
  · obtain ⟨_, s₁, arguments, h⟩ := bind_eq_ok h
    cases h
    obtain ⟨args, printed, angle⟩ := genericArguments_eq_ok arguments
    exact ⟨rfl, args, printed, .inr angle⟩
  · cases h
    exact ⟨rfl, [], rfl, .inl ⟨rfl, rfl⟩⟩

theorem pathWord_eq_ok (sound : SoundAt s) {applied : Bool}
    (h : pathWord n turbofish s = .ok ((w, applied), s')) :
    IsPathWord w ∧ ∃ t args, anyWord s = .ok (w, t) ∧ s'.printed = args ++ .word w :: s.printed ∧
      (args = [] ∧ s' = t ∨ HasAngle args) := by
  have identifier {v : String} {t : Progress} (word : anyWord s = .ok (v, t)) :
      IsIdentifier v ∧ t.printed = .word v :: s.printed := by
    obtain ⟨token, tokens, lexeme, printed⟩ := anyWord_taken word
    have good := sound.words token (by rw [tokens]; exact List.mem_cons_self)
    rw [lexeme] at good
    exact ⟨good, printed⟩
  obtain ⟨ts, _, look, h⟩ := bind_eq_ok h
  cases look
  split at h
  · next relative =>
    obtain ⟨v, t, word, h⟩ := bind_eq_ok h
    cases h
    obtain ⟨good, printed⟩ := identifier word
    refine ⟨⟨good, .inr ?_⟩, _, [], word, printed, .inl ⟨rfl, rfl⟩⟩
    have listed : ∀ x ∈ ["super", "self", "crate", "try"], x ∈ "try" :: relativeWords := by decide
    simp only [Ahead.isWord, anyWord_eq_ok word, List.any_eq_true, beq_iff_eq,
      Option.some.injEq] at relative
    obtain ⟨x, member, rfl⟩ := relative
    exact listed _ member
  · obtain ⟨v, t, taken, admitted, rest⟩ : ∃ v t, anyWord s = .ok (v, t) ∧
        (Ahead.isKeyword v = false ∨ v ∈ "try" :: relativeWords) ∧
        wordArguments n turbofish v t = .ok ((w, applied), s') := by
      dsimp only at h
      split at h
      · next self =>
        obtain ⟨v, t, word, h⟩ := bind_eq_ok h
        rw [Ahead.isWord, anyWord_eq_ok word] at self
        obtain rfl : v = "Self" := by simpa using self
        exact ⟨"Self", t, word, .inr (by decide), h⟩
      · obtain ⟨v, t, word, h⟩ := bind_eq_ok h
        obtain ⟨taken, free⟩ := identifier_taken word
        exact ⟨v, t, taken, .inl free, h⟩
    obtain ⟨good, printed⟩ := identifier taken
    obtain ⟨rfl, args, longer, shape⟩ := wordArguments_eq_ok rest
    rw [printed] at longer
    exact ⟨⟨good, admitted⟩, t, args, taken, longer, shape⟩

/-! ## What paths print -/

theorem further_cons (w : String) (words : List String) :
    further (w :: words) = further [w] ++ further words := by
  simp only [further, List.flatMap_cons, List.flatMap_nil, List.append_nil]

/-- What is printed, the last lexeme first, behind the first word of a path. -/
def PrintsFurther (new : Phrase) : Prop :=
  HasAngle new ∨ ∃ words, new = (further words).reverse ∧ ∀ v ∈ words, IsPathWord v

theorem Phrase.HasAngle.append_left {p : Phrase} (h : HasAngle p) (q : Phrase) :
    HasAngle (p ++ q) :=
  h.imp fun _ member => List.mem_append_left q member

theorem Phrase.HasAngle.append_right {p : Phrase} (h : HasAngle p) (q : Phrase) :
    HasAngle (q ++ p) :=
  h.imp fun _ member => List.mem_append_right q member

theorem PrintsFurther.append {new : Phrase} (h : PrintsFurther new) (admitted : IsPathWord w) :
    PrintsFurther (new ++ (further [w]).reverse) := by
  rcases h with angle | ⟨words, rfl, all⟩
  · exact .inl (angle.append_left _)
  · refine .inr ⟨w :: words, ?_, List.forall_mem_cons.mpr ⟨admitted, all⟩⟩
    rw [further_cons w words, List.reverse_append]

theorem furtherWord_eq_none (h : furtherWord n turbofish s = .ok (none, s')) : s' = s := by
  obtain ⟨more, _, look, h⟩ := bind_eq_ok h
  cases look
  split at h
  · obtain ⟨u, s₁, colons, h⟩ := bind_eq_ok h
    obtain ⟨⟨v, applied⟩, s₂, word, h⟩ := bind_eq_ok h
    cases h
  · cases h
    rfl

section Printed

variable [n.Keeps]

theorem furtherWord_eq_some (sound : SoundAt s) {applied : Bool}
    (h : furtherWord n turbofish s = .ok (some (w, applied), s')) :
    IsPathWord w ∧ SoundAt s' ∧ ∃ args,
      s'.printed = args ++ (further [w]).reverse ++ s.printed ∧ (args = [] ∨ HasAngle args) := by
  obtain ⟨more, _, look, h⟩ := bind_eq_ok h
  cases look
  split at h
  · obtain ⟨u, s₁, colons, h⟩ := bind_eq_ok h
    obtain ⟨⟨v, applied⟩, s₂, word, h⟩ := bind_eq_ok h
    cases h
    have sound₁ := sound.after colons
    obtain ⟨admitted, t, args, -, printed, shape⟩ := pathWord_eq_ok sound₁ word
    rw [operator_eq_ok colons] at printed
    refine ⟨admitted, sound₁.after word, args, ?_, shape.imp_left And.left⟩
    simpa [further] using printed
  · cases h

theorem furtherWords_eq_ok (fuel : Nat) : ∀ {s s' : Progress} {items : List (String × Bool)},
    SoundAt s → repeatFor (furtherWord n turbofish) fuel s = .ok (items, s') →
    ∃ new, s'.printed = new ++ s.printed ∧ (new = [] → s' = s) ∧ PrintsFurther new := by
  have nothing (s : Progress) :
      ∃ new, s.printed = new ++ s.printed ∧ (new = [] → s = s) ∧ PrintsFurther new :=
    ⟨[], rfl, fun _ => rfl, .inr ⟨[], rfl, nofun⟩⟩
  induction fuel with
  | zero =>
    intro s s' items _ h
    cases h
    exact nothing s
  | succ fuel ih =>
    intro s s' items sound h
    obtain ⟨item?, t, first, h⟩ := bind_eq_ok h
    cases item? with
    | none =>
      rw [← furtherWord_eq_none first]
      cases h
      exact nothing s'
    | some item =>
      obtain ⟨w, applied⟩ := item
      obtain ⟨rest, t', more, h⟩ := bind_eq_ok h
      cases h
      obtain ⟨admitted, sound', args, printed, shape⟩ := furtherWord_eq_some sound first
      obtain ⟨new, longer, -, further⟩ := ih sound' more
      rw [printed] at longer
      refine ⟨new ++ (args ++ (Phrase.further [w]).reverse), by simpa using longer,
        by simp [Phrase.further], ?_⟩
      -- arguments anywhere leave an angle in what is printed
      rcases shape with rfl | angle
      · exact further.append admitted
      · exact .inl ((angle.append_left _).append_right _)

/-- A path prints an angle, or words with double colons between them. When it prints a single word,
then this word is all it takes. -/
theorem path_eq_ok (sound : SoundAt s) {form : PathForm}
    (h : path n turbofish s = .ok (form, s')) :
    ∃ p, s'.printed = p.reverse ++ s.printed ∧
      (HasAngle p ∨ ∃ rooted w words, p = ofWords rooted w words ∧ ∀ v ∈ w :: words, IsPathWord v) ∧
      ∀ w, p = [.word w] → anyWord s = .ok (w, s') := by
  obtain ⟨rooted, s₁, root, h⟩ := bind_eq_ok h
  obtain ⟨⟨w, applied⟩, s₂, first, h⟩ := bind_eq_ok h
  obtain ⟨rest, s₃, more, h⟩ := bind_eq_ok h
  cases h
  obtain ⟨ts, _, look, more⟩ := bind_eq_ok more
  cases look
  obtain ⟨rooting, unmoved⟩ := operator?_eq_ok root
  have sound₁ := sound.after root
  obtain ⟨admitted, t, args, taken, word, shape⟩ := pathWord_eq_ok sound₁ first
  obtain ⟨new, printed, same, further⟩ := furtherWords_eq_ok _ (sound₁.after first) more
  rw [word, rooting] at printed
  refine ⟨(if rooted then Phrase.operator "::" else []) ++ .word w :: (args.reverse ++ new.reverse),
    ?_, ?_, ?_⟩
  · rw [printed]
    cases rooted <;> simp
  · rcases shape with ⟨rfl, -⟩ | angle
    · rcases further with angle | ⟨words, rfl, all⟩
      · refine .inl (.append_right ?_ _)
        exact angle.imp fun _ member => by simp [member]
      · refine .inr ⟨rooted, w, words, ?_, List.forall_mem_cons.mpr ⟨admitted, all⟩⟩
        rw [List.reverse_reverse, List.reverse_nil, List.nil_append, ofWords]
    · refine .inl (.append_right ?_ _)
      exact angle.imp fun _ member => by simp [member]
  · intro v alone
    -- nothing stands beside the word: neither a root, nor arguments, nor further words
    have none : rooted = false ∧ args = [] ∧ new = [] ∧ w = v := by
      cases rooted <;> simp [Phrase.operator, Phrase.operator.go] at alone
      exact ⟨rfl, alone.2.1, alone.2.2, alone.1⟩
    obtain ⟨rfl, rfl, rfl, rfl⟩ := none
    have stays : s₂ = t := by
      rcases shape with ⟨-, stays⟩ | ⟨_, angle⟩
      · exact stays
      · cases angle
    rw [same rfl, stays, ← unmoved rfl]
    exact taken

end Printed

/-! ## Whole texts -/

/-- What is read of a text as a path. -/
theorem read_path_eq_ok {value : String} {form : PathForm} {p : Phrase}
    (h : Source.read (path · false) value = .ok (form, p)) :
    (HasAngle p ∨ ∃ rooted w words, p = ofWords rooted w words ∧ ∀ v ∈ w :: words, IsPathWord v) ∧
      ∀ w, p = [.word w] → ∃ place, scan? value = some [⟨.word w, place⟩] := by
  obtain ⟨ts, printed, scanned, rule, rfl⟩ := exists_of_read_eq_ok h
  have sound : SoundAt { tokens := ts } := ⟨isSound_scan? scanned, wellNested_scan? scanned⟩
  obtain ⟨p, all, shape, alone⟩ := path_eq_ok sound rule
  obtain rfl : printed = p.reverse := by simpa using all
  rw [List.reverse_reverse]
  refine ⟨shape, fun w same => ?_⟩
  obtain ⟨⟨_, place⟩, tokens, rfl, -⟩ := anyWord_taken (alone w same)
  exact ⟨place, scanned.trans (congrArg some tokens)⟩

/-- Words with double colons between them are a path without arguments. -/
theorem applied_ofWords {rooted : Bool} {words : List String}
    (all : ∀ v ∈ w :: words, IsPathWord v) : Applied .path (ofWords rooted w words) := by
  have parts : ∀ v ∈ [.word w] :: words.map fun v => [Lexeme.word v], Applied .word v := by
    obtain ⟨first, rest⟩ := List.forall_mem_cons.mp all
    refine List.forall_mem_cons.mpr ⟨.plain first, fun v member => ?_⟩
    obtain ⟨u, inside, rfl⟩ := List.mem_map.mp member
    exact .plain (rest u inside)
  have shape : ofWords rooted w words = (if rooted then Phrase.operator "::" else [])
      ++ ([.word w] ++ signed "::" id (words.map fun v => [Lexeme.word v])) := by
    rw [signed, List.flatMap_map]
    rfl
  rw [shape]
  exact .path rooted parts

end RecordRows.Source
