import RecordRows.Text.Words

/-!
Words of ASCII names. In such a name a cluster is a single character, or a line end of two, at which
no word ends; so a name is split character by character (`words_of_isAscii`). No word is split again
(`isWord_of_mem_split`), and words that are joined with a separator are found again
(`words_joinWith`), also after their letter case has been changed as a whole.
-/
namespace RecordRows.Text

/-- Only ASCII characters. -/
def IsAscii (cs : List Char) : Prop := ∀ c ∈ cs, c.toNat < 128

instance (cs : List Char) : Decidable (IsAscii cs) :=
  List.decidableBAll (fun c : Char => c.toNat < 128) cs

theorem isAscii_cons {c : Char} {cs : List Char} :
    IsAscii (c :: cs) ↔ c.toNat < 128 ∧ IsAscii cs := List.forall_mem_cons

theorem IsAscii.map {f : Char → Char} (hf : ∀ c, c.toNat < 128 → (f c).toNat < 128)
    {cs : List Char} (h : IsAscii cs) : IsAscii (cs.map f) := by
  intro c hc
  obtain ⟨b, hb, rfl⟩ := List.mem_map.mp hc
  exact hf b (h b hb)

theorem isAscii_of_toLower {cs : List Char} (h : IsAscii (cs.map Char.toLower)) : IsAscii cs := by
  intro c member
  have lower := h _ (List.mem_map_of_mem member)
  rcases Nat.lt_or_ge c.toNat 128 with ascii | beyond
  · exact ascii
  · have notUpper : ¬ (c.val ≥ 'A'.val ∧ c.val ≤ 'Z'.val) := by
      rintro ⟨-, small⟩
      have small : c.toNat ≤ 90 := UInt32.le_iff_toNat_le.mp small
      omega
    have same : c.toLower = c := dif_neg notUpper
    rwa [same] at lower

/-- What holds of the first code points holds of every ASCII character. -/
theorem ascii_induction (P : Char → Prop) (h : ∀ n ∈ List.range 128, P (Char.ofNat n)) (c : Char)
    (ascii : c.toNat < 128) : P c := by
  have hc := h c.toNat (List.mem_range.mpr ascii)
  rwa [Char.ofNat_toNat] at hc

/-! ## Letter case -/

theorem lowerChar_of_ascii {c : Char} (h : c.toNat < 128) : lowerChar c = [c.toLower] := by
  rw [lowerChar, if_pos h]

theorem upperChar_of_ascii {c : Char} (h : c.toNat < 128) : upperChar c = [c.toUpper] := by
  rw [upperChar, if_pos h]

/-- There is no sigma in ASCII, so characters are lowered one by one. -/
theorem lowerFrom_of_isAscii (afterCased : Bool) {cs : List Char} (h : IsAscii cs) :
    lowerFrom afterCased cs = cs.map Char.toLower := by
  induction cs generalizing afterCased with
  | nil => rfl
  | cons c cs ih =>
    obtain ⟨hc, hcs⟩ := isAscii_cons.mp h
    have sigma : c ≠ capitalSigma := by
      rintro rfl
      exact absurd hc (by decide)
    simp [lowerFrom, sigma, ih _ hcs, lowerChar_of_ascii hc]

theorem lower_of_isAscii {cs : List Char} (h : IsAscii cs) : lower cs = cs.map Char.toLower :=
  lowerFrom_of_isAscii false h

theorem upper_of_isAscii {cs : List Char} (h : IsAscii cs) : upper cs = cs.map Char.toUpper := by
  induction cs with
  | nil => rfl
  | cons c cs ih =>
    obtain ⟨hc, hcs⟩ := isAscii_cons.mp h
    have more := ih hcs
    rw [upper] at more ⊢
    rw [List.flatMap_cons, upperChar_of_ascii hc, more]
    rfl

theorem capital_cons_of_isAscii {c : Char} {cs : List Char} (h : IsAscii (c :: cs)) :
    capital (c :: cs) = c.toUpper :: cs.map Char.toLower := by
  obtain ⟨hc, hcs⟩ := isAscii_cons.mp h
  rw [capital, upperChar_of_ascii hc, lower_of_isAscii hcs]
  rfl

/-- A change of letter case. To words digits and separators stay what they are and letters stay
letters, and it is undone by another change. -/
structure KeepsKind (f : Char → Char) : Prop where
  ascii : ∀ c : Char, c.toNat < 128 → (f c).toNat < 128
  toLower : ∀ c : Char, c.toNat < 128 → (f c).toLower = c.toLower
  toUpper : ∀ c : Char, c.toNat < 128 → (f c).toUpper = c.toUpper
  numeral : ∀ c : Char, c.toNat < 128 → isNumeral [f c] = isNumeral [c]
  separator : ∀ c : Char, c.toNat < 128 → isSeparator [f c] = isSeparator [c]
  letter : ∀ c : Char, c.toNat < 128 →
    (isLower [f c] || isUpper [f c]) = (isLower [c] || isUpper [c])

theorem keepsKind_toLower : KeepsKind Char.toLower where
  ascii := ascii_induction _ (by decide +kernel)
  toLower := ascii_induction _ (by decide +kernel)
  toUpper := ascii_induction _ (by decide +kernel)
  numeral := ascii_induction _ (by decide +kernel)
  separator := ascii_induction _ (by decide +kernel)
  letter := ascii_induction _ (by decide +kernel)

theorem keepsKind_toUpper : KeepsKind Char.toUpper where
  ascii := ascii_induction _ (by decide +kernel)
  toLower := ascii_induction _ (by decide +kernel)
  toUpper := ascii_induction _ (by decide +kernel)
  numeral := ascii_induction _ (by decide +kernel)
  separator := ascii_induction _ (by decide +kernel)
  letter := ascii_induction _ (by decide +kernel)

theorem isUpper_toLower : ∀ c : Char, c.toNat < 128 → isUpper [c.toLower] = false :=
  ascii_induction _ (by decide +kernel)

theorem isLower_toUpper : ∀ c : Char, c.toNat < 128 → isLower [c.toUpper] = false :=
  ascii_induction _ (by decide +kernel)

/-! ## Clusters -/

/-- Every character as a cluster of its own. -/
def singles (cs : List Char) : List (List Char) := cs.map fun c => [c]

/-- A cluster without letter case that is no number either. No word ends beside it. -/
structure IsNeutral (a : List Char) : Prop where
  lower : isLower a = false
  upper : isUpper a = false
  numeral : isNumeral a = false

theorem IsNeutral.splitsBetween_left {a : List Char} (h : IsNeutral a) (b : List Char)
    (after : List (List Char)) : splitsBetween a b after = false := by
  simp [splitsBetween, h.lower, h.upper, h.numeral]

theorem IsNeutral.splitsBetween_right {b : List Char} (h : IsNeutral b) (a : List Char)
    (after : List (List Char)) : splitsBetween a b after = false := by
  simp [splitsBetween, h.lower, h.upper, h.numeral]

theorem isNeutral_lineEnd : IsNeutral ['\r', '\n'] := by constructor <;> decide

theorem isNeutral_return : IsNeutral ['\r'] := by constructor <;> decide

theorem isNeutral_newline : IsNeutral ['\n'] := by constructor <;> decide

/-- The same characters in clusters, where the second clusters are single characters. -/
inductive Refines : List (List Char) → List (List Char) → Prop
  | nil : Refines [] []
  | single (c : Char) {ks ls : List (List Char)} (h : Refines ks ls) :
    Refines ([c] :: ks) ([c] :: ls)
  | lineEnd {ks ls : List (List Char)} (h : Refines ks ls) :
    Refines (['\r', '\n'] :: ks) (['\r'] :: ['\n'] :: ls)

/-- Only a line end is kept together in ASCII. -/
theorem continues_of_ascii {a b : Char} (before : List Char) (ha : a.toNat < 128)
    (hb : b.toNat < 128) : continues (a :: before) b = (a == '\r' && b == '\n') := by
  have extending : ∀ c : Char, c.toNat < 128 →
      (extends? c || c == joiner || clusterSpacing.contains c || clusterPrepend.contains c)
        = false :=
    ascii_induction _ (by decide +kernel)
  have hea := extending a ha
  have heb := extending b hb
  simp only [Bool.or_eq_false_iff] at hea heb
  obtain ⟨⟨⟨-, notJoiner⟩, -⟩, notPrepend⟩ := hea
  obtain ⟨⟨⟨notExtends, notJoiner'⟩, notSpacing⟩, -⟩ := heb
  by_cases lineEnd : a == '\r' && b == '\n'
  · simp [continues, lineEnd]
  · simp [continues, lineEnd, notExtends, notJoiner', notSpacing, notPrepend, notJoiner]

/-- The clusters of a text that goes on after a character, or after a line end. -/
theorem refines_clustersFrom {cs : List Char} (h : IsAscii cs) :
    (∀ a : Char, a.toNat < 128 → Refines (clustersFrom [a] cs) (singles (a :: cs))) ∧
      Refines (clustersFrom ['\n', '\r'] cs) (['\r'] :: ['\n'] :: singles cs) := by
  induction cs with
  | nil => exact ⟨fun a _ => .single a .nil, .lineEnd .nil⟩
  | cons b cs ih =>
    obtain ⟨hb, hcs⟩ := isAscii_cons.mp h
    obtain ⟨afterOne, afterLineEnd⟩ := ih hcs
    constructor
    · intro a ha
      rw [clustersFrom, continues_of_ascii [] ha hb]
      split
      · next lineEnd =>
        simp only [Bool.and_eq_true, beq_iff_eq] at lineEnd
        obtain ⟨rfl, rfl⟩ := lineEnd
        exact afterLineEnd
      · exact .single a (afterOne b hb)
    · rw [clustersFrom, continues_of_ascii _ (by decide) hb, if_neg (by simp)]
      exact .lineEnd (afterOne b hb)

theorem refines_clusters {cs : List Char} (h : IsAscii cs) : Refines (clusters cs) (singles cs) := by
  cases cs with
  | nil => exact .nil
  | cons a cs =>
    obtain ⟨ha, hcs⟩ := isAscii_cons.mp h
    exact (refines_clustersFrom hcs).1 a ha

/-! ## Splitting -/

section
variable {a b word : List Char} {after rest : List (List Char)}

theorem wordsFrom_separator (separates : isSeparator a = true) :
    wordsFrom word (a :: rest) = word :: wordsFrom [] rest := by
  cases rest <;> simp [wordsFrom, separates]

theorem wordsFrom_last (inside : isSeparator a = false) : wordsFrom word [a] = [word ++ a] := by
  simp [wordsFrom, inside]

theorem wordsFrom_split (inside : isSeparator a = false)
    (splits : splitsBetween a b after = true) :
    wordsFrom word (a :: b :: after) = (word ++ a) :: wordsFrom [] (b :: after) := by
  simp [wordsFrom, inside, splits]

theorem wordsFrom_joined (inside : isSeparator a = false)
    (joined : splitsBetween a b after = false) :
    wordsFrom word (a :: b :: after) = wordsFrom (word ++ a) (b :: after) := by
  simp [wordsFrom, inside, joined]

theorem wordsFrom_neutral (inside : isSeparator a = false) (neutral : IsNeutral a) :
    wordsFrom word (a :: rest) = wordsFrom (word ++ a) rest := by
  cases rest with
  | nil => exact wordsFrom_last inside
  | cons b after => exact wordsFrom_joined inside (neutral.splitsBetween_left b after)

end

/-- What matters of the clusters behind a boundary is whether the first of them is in lower case. -/
theorem Refines.splitsBetween_eq {ks ls : List (List Char)} (h : Refines ks ls) (a b : List Char) :
    splitsBetween a b ks = splitsBetween a b ls := by
  cases h with
  | nil => rfl
  | single c h => rfl
  | lineEnd h => simp [splitsBetween, isNeutral_lineEnd.lower, isNeutral_return.lower]

theorem Refines.wordsFrom_eq {ks ls : List (List Char)} (h : Refines ks ls) (word : List Char) :
    wordsFrom word ks = wordsFrom word ls := by
  induction h generalizing word with
  | nil => rfl
  | @single c ks ls h ih =>
    cases separates : isSeparator [c] with
    | true => rw [wordsFrom_separator separates, wordsFrom_separator separates, ih]
    | false =>
      cases h with
      | nil => rfl
      | @single b ks ls h =>
        have same := h.splitsBetween_eq [c] [b]
        cases splits : splitsBetween [c] [b] ls with
        | true =>
          rw [wordsFrom_split separates (same.trans splits), wordsFrom_split separates splits, ih]
        | false =>
          rw [wordsFrom_joined separates (same.trans splits), wordsFrom_joined separates splits, ih]
      | @lineEnd ks ls h =>
        rw [wordsFrom_joined separates (isNeutral_lineEnd.splitsBetween_right _ _),
          wordsFrom_joined separates (isNeutral_return.splitsBetween_right _ _), ih]
  | @lineEnd ks ls h ih =>
    rw [wordsFrom_neutral (by decide) isNeutral_lineEnd,
      wordsFrom_neutral (by decide) isNeutral_return,
      wordsFrom_neutral (by decide) isNeutral_newline, ih, List.append_assoc]
    rfl

/-- The words of a text in which every character is a cluster. There is at least one. -/
def split (cs : List Char) : List (List Char) := wordsFrom [] (singles cs)

theorem words_of_isAscii {name : List Char} (h : IsAscii name) (nonempty : name ≠ []) :
    words name = split name := by
  rw [words, if_neg (by simpa using nonempty)]
  exact (refines_clusters h).wordsFrom_eq []

/-- Whether a word ends between a character and the text behind it. -/
def ends (a : Char) : List Char → Bool
  | [] => false
  | b :: after => splitsBetween [a] [b] (singles after)

/-- What has been read of a word stands before the first of the words that follow. -/
theorem wordsFrom_append (u word : List Char) (ks : List (List Char)) :
    wordsFrom (u ++ word) ks = (wordsFrom word ks).modifyHead (u ++ ·) := by
  induction ks generalizing word with
  | nil => rfl
  | cons a rest ih =>
    cases separates : isSeparator a with
    | true =>
      rw [wordsFrom_separator separates, wordsFrom_separator separates]
      rfl
    | false =>
      cases rest with
      | nil =>
        rw [wordsFrom_last separates, wordsFrom_last separates, List.append_assoc]
        rfl
      | cons b after =>
        cases splits : splitsBetween a b after with
        | true =>
          rw [wordsFrom_split separates splits, wordsFrom_split separates splits,
            List.append_assoc]
          rfl
        | false =>
          rw [wordsFrom_joined separates splits, wordsFrom_joined separates splits,
            List.append_assoc, ih]

theorem split_nil : split [] = [[]] := rfl

theorem split_separator {a : Char} (separates : isSeparator [a] = true) (cs : List Char) :
    split (a :: cs) = [] :: split cs := wordsFrom_separator separates

theorem split_ends {a : Char} {cs : List Char} (inside : isSeparator [a] = false)
    (splits : ends a cs = true) : split (a :: cs) = [a] :: split cs := by
  cases cs with
  | nil => cases splits
  | cons b cs => exact wordsFrom_split inside splits

theorem split_joined {a : Char} {cs : List Char} (inside : isSeparator [a] = false)
    (joined : ends a cs = false) : split (a :: cs) = (split cs).modifyHead (a :: ·) := by
  cases cs with
  | nil => exact wordsFrom_last inside
  | cons b cs =>
    have more := wordsFrom_append [a] [] (singles (b :: cs))
    rw [List.append_nil] at more
    exact (wordsFrom_joined inside joined).trans more

theorem exists_split (cs : List Char) : ∃ w ws, split cs = w :: ws := by
  induction cs with
  | nil => exact ⟨[], [], rfl⟩
  | cons a cs ih =>
    obtain ⟨w, ws, words⟩ := ih
    cases inside : isSeparator [a] with
    | true => exact ⟨_, _, split_separator inside cs⟩
    | false =>
      cases splits : ends a cs with
      | true => exact ⟨_, _, split_ends inside splits⟩
      | false => exact ⟨a :: w, ws, by rw [split_joined inside splits, words]; rfl⟩

/-- A character in front of a text is dropped as a separator, stands as a word of its own, or belongs
to the first word behind it. -/
theorem split_cons (a : Char) (cs : List Char) :
    (isSeparator [a] = true ∧ split (a :: cs) = [] :: split cs) ∨
    (isSeparator [a] = false ∧ ends a cs = true ∧ split (a :: cs) = [a] :: split cs) ∨
    (isSeparator [a] = false ∧ ends a cs = false ∧
      ∃ w ws, split cs = w :: ws ∧ split (a :: cs) = (a :: w) :: ws) := by
  cases inside : isSeparator [a] with
  | true => exact .inl ⟨rfl, split_separator inside cs⟩
  | false =>
    cases splits : ends a cs with
    | true => exact .inr (.inl ⟨rfl, rfl, split_ends inside splits⟩)
    | false =>
      obtain ⟨w, ws, words⟩ := exists_split cs
      have first := split_joined inside splits
      rw [words] at first
      exact .inr (.inr ⟨rfl, rfl, w, ws, words, first⟩)

theorem isSeparator_iff {s : Char} : isSeparator [s] = true ↔ s = '_' ∨ s = '-' ∨ s = ' ' := by
  simp [isSeparator, or_assoc]

theorem isNeutral_separator {s : Char} (separates : isSeparator [s] = true) : IsNeutral [s] := by
  rcases isSeparator_iff.mp separates with rfl | rfl | rfl <;> constructor <;> decide

/-- A separator is like the end of the text to what stands before it. -/
theorem ends_append_separator {s : Char} (separates : isSeparator [s] = true) (a : Char)
    (u rest : List Char) : ends a (u ++ s :: rest) = ends a u := by
  have neutral := isNeutral_separator separates
  cases u with
  | nil => exact neutral.splitsBetween_right _ _
  | cons b u =>
    cases u with
    | nil => simp [ends, splitsBetween, singles, neutral.lower]
    | cons c u => rfl

/-- A separator ends the words before it. -/
theorem split_append_separator {s : Char} (separates : isSeparator [s] = true)
    (u rest : List Char) : split (u ++ s :: rest) = split u ++ split rest := by
  induction u with
  | nil => exact split_separator separates rest
  | cons a u ih =>
    have same := ends_append_separator separates a u rest
    rw [List.cons_append]
    rcases split_cons a u with ⟨h, words⟩ | ⟨inside, h, words⟩ | ⟨inside, h, w, ws, rest, words⟩
    · rw [split_separator h, ih, words, List.cons_append]
    · rw [split_ends inside (same.trans h), ih, words, List.cons_append]
    · rw [split_joined inside (same.trans h), ih, rest, words]
      rfl

/-! ## Words -/

/-- A text that is not split. -/
def IsWord (w : List Char) : Prop := split w = [w]

theorem isWord_nil : IsWord [] := split_nil

theorem isWord_cons {a : Char} {w : List Char} :
    IsWord (a :: w) ↔ isSeparator [a] = false ∧ ends a w = false ∧ IsWord w := by
  constructor
  · intro word
    rw [IsWord] at word
    rcases split_cons a w with ⟨-, words⟩ | ⟨-, -, words⟩ | ⟨inside, h, v, vs, rest, words⟩
    · cases word.symm.trans words
    · -- behind a boundary there would be a further word
      have none : [] = split w := (List.cons.inj (word.symm.trans words)).2
      obtain ⟨v, vs, some⟩ := exists_split w
      cases none.trans some
    · cases word.symm.trans words
      exact ⟨inside, h, rest⟩
  · rintro ⟨inside, joined, word⟩
    rw [IsWord, split_joined inside joined, word]
    rfl

/-- There is no separator in a word. -/
theorem IsWord.isSeparator_eq {w : List Char} (h : IsWord w) :
    ∀ c ∈ w, isSeparator [c] = false := by
  induction w with
  | nil => simp
  | cons a w ih =>
    obtain ⟨inside, -, more⟩ := isWord_cons.mp h
    exact List.forall_mem_cons.mpr ⟨inside, ih more⟩

/-- A boundary is one for every text that starts in the same way. -/
theorem ends_of_leading {a : Char} {u v : List Char} (h : u <+: v) (splits : ends a u = true) :
    ends a v = true := by
  obtain ⟨t, rfl⟩ := h
  cases u with
  | nil => cases splits
  | cons b u =>
    cases u with
    | nil =>
      simp only [ends, splitsBetween, singles, List.map_nil, Bool.and_false, Bool.or_false]
        at splits
      simp only [List.cons_append, ends, splitsBetween, splits, Bool.true_or]
    | cons c u => exact splits

/-- The first word stands at the front. -/
theorem leading_of_split {cs w : List Char} {ws : List (List Char)} (h : split cs = w :: ws) :
    w <+: cs := by
  induction cs generalizing w ws with
  | nil =>
    cases h
    exact List.prefix_rfl
  | cons a cs ih =>
    rcases split_cons a cs with ⟨-, words⟩ | ⟨-, -, words⟩ | ⟨-, -, v, vs, rest, words⟩
    · cases h.symm.trans words
      exact List.nil_prefix
    · cases h.symm.trans words
      exact List.prefix_append [a] cs
    · cases h.symm.trans words
      exact List.cons_prefix_cons.mpr ⟨rfl, ih rest⟩

/-- Words are not split any further. -/
theorem isWord_of_mem_split {cs : List Char} : ∀ w ∈ split cs, IsWord w := by
  induction cs with
  | nil => simp [split_nil, isWord_nil]
  | cons a cs ih =>
    rcases split_cons a cs with ⟨-, words⟩ | ⟨inside, -, words⟩ | ⟨inside, h, w, ws, rest, words⟩
    · rw [words]
      exact List.forall_mem_cons.mpr ⟨isWord_nil, ih⟩
    · rw [words]
      exact List.forall_mem_cons.mpr ⟨isWord_cons.mpr ⟨inside, rfl, isWord_nil⟩, ih⟩
    · rw [rest] at ih
      rw [words]
      obtain ⟨first, more⟩ := List.forall_mem_cons.mp ih
      refine List.forall_mem_cons.mpr ⟨isWord_cons.mpr ⟨inside, ?_, first⟩, more⟩
      -- a boundary inside the word would be one in the text, whose beginning the word is
      rw [← Bool.not_eq_true] at h ⊢
      exact fun within => h (ends_of_leading (leading_of_split rest) within)

/-- Nothing is made up: the characters of words are those of the text. -/
theorem mem_of_mem_split {cs : List Char} : ∀ w ∈ split cs, ∀ c ∈ w, c ∈ cs := by
  induction cs with
  | nil => simp [split_nil]
  | cons a cs ih =>
    have later : ∀ w ∈ split cs, ∀ c ∈ w, c ∈ a :: cs := fun w hw c hc =>
      List.mem_cons_of_mem a (ih w hw c hc)
    rcases split_cons a cs with ⟨-, words⟩ | ⟨-, -, words⟩ | ⟨-, -, w, ws, rest, words⟩
    · rw [words]
      exact List.forall_mem_cons.mpr ⟨by simp, later⟩
    · rw [words]
      exact List.forall_mem_cons.mpr ⟨by simp, later⟩
    · rw [rest] at later
      rw [words]
      obtain ⟨first, more⟩ := List.forall_mem_cons.mp later
      exact List.forall_mem_cons.mpr
        ⟨List.forall_mem_cons.mpr ⟨List.mem_cons_self, first⟩, more⟩

/-- A text that is not empty has more than one word or a word that is not empty. -/
theorem split_cons_ne (a : Char) (cs : List Char) : split (a :: cs) ≠ [[]] := by
  obtain ⟨v, vs, some⟩ := exists_split cs
  rcases split_cons a cs with ⟨-, words⟩ | ⟨-, -, words⟩ | ⟨-, -, w, ws, -, words⟩ <;>
    simp [words, some]

/-- The words of an ASCII name are ASCII words, and a single one is not empty. -/
theorem words_spec {name : List Char} (ascii : IsAscii name) :
    words name ≠ [[]] ∧ ∀ w ∈ words name, IsAscii w ∧ IsWord w := by
  cases name with
  | nil => simp [words]
  | cons c cs =>
    rw [words_of_isAscii ascii (by simp)]
    exact ⟨split_cons_ne c cs, fun w hw =>
      ⟨fun b hb => ascii b (mem_of_mem_split w hw b hb), isWord_of_mem_split w hw⟩⟩

/-! ## Joining -/

theorem joinWith_cons_cons (separator w v : List Char) (ws : List (List Char)) :
    joinWith separator (w :: v :: ws) = w ++ separator ++ joinWith separator (v :: ws) := rfl

theorem isAscii_joinWith {separator : List Char} (hs : IsAscii separator)
    {ws : List (List Char)} (h : ∀ w ∈ ws, IsAscii w) : IsAscii (joinWith separator ws) := by
  induction ws with
  | nil => simp [joinWith, IsAscii]
  | cons w ws ih =>
    obtain ⟨hw, hws⟩ := List.forall_mem_cons.mp h
    cases ws with
    | nil => exact hw
    | cons v ws =>
      rw [joinWith_cons_cons]
      exact List.forall_mem_append.mpr ⟨List.forall_mem_append.mpr ⟨hw, hs⟩, ih hws⟩

/-- Words are found again behind the separators that they are joined with. -/
theorem split_joinWith {s : Char} (separates : isSeparator [s] = true) {ws : List (List Char)}
    (nonempty : ws ≠ []) (h : ∀ w ∈ ws, IsWord w) : split (joinWith [s] ws) = ws := by
  induction ws with
  | nil => exact absurd rfl nonempty
  | cons w ws ih =>
    obtain ⟨hw, hws⟩ := List.forall_mem_cons.mp h
    cases ws with
    | nil => exact hw
    | cons v ws =>
      have more := ih (by simp) hws
      rw [joinWith_cons_cons, List.append_assoc, List.singleton_append,
        split_append_separator separates, more, hw]
      rfl

theorem words_joinWith {s : Char} (separates : isSeparator [s] = true) {ws : List (List Char)}
    (some : ws ≠ [[]]) (ascii : ∀ w ∈ ws, IsAscii w) (h : ∀ w ∈ ws, IsWord w) :
    words (joinWith [s] ws) = ws := by
  have small : IsAscii [s] := by
    rcases isSeparator_iff.mp separates with rfl | rfl | rfl <;> simp [IsAscii]
  rcases ws with _ | ⟨w, ws⟩
  · rfl
  · have again := split_joinWith separates (by simp) h
    have nonempty : joinWith [s] (w :: ws) ≠ [] := by
      intro empty
      rw [empty, split_nil] at again
      exact some again.symm
    rw [words_of_isAscii (isAscii_joinWith small ascii) nonempty, again]

/-! ## Words in another letter case -/

/-- Whether one of two characters is a letter and the other one is a digit. -/
def mixes (a b : Char) : Bool :=
  (isLower [a] || isUpper [a]) && isNumeral [b] || isNumeral [a] && (isLower [b] || isUpper [b])

/-- A word ends between a letter and a digit. -/
theorem mixes_eq_false {a b : Char} {w : List Char} (joined : ends a (b :: w) = false) :
    mixes a b = false := by
  simp only [ends, splitsBetween, Bool.or_eq_false_iff, Bool.and_eq_false_iff] at joined
  simp only [mixes, Bool.or_eq_false_iff, Bool.and_eq_false_iff]
  grind

/-- No word ends before a character that is no capital, unless it ends beside a digit. -/
theorem ends_of_not_upper {a b : Char} {w : List Char} (h : mixes a b = false)
    (small : isUpper [b] = false) : ends a (b :: w) = false := by
  simp only [mixes, Bool.or_eq_false_iff, Bool.and_eq_false_iff] at h
  simp only [ends, splitsBetween, Bool.or_eq_false_iff, Bool.and_eq_false_iff, small]
  grind

/-- No word ends among capitals, unless it ends beside a digit. -/
theorem ends_of_not_lower {a b : Char} {w : List Char} (h : mixes a b = false)
    (large : isLower [a] = false) (after : ∀ c ∈ w, isLower [c] = false) :
    ends a (b :: w) = false := by
  simp only [mixes, Bool.or_eq_false_iff, Bool.and_eq_false_iff] at h
  simp only [ends, splitsBetween, Bool.or_eq_false_iff, Bool.and_eq_false_iff, large]
  cases w with
  | nil => grind [singles]
  | cons c w =>
    have next := after c List.mem_cons_self
    simp only [singles, List.map_cons, next]
    grind

theorem KeepsKind.mixes_eq {f g : Char → Char} (hf : KeepsKind f) (hg : KeepsKind g) {a b : Char}
    (ha : a.toNat < 128) (hb : b.toNat < 128) : mixes (f a) (g b) = mixes a b := by
  rw [mixes, hf.letter a ha, hg.letter b hb, hf.numeral a ha, hg.numeral b hb, mixes]

/-- The first character of a word in any letter case, the others in lower case. -/
theorem IsWord.cons_lower {f : Char → Char} (hf : KeepsKind f) {a : Char} {w : List Char}
    (ascii : IsAscii (a :: w)) (word : IsWord (a :: w)) :
    IsWord (f a :: w.map Char.toLower) := by
  induction w generalizing a f with
  | nil =>
    obtain ⟨inside, -, -⟩ := isWord_cons.mp word
    have ha := (isAscii_cons.mp ascii).1
    exact isWord_cons.mpr ⟨(hf.separator a ha).trans inside, rfl, isWord_nil⟩
  | cons b w ih =>
    obtain ⟨ha, hw⟩ := isAscii_cons.mp ascii
    obtain ⟨inside, joined, more⟩ := isWord_cons.mp word
    have hb := (isAscii_cons.mp hw).1
    have apart := (hf.mixes_eq keepsKind_toLower ha hb).trans (mixes_eq_false joined)
    exact isWord_cons.mpr ⟨(hf.separator a ha).trans inside,
      ends_of_not_upper apart (isUpper_toLower b hb), ih keepsKind_toLower hw more⟩

theorem IsWord.lower {w : List Char} (ascii : IsAscii w) (word : IsWord w) :
    IsWord (Text.lower w) := by
  rw [lower_of_isAscii ascii]
  cases w with
  | nil => exact isWord_nil
  | cons a w => exact word.cons_lower keepsKind_toLower ascii

theorem IsWord.capital {w : List Char} (ascii : IsAscii w) (word : IsWord w) :
    IsWord (Text.capital w) := by
  cases w with
  | nil => exact isWord_nil
  | cons a w =>
    rw [capital_cons_of_isAscii ascii]
    exact word.cons_lower keepsKind_toUpper ascii

theorem IsWord.upper {w : List Char} (ascii : IsAscii w) (word : IsWord w) :
    IsWord (Text.upper w) := by
  rw [upper_of_isAscii ascii]
  induction w with
  | nil => exact isWord_nil
  | cons a w ih =>
    obtain ⟨ha, hw⟩ := isAscii_cons.mp ascii
    obtain ⟨inside, joined, more⟩ := isWord_cons.mp word
    refine isWord_cons.mpr ⟨(keepsKind_toUpper.separator a ha).trans inside, ?_, ih hw more⟩
    cases w with
    | nil => rfl
    | cons b w =>
      obtain ⟨hb, hw⟩ := isAscii_cons.mp hw
      have apart := (keepsKind_toUpper.mixes_eq keepsKind_toUpper ha hb).trans
        (mixes_eq_false joined)
      refine ends_of_not_lower apart (isLower_toUpper a ha) fun c hc => ?_
      obtain ⟨d, hd, rfl⟩ := List.mem_map.mp hc
      exact isLower_toUpper d (hw d hd)

end RecordRows.Text
