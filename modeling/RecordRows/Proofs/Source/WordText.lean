import Mathlib.Tactic.FinCases
import RecordRows.Proofs.Source.Identifier

/-!
Words in a text. An identifier with a blank or nothing behind it is scanned as that word, whatever
the rest of the text is (`readLeaf_word`), and blanks in front of it do not matter
(`scanFrom_blank`). So a phrase of words, double colons, angles and commas, which is printed with
blanks between them, is scanned again as the same phrase (`Phrase.Spaced.scan?_text`).
-/
namespace RecordRows.Source

open Text Phrase

variable {c q : Char} {t cs rest name : List Char} {w : String}

/-! ## Characters that start no word -/

/-- ASCII signs and digits, and the blanks beyond ASCII. -/
def signCodes : List Nat :=
  List.range 65 ++ List.range' 91 4 ++ [96] ++ List.range' 123 5
    ++ ([0x85, 0xa0, 0x1680] ++ List.range' 0x2000 11
    ++ [0x200e, 0x200f, 0x2028, 0x2029, 0x202f, 0x205f, 0x3000])

theorem not_starts_of_mem_signCodes (h : c.toNat ∈ signCodes) : startsIdentifier c = false := by
  have all : ∀ n ∈ signCodes, startsIdentifier (Char.ofNat n) = false := by decide +kernel
  have one := all _ h
  rwa [Char.ofNat_toNat] at one

theorem mem_signCodes_of_isBlank (h : isBlank c = true) : c.toNat ∈ signCodes := by
  simp only [isBlank, Bool.or_eq_true, Bool.and_eq_true, beq_iff_eq, decide_eq_true_eq] at h
  simp only [signCodes, List.mem_append, List.mem_range, List.mem_range'_1, List.mem_cons,
    List.not_mem_nil, or_false]
  omega

theorem not_starts_of_isBlank (h : isBlank c = true) : startsIdentifier c = false :=
  not_starts_of_mem_signCodes (mem_signCodes_of_isBlank h)

theorem not_starts_of_isDigit (h : c.isDigit = true) : startsIdentifier c = false := by
  refine not_starts_of_mem_signCodes ?_
  have below : c.toNat ≤ 57 := by
    simpa [Char.isDigit, UInt32.le_iff_toNat_le] using (Bool.and_eq_true_iff.mp h).2
  simp only [signCodes, List.mem_append, List.mem_range]
  omega

theorem isBlank_of_starts (starts : startsIdentifier c = true) : isBlank c = false := by
  by_contra blank
  rw [not_starts_of_isBlank (by simpa using blank)] at starts
  cases starts

theorem isDigit_of_starts (starts : startsIdentifier c = true) : c.isDigit = false := by
  by_contra digit
  rw [not_starts_of_isDigit (by simpa using digit)] at starts
  cases starts

theorem ne_of_starts (starts : startsIdentifier c = true) (sign : q.toNat ∈ signCodes) : c ≠ q := by
  rintro rfl
  rw [not_starts_of_mem_signCodes sign] at starts
  cases starts

/-! ## What stands behind a word -/

/-- A blank or nothing. -/
def Detached (rest : List Char) : Prop := rest = [] ∨ ∃ t, rest = ' ' :: t

/-- Quotes and the hash sign, which turn a word in front of them into the beginning of a literal. -/
def Quoting (c : Char) : Prop := c = '"' ∨ c = '\'' ∨ c = '#'

theorem IsPlain.not_quoting (h : IsPlain cs) : ∀ c ∈ cs, ¬ Quoting c := by
  obtain ⟨a, tail, rfl, starts, continues⟩ := h
  intro c member quoting
  rcases List.mem_cons.mp member with rfl | member
  · rcases quoting with rfl | rfl | rfl <;> exact ne_of_starts starts (by decide) rfl
  · have more := continues c member
    rcases quoting with rfl | rfl | rfl <;>
      exact absurd (more.symm.trans (identifierContinue_of_ascii (by decide))) (by decide)

/-- No quoting character follows letters at the beginning of a text that starts with a word. -/
theorem append_ne_of_not_quoting (letters : List Char) (word : ∀ c ∈ cs, ¬ Quoting c)
    (apart : Detached rest) (noBlank : ' ' ∉ letters) (quoting : Quoting q) :
    cs ++ rest ≠ letters ++ q :: t := by
  have notBlank : q ≠ ' ' := by
    rcases quoting with rfl | rfl | rfl <;> decide
  intro same
  rcases List.append_eq_append_iff.mp same with ⟨u, rfl, behind⟩ | ⟨u, rfl, behind⟩
  · -- the letters reach beyond the word, to the blank behind it
    rcases apart with rfl | ⟨v, rfl⟩
    · simp at behind
    · cases u with
      | nil =>
        cases behind
        exact notBlank rfl
      | cons b u =>
        cases behind
        exact noBlank (by simp)
  · cases u with
    | nil =>
      rcases apart with rfl | ⟨v, rfl⟩
      · simp at behind
      · cases behind
        exact notBlank rfl
    | cons b u =>
      cases behind
      exact word q (by simp) quoting

theorem Detached.not_continues (apart : Detached rest) :
    ∀ d ∈ rest.head?, identifierContinue.contains d = false := by
  have blank : identifierContinue.contains ' ' = false := identifierContinue_of_ascii (by decide)
  rcases apart with rfl | ⟨t, rfl⟩
  · simp
  · simpa using blank

theorem readName_append (h : IsPlain cs) (apart : Detached rest) :
    readName (cs ++ rest) = some (cs, rest) := by
  obtain ⟨c, tail, rfl, starts, continues⟩ := h
  have ends : rest.takeWhile identifierContinue.contains = [] ∧
      rest.dropWhile identifierContinue.contains = rest := by
    cases rest with
    | nil => exact ⟨rfl, rfl⟩
    | cons d t =>
      have stop := apart.not_continues d rfl
      simp [stop]
  rw [List.cons_append, readName, if_pos starts, List.span_eq_takeWhile_dropWhile,
    List.takeWhile_append_of_pos continues, List.dropWhile_append_of_pos continues, ends.1, ends.2,
    List.append_nil]

/-! ## Words are no literals -/

theorem rawOpening?_eq_none (h : ∀ d t, cs = d :: t → ¬ Quoting d) : rawOpening? cs = none := by
  unfold rawOpening?
  split
  · exact absurd (.inl rfl) (h _ _ rfl)
  · exact absurd (.inr (.inr rfl)) (h _ _ rfl)
  · rfl

theorem readRaw_eq_none (kind : LiteralKind) (h : rawOpening? cs = none) :
    readRaw kind cs = none := by
  rw [readRaw, h]
  rfl

theorem skipFloat_eq_none (starts : startsIdentifier c = true) : skipFloat (c :: t) = none := by
  simp [skipFloat, isDigit_of_starts starts]

theorem skipInteger_eq_none (starts : startsIdentifier c = true) : skipInteger (c :: t) = none := by
  have noDigit := isDigit_of_starts starts
  have noValue : ((hexValue? c).any fun d => decide (d < 10)) = false := by
    unfold hexValue?
    split
    · next decimal =>
      have digit : c.isDigit = true := by
        simpa [Char.isDigit, Char.le_def, UInt32.le_iff_toNat_le] using decimal
      rw [noDigit] at digit
      cases digit
    · split
      · simp
      · split <;> simp
  have decimal : skipInteger (c :: t) = skipDigits 10 true (c :: t) := by
    have notZero : c ≠ '0' := ne_of_starts starts (by decide)
    unfold skipInteger
    split <;> simp_all
  rw [decimal, skipDigits, noDigit, noValue]
  simp

theorem skipQuoted_eq_none (h : IsPlain cs) (apart : Detached rest) :
    skipQuoted (cs ++ rest) = none := by
  have apartFrom (letters : List Char) {t : List Char} {q : Char}
      (same : cs ++ rest = letters ++ q :: t) (noBlank : ' ' ∉ letters) : ¬ Quoting q :=
    fun quoting => append_ne_of_not_quoting letters h.not_quoting apart noBlank quoting same
  have raw (letters : List Char) {t : List Char} (kind : LiteralKind)
      (same : cs ++ rest = letters ++ t) (noBlank : ' ' ∉ letters) : readRaw kind t = none := by
    refine readRaw_eq_none kind (rawOpening?_eq_none ?_)
    rintro d u rfl
    exact apartFrom letters same noBlank
  unfold skipQuoted
  split
  · next t same => exact absurd (.inl rfl) (apartFrom [] same (by decide))
  · next t same => exact absurd (.inl rfl) (apartFrom ['b'] same (by decide))
  · next t same => exact absurd (.inl rfl) (apartFrom ['c'] same (by decide))
  · next t same => rw [raw ['b', 'r'] .bytes same (by decide)]; rfl
  · next t same => rw [raw ['c', 'r'] .nulFree same (by decide)]; rfl
  · next t same => rw [raw ['r'] .text same (by decide)]; rfl
  · next t same => exact absurd (.inr (.inl rfl)) (apartFrom ['b'] same (by decide))
  · next t same => exact absurd (.inr (.inl rfl)) (apartFrom [] same (by decide))
  · rfl

/-- The texts that begin literals end with a quoting character, and hold no blank before it. -/
theorem exists_of_mem_literalPrefixes {p : String} (h : p ∈ literalPrefixes) :
    ∃ letters q t, p.toList = letters ++ q :: t ∧ ' ' ∉ letters ∧ Quoting q := by
  simp only [literalPrefixes, List.mem_cons, List.not_mem_nil, or_false] at h
  rcases h with rfl | rfl | rfl | rfl | rfl | rfl | rfl | rfl | rfl | rfl
  · exact ⟨['r'], '"', [], rfl, by decide, .inl rfl⟩
  · exact ⟨['r'], '#', ['"'], rfl, by decide, .inr (.inr rfl)⟩
  · exact ⟨['r'], '#', ['#'], rfl, by decide, .inr (.inr rfl)⟩
  · exact ⟨['b'], '"', [], rfl, by decide, .inl rfl⟩
  · exact ⟨['b'], '\'', [], rfl, by decide, .inr (.inl rfl)⟩
  · exact ⟨['b', 'r'], '"', [], rfl, by decide, .inl rfl⟩
  · exact ⟨['b', 'r'], '#', [], rfl, by decide, .inr (.inr rfl)⟩
  · exact ⟨['c'], '"', [], rfl, by decide, .inl rfl⟩
  · exact ⟨['c', 'r'], '"', [], rfl, by decide, .inl rfl⟩
  · exact ⟨['c', 'r'], '#', [], rfl, by decide, .inr (.inr rfl)⟩

theorem literalPrefixes_eq_false (h : IsPlain cs) (apart : Detached rest) :
    (literalPrefixes.any fun p => p.toList.isPrefixOf (cs ++ rest)) = false := by
  rw [List.any_eq_false]
  intro p member leads
  obtain ⟨letters, q, t, split, noBlank, quoting⟩ := exists_of_mem_literalPrefixes member
  obtain ⟨u, same⟩ := List.isPrefixOf_iff_prefix.mp leads
  rw [split, List.append_assoc] at same
  exact append_ne_of_not_quoting letters h.not_quoting apart noBlank quoting same.symm

/-! ## Words are read -/

theorem readPunct_eq_none (starts : startsIdentifier c = true) : readPunct (c :: t) = none := by
  have signs : "~!@#$%^&*-=+|;:,<.>/?'".toList.all (signCodes.contains ·.toNat) = true := by
    decide
  have noSign : startsPunct (c :: t) = false := by
    unfold startsPunct
    split
    · rfl
    · rfl
    · next same =>
      cases same
      rw [List.contains_eq_mem, decide_eq_false_iff_not]
      intro member
      have sign := List.contains_iff_mem.mp (List.all_eq_true.mp signs c member)
      exact ne_of_starts starts sign rfl
    · rfl
  have notQuote : c ≠ '\'' := ne_of_starts starts (by decide)
  unfold readPunct
  split
  · next same => exact absurd (List.cons.inj same).1 notQuote
  · next same =>
    cases same
    rw [noSign]
    rfl
  · next same => cases same

/-- A plain identifier, or the mark of raw ones and a plain one that may stand behind it. -/
theorem IsIdentifier.forms (h : IsIdentifier w) : IsPlain w.toList ∨ ∃ name,
    w.toList = 'r' :: '#' :: name ∧ IsPlain name ∧
      (name == ['_'] || pathKeywords.contains (String.ofList name)) = false := by
  unfold IsIdentifier readWord at h
  split at h
  · next name marked =>
    obtain ⟨⟨plain, after⟩, read, h⟩ := Option.bind_eq_some_iff.mp h
    dsimp only at h
    split at h
    · cases h
    · next allowed =>
      obtain ⟨same, rfl⟩ := Prod.mk.inj (Option.some.inj h)
      obtain rfl : plain = name := by simpa [marked] using same
      exact .inr ⟨plain, marked, readName_eq_some read, by simpa using allowed⟩
  · exact .inl (readName_eq_some h)

theorem IsIdentifier.exists_starts (h : IsIdentifier w) :
    ∃ c t, w.toList = c :: t ∧ startsIdentifier c = true := by
  rcases h.forms with ⟨c, tail, same, starts, -⟩ | ⟨name, same, -⟩
  · exact ⟨c, tail, same, starts⟩
  · exact ⟨'r', '#' :: name, same, startsIdentifier_of_ascii (by decide)⟩

theorem readWord_append (h : IsIdentifier w) (apart : Detached rest) :
    readWord (w.toList ++ rest) = some (w.toList, rest) := by
  rcases h.forms with plain | ⟨name, same, plain, allowed⟩
  · have word := readName_append plain apart
    unfold readWord
    split
    · next t same =>
      exact absurd same
        (append_ne_of_not_quoting ['r'] plain.not_quoting apart (by decide)
          (.inr (.inr rfl)))
    · exact word
  · rw [same, List.cons_append, List.cons_append, readWord, readName_append plain apart]
    show (if (name == ['_'] || pathKeywords.contains (String.ofList name)) = true then none
      else some ('r' :: '#' :: name, rest)) = _
    rw [allowed]
    rfl

/-- No literal starts like a word. -/
theorem no_literal (h : IsIdentifier w) (apart : Detached rest) :
    skipQuoted (w.toList ++ rest) = none ∧
      (literalPrefixes.any fun p => p.toList.isPrefixOf (w.toList ++ rest)) = false := by
  rcases h.forms with plain | ⟨name, same, plain, -⟩
  · exact ⟨skipQuoted_eq_none plain apart, literalPrefixes_eq_false plain apart⟩
  · -- behind the mark no quote and no second hash sign follows
    have quiet : ∀ d t, name ++ rest = d :: t → ¬ Quoting d := fun d t same quoting =>
      append_ne_of_not_quoting [] plain.not_quoting apart (by decide) quoting same
    rw [same, List.cons_append, List.cons_append]
    constructor
    · have raw : rawOpening? ('#' :: (name ++ rest)) = none := by
        rw [rawOpening?, rawOpening?_eq_none quiet]
        rfl
      show (readRaw .text ('#' :: (name ++ rest))).map _ = none
      rw [readRaw_eq_none _ raw]
      rfl
    · obtain ⟨d, t, leads⟩ : ∃ d t, name ++ rest = d :: t := by
        obtain ⟨d, tail, rfl, -⟩ := plain
        exact ⟨d, tail ++ rest, rfl⟩
      have free := quiet d t leads
      rw [leads]
      have notQuote : d ≠ '"' := fun same => free (.inl same)
      have notHash : d ≠ '#' := fun same => free (.inr (.inr same))
      simp [literalPrefixes, List.isPrefixOf, notQuote.symm, notHash.symm]

/-- A word with a blank or nothing behind it is scanned as that word. -/
theorem readLeaf_word (h : IsIdentifier w) (apart : Detached rest) :
    readLeaf (w.toList ++ rest) = some (.word w, rest) := by
  obtain ⟨quoted, prefixes⟩ := no_literal h apart
  have word := readWord_append h apart
  obtain ⟨c, t, same, starts⟩ := h.exists_starts
  have literal : skipLiteral (w.toList ++ rest) = none := by
    rw [skipLiteral, quoted, same, List.cons_append, skipFloat_eq_none starts,
      skipInteger_eq_none starts]
    rfl
  have punct : readPunct (w.toList ++ rest) = none := by
    rw [same, List.cons_append]
    exact readPunct_eq_none starts
  rw [readLeaf, literal]
  dsimp only
  rw [punct, Option.orElse_none, prefixes, word]
  simp

/-! ## Scanning words -/

/-- What does not begin a comment is a blank or ends them. The equation of this branch says so with
all that stands above it, which takes long to prove. -/
theorem skipBlanks_of_ne_slash (slash : c ≠ '/') : skipBlanks .between (c :: cs)
    = if isBlank c then skipBlanks .between cs else some (c :: cs) := by
  conv_lhs => rw [skipBlanks.eq_def]
  split
  case h_3 same =>
    cases same
    rfl
  all_goals simp_all

theorem skipBlanks_blank (blank : isBlank c = true) :
    skipBlanks .between (c :: cs) = skipBlanks .between cs := by
  have slash : c ≠ '/' := by
    rintro rfl
    cases blank
  rw [skipBlanks_of_ne_slash slash, if_pos blank]

/-- Blanks before a token do not matter. -/
theorem scanFrom_blank (size fuel : Nat) (stack : List Delimiter) (blank : isBlank c = true) :
    scanFrom size fuel stack (c :: cs) = scanFrom size fuel stack cs := by
  cases fuel with
  | zero => rfl
  | succ fuel => rw [scanFrom, scanFrom, skipBlanks_blank blank]

variable {size fuel : Nat} {stack : List Delimiter} {l : Lexeme} {ts : List Token}

/-- A leaf that stands at the front is the first token. -/
theorem scanFrom_leaf (blank : isBlank c = false) (slash : c ≠ '/')
    (opened : delimiterOpenedBy? c = none) (closed : delimiterClosedBy? c = none)
    (leaf : readLeaf (c :: t) = some (l, rest)) (more : scanFrom size fuel stack rest = some ts) :
    ∃ place, scanFrom size (fuel + 1) stack (c :: t) = some (⟨l, place⟩ :: ts) := by
  have front : skipBlanks .between (c :: t) = some (c :: t) := by
    rw [skipBlanks_of_ne_slash slash, blank]
    rfl
  have plain : readDocumentation (c :: t) = none := by
    unfold readDocumentation
    split <;> simp_all
  rw [scanFrom, front]
  simp only [Option.bind_eq_bind, Option.bind_some, plain, opened, closed, leaf, more,
    Option.pure_def]
  exact ⟨_, rfl⟩

theorem scanFrom_word (h : IsIdentifier w) (apart : Detached rest)
    (more : scanFrom size fuel stack rest = some ts) :
    ∃ place, scanFrom size (fuel + 1) stack (w.toList ++ rest) = some (⟨.word w, place⟩ :: ts) := by
  have leaf := readLeaf_word h apart
  obtain ⟨c, t, same, starts⟩ := h.exists_starts
  have notBracket : delimiterOpenedBy? c = none ∧ delimiterClosedBy? c = none := by
    have bracket (q : Char) (sign : q.toNat ∈ signCodes) : c ≠ q := ne_of_starts starts sign
    unfold delimiterOpenedBy? delimiterClosedBy?
    constructor
    · split
      · exact absurd rfl (bracket '(' (by decide))
      · exact absurd rfl (bracket '[' (by decide))
      · exact absurd rfl (bracket '\x7b' (by decide))
      · rfl
    · split
      · exact absurd rfl (bracket ')' (by decide))
      · exact absurd rfl (bracket ']' (by decide))
      · exact absurd rfl (bracket '\x7d' (by decide))
      · rfl
  rw [same, List.cons_append] at leaf ⊢
  exact scanFrom_leaf (isBlank_of_starts starts) (ne_of_starts starts (by decide)) notBracket.1
    notBracket.2 leaf more

/-! ## Printed phrases -/

theorem IsIdentifier.dropByteOrderMark (h : IsIdentifier w) (rest : List Char) :
    dropByteOrderMark (w.toList ++ rest) = w.toList ++ rest := by
  have mark : startsIdentifier '\ufeff' = false := by decide +kernel
  obtain ⟨c, t, same, starts⟩ := h.exists_starts
  rw [same, List.cons_append]
  unfold Source.dropByteOrderMark
  split
  · next same =>
    cases same
    rw [mark] at starts
    cases starts
  · rfl

/-- Words, double colons, angles and commas, which are printed with blanks between them. -/
inductive Phrase.Spaced : Phrase → Prop
  | nil : Spaced []
  | word {w : String} {p : Phrase} (h : IsIdentifier w) (rest : Spaced p) : Spaced (.word w :: p)
  | colons {p : Phrase} (rest : Spaced p) : Spaced (.punct ':' true :: .punct ':' false :: p)
  | sign {c : Char} {p : Phrase} (h : c ∈ ['<', '>', ',']) (rest : Spaced p) :
      Spaced (.punct c false :: p)

/-- What is printed behind a lexeme. -/
def behind (p : Phrase) : List Char := if p = [] then [] else ' ' :: p.text.toList

theorem detached_behind (p : Phrase) : Detached (behind p) := by
  cases p with
  | nil => exact .inl rfl
  | cons l p => exact .inr ⟨_, rfl⟩

theorem length_text_le_behind (p : Phrase) : p.text.toList.length ≤ (behind p).length := by
  cases p with
  | nil => exact Nat.le_refl _
  | cons l p => exact Nat.le_succ _

/-- A sign that is not joint. -/
theorem scanFrom_sign (h : c ∈ ['<', '>', ',', ':']) (apart : Detached rest)
    (more : scanFrom size fuel stack rest = some ts) :
    ∃ place, scanFrom size (fuel + 1) stack (c :: rest) = some (⟨.punct c false, place⟩ :: ts) := by
  have leaf : readLeaf (c :: rest) = some (.punct c false, rest) := by
    rcases apart with rfl | ⟨t, rfl⟩ <;> fin_cases h <;> rfl
  fin_cases h <;> exact scanFrom_leaf (by decide) (by decide) rfl rfl leaf more

namespace Phrase.Spaced

variable {p q : Phrase}

theorem append (hp : Spaced p) (hq : Spaced q) : Spaced (p ++ q) := by
  induction hp with
  | nil => exact hq
  | word h _ ih => exact .word h ih
  | colons _ ih => exact .colons ih
  | sign h _ ih => exact .sign h ih

theorem flatMap {ι : Type} {text : ι → Phrase} {items : List ι}
    (h : ∀ i ∈ items, Spaced (text i)) : Spaced (items.flatMap text) := by
  induction items with
  | nil => exact .nil
  | cons i items ih =>
    obtain ⟨first, rest⟩ := List.forall_mem_cons.mp h
    exact first.append (ih rest)

/-- No such phrase abuts what is printed before it, unless a joint sign is. -/
theorem text_cons (h : Spaced p) {l : Lexeme} (word : ∀ w, l.abuts (.word w) = false)
    (sign : ∀ c joint, l.abuts (.punct c joint) = false) :
    (Phrase.text (l :: p)).toList = l.text.toList ++ behind p := by
  have blank {m : Lexeme} (q : Phrase) (apart : l.abuts m = false) :
      (Phrase.text (l :: m :: q)).toList = l.text.toList ++ behind (m :: q) := by
    rw [Phrase.text, apart]
    simp [behind]
  cases h with
  | nil => simp [Phrase.text, behind]
  | word _ _ => exact blank _ (word _)
  | colons _ => exact blank _ (sign _ _)
  | sign _ _ => exact blank _ (sign _ _)

theorem text_word (h : Spaced p) (w : String) :
    (Phrase.text (.word w :: p)).toList = w.toList ++ behind p :=
  h.text_cons (fun _ => rfl) fun _ _ => rfl

theorem text_sign (h : Spaced p) (c : Char) :
    (Phrase.text (.punct c false :: p)).toList = c :: behind p := by
  rw [h.text_cons (fun _ => rfl) fun _ _ => rfl]
  simp [Lexeme.text]

theorem text_colons (h : Spaced p) :
    (Phrase.text (.punct ':' true :: .punct ':' false :: p)).toList = ':' :: ':' :: behind p := by
  rw [Phrase.text, String.toList_append, h.text_sign ':']
  rfl

/-- No byte order mark is printed. -/
theorem dropByteOrderMark (h : Spaced p) :
    Source.dropByteOrderMark p.text.toList = p.text.toList := by
  cases h with
  | nil => rfl
  | word h rest =>
    rw [rest.text_word]
    exact h.dropByteOrderMark _
  | colons rest =>
    rw [rest.text_colons]
    rfl
  | sign h rest =>
    rw [rest.text_sign]
    fin_cases h <;> rfl

/-- What is printed is scanned again, behind a blank or without one. -/
theorem scanFrom_text (h : Spaced p) (size : Nat) : ∀ fuel, p.text.toList.length < fuel →
    ∃ ts, scanFrom size fuel [] p.text.toList = some ts ∧
      scanFrom size fuel [] (behind p) = some ts ∧ ts.map (·.lexeme) = p := by
  have blank {l : Lexeme} {p : Phrase} {ts : List Token} {fuel : Nat}
      (scanned : scanFrom size fuel [] (Phrase.text (l :: p)).toList = some ts) :
      scanFrom size fuel [] (behind (l :: p)) = some ts := by
    rwa [behind, if_neg (List.cons_ne_nil l p), scanFrom_blank _ _ _ (by decide)]
  induction h with
  | nil =>
    intro fuel enough
    obtain ⟨fuel, rfl⟩ : ∃ k, fuel = k + 1 := ⟨fuel - 1, by omega⟩
    exact ⟨[], rfl, rfl, rfl⟩
  | @word w p h rest ih =>
    intro fuel enough
    obtain ⟨c, t, start, -⟩ := h.exists_starts
    have shorter := length_text_le_behind p
    rw [rest.text_word, start, List.cons_append, List.length_cons, List.length_append] at enough
    obtain ⟨fuel, rfl⟩ : ∃ k, fuel = k + 1 := ⟨fuel - 1, by omega⟩
    obtain ⟨ts, -, more, lexemes⟩ := ih fuel (by omega)
    obtain ⟨place, scanned⟩ := scanFrom_word h (detached_behind p) more
    rw [← rest.text_word] at scanned
    exact ⟨_, scanned, blank scanned, by rw [List.map_cons, lexemes]⟩
  | @colons p rest ih =>
    intro fuel enough
    have shorter := length_text_le_behind p
    rw [rest.text_colons, List.length_cons, List.length_cons] at enough
    obtain ⟨fuel, rfl⟩ : ∃ k, fuel = k + 2 := ⟨fuel - 2, by omega⟩
    obtain ⟨ts, -, more, lexemes⟩ := ih fuel (by omega)
    obtain ⟨place', second⟩ := scanFrom_sign (c := ':') (by decide) (detached_behind p) more
    obtain ⟨place, scanned⟩ := scanFrom_leaf (l := .punct ':' true) (by decide) (by decide) rfl rfl
      (show readLeaf (':' :: ':' :: behind p) = some (.punct ':' true, ':' :: behind p) from rfl)
      second
    rw [← rest.text_colons] at scanned
    exact ⟨_, scanned, blank scanned, by rw [List.map_cons, List.map_cons, lexemes]⟩
  | @sign c p h rest ih =>
    intro fuel enough
    have shorter := length_text_le_behind p
    rw [rest.text_sign, List.length_cons] at enough
    obtain ⟨fuel, rfl⟩ : ∃ k, fuel = k + 1 := ⟨fuel - 1, by omega⟩
    obtain ⟨ts, -, more, lexemes⟩ := ih fuel (by omega)
    obtain ⟨place, scanned⟩ :=
      scanFrom_sign (List.mem_append_left [':'] h) (detached_behind p) more
    rw [← rest.text_sign] at scanned
    exact ⟨_, scanned, blank scanned, by rw [List.map_cons, lexemes]⟩

/-- What is printed is scanned as the same phrase. -/
theorem scan?_text (h : Spaced p) :
    ∃ ts, scan? p.text = some ts ∧ ts.map (·.lexeme) = p := by
  obtain ⟨ts, scanned, -, lexemes⟩ := h.scanFrom_text p.text.toList.length _ (Nat.lt_succ_self _)
  refine ⟨ts, ?_, lexemes⟩
  rw [scan?, h.dropByteOrderMark]
  exact scanned

end Phrase.Spaced

end RecordRows.Source
