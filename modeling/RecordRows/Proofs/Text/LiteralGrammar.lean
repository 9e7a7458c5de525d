import RecordRows.Proofs.Text.StringLiteral

/-!
The grammar of string literals as a relation between the body of a literal and the text that it
denotes, with one case for each form that the declaration language has. Line ends are single
characters here, as they are once a source has been normalised. Reading is sound and complete for
the grammar (`unquote?_iff`), so that a literal denotes one text at most, and a written literal
denotes the text that it was written for and no other (`denotes_quote_iff`).
-/
namespace RecordRows.Text

/-! ## The grammar -/

/-- A hexadecimal digit, in either letter case. -/
def HexDigit (c : Char) (d : Nat) : Prop :=
  "0123456789abcdef".toList[d]? = some c ∨ "0123456789ABCDEF".toList[d]? = some c

/-- Hexadecimal digits, with underscores anywhere. -/
inductive HexRun : List Char → List Nat → Prop
  | nil : HexRun [] []
  | underscore {cs ds} : HexRun cs ds → HexRun ('_' :: cs) ds
  | digit {c d cs ds} : HexDigit c d → HexRun cs ds → HexRun (c :: cs) (d :: ds)

/-- The number that digits stand for behind another one. -/
def hexNumber (n : Nat) (ds : List Nat) : Nat := ds.foldl (fun n d => 16 * n + d) n

/-- The letters behind a backslash and the characters that they stand for. -/
def letterEscapes : List (Char × Char) :=
  [('n', '\n'), ('r', '\r'), ('t', '\t'), ('\\', '\\'), ('\'', '\''), ('"', '"'), ('0', '\x00')]

/-- An escape and its character: a letter, two digits for an ASCII character, or one to six digits
for any character, the first of which no underscore precedes. -/
inductive IsEscape : List Char → Char → Prop
  | letter {e c} : (e, c) ∈ letterEscapes → IsEscape ['\\', e] c
  | pair {a b m n c} : HexDigit a m → HexDigit b n → c.toNat = 16 * m + n → c.toNat < 128 →
      IsEscape ['\\', 'x', a, b] c
  | code {a m cs ds c} : HexDigit a m → HexRun cs ds → ds.length < 6 → c.toNat = hexNumber m ds →
      IsEscape ('\\' :: 'u' :: '\x7b' :: a :: (cs ++ ['\x7d'])) c

/-- The blanks that are dropped behind a continued line. -/
def continuationBlanks : List Char := [' ', '\t', '\n']

/-- A body of a literal and the text that it denotes. A backslash at the end of a line takes the
line end and all the blanks behind it away. -/
inductive Spells : List Char → List Char → Prop
  | empty : Spells [] []
  | plain {c body t} : c ∉ ['"', '\\', '\r'] → Spells body t → Spells (c :: body) (c :: t)
  | escaped {front c body t} : IsEscape front c → Spells body t → Spells (front ++ body) (c :: t)
  | continued {blanks body t} : (∀ c ∈ blanks, c ∈ continuationBlanks) →
      (∀ c ∈ body.head?, c ∉ continuationBlanks) → Spells body t →
      Spells ('\\' :: '\n' :: (blanks ++ body)) t

/-- A literal between quotes, and the text that it denotes. -/
def Denotes (literal t : List Char) : Prop :=
  ∃ body, literal = '"' :: (body ++ ['"']) ∧ Spells body t

variable {c e a b : Char} {d : Nat} {cs rest body t more : List Char} {ds : List Nat}
  {ps : List Piece} {r : List Piece × List Char}

/-! ## Digits and letters -/

theorem toNat_lt_of_hexValue? (h : hexValue? c = some d) : c.toNat < 128 := by
  unfold hexValue? at h
  simp only [Char.le_def, UInt32.le_iff_toNat_le, Bool.and_eq_true, decide_eq_true_eq] at h
  have last : ('9' : Char).val.toNat = 57 ∧ ('f' : Char).val.toNat = 102 ∧
      ('F' : Char).val.toNat = 70 := by decide
  split at h
  · have below : c.toNat ≤ _ := (by assumption : _ ∧ _).2
    omega
  split at h
  · have below : c.toNat ≤ _ := (by assumption : _ ∧ _).2
    omega
  split at h
  · have below : c.toNat ≤ _ := (by assumption : _ ∧ _).2
    omega
  · cases h

theorem hexValue?_eq_some_iff : hexValue? c = some d ↔ HexDigit c d := by
  constructor
  · intro h
    have all : ∀ n < 128, ∀ d ∈ hexValue? (Char.ofNat n), HexDigit (Char.ofNat n) d := by
      unfold HexDigit
      decide
    have one := all c.toNat (toNat_lt_of_hexValue? h)
    rw [Char.ofNat_toNat] at one
    exact one d h
  · have all : ∀ d < 16, "0123456789abcdef".toList[d]?.bind hexValue? = some d ∧
        "0123456789ABCDEF".toList[d]?.bind hexValue? = some d := by decide
    rintro (lower | upper)
    · have one := (all d (List.getElem?_eq_some_iff.mp lower).1).1
      rwa [lower, Option.bind_some] at one
    · have one := (all d (List.getElem?_eq_some_iff.mp upper).1).2
      rwa [upper, Option.bind_some] at one

theorem letterEscape?_eq_some_iff : letterEscape? .text e = some c ↔ (e, c) ∈ letterEscapes := by
  constructor
  · intro h
    unfold letterEscape? at h
    split at h <;> simp_all [letterEscapes, eq_comm]
  · intro h
    simp only [letterEscapes, List.mem_cons, List.not_mem_nil, or_false, Prod.mk.injEq] at h
    rcases h with ⟨rfl, rfl⟩ | ⟨rfl, rfl⟩ | ⟨rfl, rfl⟩ | ⟨rfl, rfl⟩ | ⟨rfl, rfl⟩ | ⟨rfl, rfl⟩ |
      ⟨rfl, rfl⟩ <;> rfl

theorem toNat_ofNat {n : Nat} (valid : n.isValidChar) : (Char.ofNat n).toNat = n := by
  rw [Char.ofNat, dif_pos valid]
  rfl

theorem pairEscape?_eq_some_iff : pairEscape? .text a b = some c ↔
    ∃ m n, HexDigit a m ∧ HexDigit b n ∧ c.toNat = 16 * m + n ∧ c.toNat < 128 := by
  simp only [← hexValue?_eq_some_iff]
  constructor
  · intro h
    obtain ⟨m, first, h⟩ := Option.bind_eq_some_iff.mp h
    obtain ⟨n, second, h⟩ := Option.bind_eq_some_iff.mp h
    simp only at h
    split at h
    · next ascii =>
      cases h
      refine ⟨m, n, first, second, ?_⟩
      have value : (Char.ofNat (m * 16 + n)).toNat = m * 16 + n := toNat_ofNat (.inl (by omega))
      omega
    · cases h
  · rintro ⟨m, n, first, second, value, ascii⟩
    have number : m * 16 + n = c.toNat := by omega
    simp [pairEscape?, first, second, number, ascii]

/-! ## Reading an escape -/

theorem readBody_hexRun {run : List Char} (digits : HexRun run ds) (value : Nat) {k : Nat}
    (started : 0 < k) (few : k + ds.length ≤ 6) :
    readBody .text (.code value k) (run ++ cs)
      = readBody .text (.code (hexNumber value ds) (k + ds.length)) cs := by
  induction digits generalizing value k with
  | nil => rfl
  | underscore _ ih =>
    rw [List.cons_append, readBody, if_neg (by omega)]
    exact ih value started few
  | digit digit _ ih =>
    rw [List.length_cons] at few ⊢
    rw [List.cons_append, readBody_digit .text value (hexValue?_eq_some_iff.mpr digit) (by omega),
      ih _ (by omega) (by omega), hexNumber, hexNumber, List.foldl_cons, Nat.add_right_comm,
      Nat.add_assoc]

/-- An escape is read as one piece. -/
theorem readBody_isEscape {front : List Char} (h : IsEscape front c) (cs : List Char) :
    readBody .text .between (front ++ cs)
      = (readBody .text .between cs).map fun r => (.escaped c :: r.1, r.2) := by
  cases h with
  | letter h => exact readBody_letter (letterEscape?_eq_some_iff.mpr h) cs
  | pair first second value ascii =>
    have known := pairEscape?_eq_some_iff.mpr ⟨_, _, first, second, value, ascii⟩
    simp only [List.cons_append, List.nil_append]
    rw [readBody, known]
    cases readBody .text .between cs <;> rfl
  | @code a m run ds _ first digits few value =>
    have valid : (hexNumber m ds).isValidChar := value ▸ c.valid
    have same : Char.ofNat (hexNumber m ds) = c := by rw [← value, Char.ofNat_toNat]
    have start : 16 * 0 + m = m := by omega
    simp only [List.cons_append, List.append_assoc, List.nil_append]
    rw [readBody, if_neg (by decide),
      readBody_digit .text 0 (hexValue?_eq_some_iff.mpr first) (by decide), start,
      readBody_hexRun digits m (by decide) (by omega), readBody,
      if_pos ⟨by omega, valid, Or.inr (by decide)⟩, same]

/-- Where the digits of an escape end, of which some may have been read. -/
theorem hexRun_of_readBody {value k : Nat} (h : readBody .text (.code value k) cs = some r)
    (small : k ≤ 6) : ∃ run ds c more qs,
      cs = run ++ '\x7d' :: more ∧ HexRun run ds ∧ 0 < k + ds.length ∧ k + ds.length ≤ 6 ∧
      (k = 0 → run.head? ≠ some '_') ∧ c.toNat = hexNumber value ds ∧
      readBody .text .between more = some (qs, r.2) ∧ r.1 = .escaped c :: qs := by
  induction cs generalizing value k with
  | nil => simp [readBody] at h
  | cons a cs ih =>
    by_cases close : a = '\x7d'
    · subst close
      rw [readBody] at h
      split at h
      · next valid =>
        obtain ⟨⟨qs, rest⟩, read, rfl⟩ := Option.map_eq_some_iff.mp h
        exact ⟨[], [], Char.ofNat value, cs, qs, rfl, .nil, valid.1, small, by simp,
          toNat_ofNat valid.2.1, read, rfl⟩
      · cases h
    by_cases underscore : a = '_'
    · subst underscore
      rw [readBody] at h
      split at h
      · cases h
      · next started =>
        obtain ⟨run, ds, c, more, qs, rfl, digits, least, few, -, number, read, pieces⟩ := ih h small
        exact ⟨'_' :: run, ds, c, more, qs, rfl, .underscore digits, least, few,
          fun none => absurd none started, number, read, pieces⟩
    · rw [readBody] at h
      · cases known : hexValue? a with
        | none => simp [known] at h
        | some d =>
          simp only [known] at h
          split at h
          · cases h
          · next room =>
            obtain ⟨run, ds, c, more, qs, rfl, digits, -, few, -, number, read, pieces⟩ :=
              ih h (by omega)
            refine ⟨a :: run, d :: ds, c, more, qs, rfl,
              .digit (hexValue?_eq_some_iff.mp known) digits, Nat.succ_pos _, ?_, ?_, number, read,
              pieces⟩
            · rw [List.length_cons]
              omega
            · simp [underscore]
      · exact close
      · exact underscore

/-! ## Reading a body -/

/-- The digits of an escape that no underscore precedes. -/
theorem isEscape_of_hexRun {run : List Char} (digits : HexRun run ds) (least : 0 < ds.length)
    (few : ds.length ≤ 6) (start : run.head? ≠ some '_') (number : c.toNat = hexNumber 0 ds) :
    IsEscape ('\\' :: 'u' :: '\x7b' :: (run ++ ['\x7d'])) c := by
  cases digits with
  | nil => simp at least
  | underscore _ => simp at start
  | @digit _ m _ ds first digits =>
    have value : hexNumber 0 (m :: ds) = hexNumber m ds := by simp [hexNumber]
    exact .code first digits few (number.trans value)

/-- How a body goes on: it ends, or with a character as it is, an escape, or a continued line. -/
theorem readBody_cases (h : readBody .text .between cs = some (ps, rest)) (free : '\r' ∉ cs) :
    (cs = '"' :: rest ∧ ps = []) ∨
      ∃ more qs, readBody .text .between more = some (qs, rest) ∧
        ((∃ c, c ∉ ['"', '\\', '\r'] ∧ cs = c :: more ∧ ps = .plain c :: qs) ∨
          (∃ front c, IsEscape front c ∧ cs = front ++ more ∧ ps = .escaped c :: qs) ∨
          (cs = '\\' :: '\n' :: more ∧ ps = .continued :: qs)) := by
  unfold readBody at h
  split at h
  · cases h
  · cases h
    exact .inl ⟨rfl, rfl⟩
  · simp at free
  · simp at free
  · obtain ⟨⟨qs, _⟩, read, same⟩ := Option.map_eq_some_iff.mp h
    cases same
    exact .inr ⟨_, qs, read, .inr (.inr ⟨rfl, rfl⟩)⟩
  · simp at free
  · obtain ⟨c, known, h⟩ := Option.bind_eq_some_iff.mp h
    obtain ⟨⟨qs, _⟩, read, same⟩ := Option.bind_eq_some_iff.mp h
    cases same
    obtain ⟨m, n, first, second, value, ascii⟩ := pairEscape?_eq_some_iff.mp known
    exact .inr ⟨_, qs, read, .inr (.inl ⟨_, c, .pair first second value ascii, rfl, rfl⟩)⟩
  · rw [if_neg (by decide)] at h
    obtain ⟨run, ds, c, more, qs, rfl, digits, least, few, start, number, read, rfl⟩ :=
      hexRun_of_readBody h (by decide)
    have escape := isEscape_of_hexRun digits (by omega) (by omega) (start rfl) number
    exact .inr ⟨more, qs, read, .inr (.inl ⟨_, c, escape, by simp, rfl⟩)⟩
  · obtain ⟨c, known, h⟩ := Option.bind_eq_some_iff.mp h
    obtain ⟨⟨qs, _⟩, read, same⟩ := Option.bind_eq_some_iff.mp h
    cases same
    exact .inr ⟨_, qs, read, .inr (.inl
      ⟨_, c, .letter (letterEscape?_eq_some_iff.mp known), rfl, rfl⟩)⟩
  · next c more quote _ back _ _ _ _ _ _ =>
    split at h
    · next admitted =>
      obtain ⟨⟨qs, _⟩, read, same⟩ := Option.map_eq_some_iff.mp h
      cases same
      have plain : c ∉ ['"', '\\', '\r'] := by
        simp only [Bool.and_eq_true, bne_iff_ne] at admitted
        simp only [List.mem_cons, List.not_mem_nil, or_false, not_or]
        exact ⟨quote, admitted.2, back⟩
      exact .inr ⟨more, qs, read, .inl ⟨c, plain, rfl, rfl⟩⟩
    · cases h
  -- the other states are inside an escape
  all_goals contradiction

theorem IsEscape.exists_backslash {front : List Char} (h : IsEscape front c) :
    ∃ tail, front = '\\' :: tail := by
  cases h <;> exact ⟨_, rfl⟩

theorem isLeadingBlank_eq (h : c ≠ '\r') :
    isLeadingBlank c = decide (c ∈ continuationBlanks) := by
  rw [Bool.eq_iff_iff]
  simp [isLeadingBlank, continuationBlanks, h, or_assoc]

/-- A body behind a continued line. -/
def SpellsBehind (body t : List Char) : Prop :=
  ∃ blanks tail, body = blanks ++ tail ∧ (∀ c ∈ blanks, c ∈ continuationBlanks) ∧
    (∀ c ∈ tail.head?, c ∉ continuationBlanks) ∧ Spells tail t

theorem Spells.behind (h : Spells body t) (apart : ∀ c ∈ body.head?, c ∉ continuationBlanks) :
    SpellsBehind body t :=
  ⟨[], body, rfl, by simp, apart, h⟩

theorem SpellsBehind.blank (blank : c ∈ continuationBlanks) (h : SpellsBehind body t) :
    SpellsBehind (c :: body) t := by
  obtain ⟨blanks, tail, rfl, all, apart, spells⟩ := h
  exact ⟨c :: blanks, tail, rfl, List.forall_mem_cons.mpr ⟨blank, all⟩, apart, spells⟩

theorem SpellsBehind.spells (h : SpellsBehind body t) : Spells ('\\' :: '\n' :: body) t := by
  obtain ⟨blanks, tail, rfl, all, apart, spells⟩ := h
  exact .continued all apart spells

/-- Whatever is read follows the grammar, at the beginning and behind a continued line. -/
theorem spells_of_readBody (h : readBody .text .between cs = some (ps, rest)) (free : '\r' ∉ cs) :
    ∃ body, cs = body ++ '"' :: rest ∧ Spells body (settle false ps) ∧
      SpellsBehind body (settle true ps) := by
  -- an escape has several characters, so the induction is on the length; a continued line needs
  -- the second statement of what follows it
  induction size : cs.length using Nat.strongRecOn generalizing cs ps with
  | ind size ih =>
    subst size
    rcases readBody_cases h free with ⟨rfl, rfl⟩ | ⟨more, qs, read, form⟩
    · exact ⟨[], rfl, .empty, Spells.behind .empty (by simp)⟩
    rcases form with ⟨c, plain, rfl, rfl⟩ | ⟨front, c, escape, rfl, rfl⟩ | ⟨rfl, rfl⟩
    · obtain ⟨body, rfl, spells, behind⟩ :=
        ih _ (by simp) read (fun member => free (List.mem_cons_of_mem _ member)) rfl
      have notReturn : c ≠ '\r' := by
        rintro rfl
        simp at plain
      refine ⟨c :: body, rfl, .plain plain spells, ?_⟩
      rw [settle, isLeadingBlank_eq notReturn, Bool.true_and]
      split
      · next blank => exact behind.blank (of_decide_eq_true blank)
      · next other => exact (Spells.plain plain spells).behind (by simpa using other)
    · obtain ⟨tail, rfl⟩ := escape.exists_backslash
      have shorter : more.length < ('\\' :: tail ++ more).length := by
        rw [List.length_append, List.length_cons]
        omega
      obtain ⟨body, rfl, spells, -⟩ := ih _ shorter read
        (fun member => free (List.mem_append_right _ member)) rfl
      have all := Spells.escaped escape spells
      exact ⟨_, (List.append_assoc _ _ _).symm, all, all.behind (by simp [continuationBlanks])⟩
    · have shorter : more.length < ('\\' :: '\n' :: more).length := Nat.lt_add_of_pos_right Nat.two_pos
      obtain ⟨body, rfl, -, behind⟩ := ih _ shorter read
        (fun member => free (List.mem_cons_of_mem _ (List.mem_cons_of_mem _ member))) rfl
      exact ⟨_, rfl, behind.spells, behind.spells.behind (by simp [continuationBlanks])⟩

/-- Blanks are read as they are, and dropped behind a continued line. -/
theorem readBody_blanks {blanks : List Char} (all : ∀ c ∈ blanks, c ∈ continuationBlanks)
    (read : readBody .text .between cs = some (ps, rest)) :
    ∃ qs, readBody .text .between (blanks ++ cs) = some (qs, rest) ∧
      settle true qs = settle true ps := by
  induction blanks with
  | nil => exact ⟨ps, read, rfl⟩
  | cons c blanks ih =>
    obtain ⟨blank, all⟩ := List.forall_mem_cons.mp all
    obtain ⟨qs, readAll, skipped⟩ := ih all
    have other : c ≠ '"' ∧ c ≠ '\\' ∧ c ≠ '\r' := by
      simp only [continuationBlanks, List.mem_cons, List.not_mem_nil, or_false] at blank
      rcases blank with rfl | rfl | rfl <;> decide
    refine ⟨.plain c :: qs, ?_, ?_⟩
    · rw [List.cons_append, readBody, readAll] <;> simp_all [admits]
    · rw [settle, isLeadingBlank_eq other.2.2, decide_eq_true blank, Bool.and_true, if_pos rfl,
        skipped]

/-- Whatever follows the grammar is read, up to the quote behind it. -/
theorem readBody_of_spells (h : Spells body t) (rest : List Char) :
    ∃ ps, readBody .text .between (body ++ '"' :: rest) = some (ps, rest) ∧
      settle false ps = t ∧ ((∀ c ∈ body.head?, c ∉ continuationBlanks) → settle true ps = t) := by
  induction h with
  | empty => exact ⟨[], by simp [readBody], rfl, fun _ => rfl⟩
  | @plain c body t plain spells ih =>
    obtain ⟨ps, read, settled, -⟩ := ih
    simp only [List.mem_cons, List.not_mem_nil, or_false, not_or] at plain
    refine ⟨.plain c :: ps, ?_, ?_, fun apart => ?_⟩
    · rw [List.cons_append, readBody, read] <;> simp_all [admits]
    · rw [settle, Bool.false_and, if_neg Bool.false_ne_true, settled]
    · have other : c ∉ continuationBlanks := apart c (by simp)
      rw [settle, isLeadingBlank_eq plain.2.2, decide_eq_false other, Bool.and_false,
        if_neg Bool.false_ne_true, settled]
  | @escaped front c body t escape spells ih =>
    obtain ⟨ps, read, settled, -⟩ := ih
    refine ⟨.escaped c :: ps, ?_, ?_, fun _ => ?_⟩
    · rw [List.append_assoc, readBody_isEscape escape, read, Option.map_some]
    · rw [settle, settled]
    · rw [settle, settled]
  | @continued blanks body t all apart spells ih =>
    obtain ⟨ps, read, -, behind⟩ := ih
    obtain ⟨qs, readAll, skipped⟩ := readBody_blanks all read
    refine ⟨.continued :: qs, ?_, ?_, fun _ => ?_⟩
    · simp only [List.cons_append, List.append_assoc]
      rw [readBody, readAll, Option.map_some]
    · rw [settle, skipped, behind apart]
    · rw [settle, skipped, behind apart]

/-! ## Reading a literal -/

/-- A literal is read as the text that the grammar gives to its body, with the rest behind it. -/
theorem unquote?_iff (free : '\r' ∉ cs) : unquote? ('"' :: cs) = some (t, rest) ↔
    ∃ body, cs = body ++ '"' :: rest ∧ Spells body t := by
  constructor
  · intro h
    obtain ⟨⟨ps, _⟩, read, same⟩ := Option.map_eq_some_iff.mp h
    cases same
    obtain ⟨body, rfl, spells, -⟩ := spells_of_readBody read free
    exact ⟨body, rfl, spells⟩
  · rintro ⟨body, rfl, spells⟩
    obtain ⟨ps, read, settled, -⟩ := readBody_of_spells spells rest
    rw [unquote?, read, Option.map_some, settled]

/-- What a literal denotes is read from it. -/
theorem Denotes.unquote? {literal : List Char} (h : Denotes literal t) :
    unquote? literal = some (t, []) := by
  obtain ⟨body, rfl, spells⟩ := h
  obtain ⟨ps, read, settled, -⟩ := readBody_of_spells spells []
  rw [Text.unquote?, read, Option.map_some, settled]

/-! ## Written literals -/

theorem mem_toDigits {n : Nat} (h : c ∈ Nat.toDigits 16 n) : ∃ d < 16, c = Nat.digitChar d := by
  induction n using Nat.strongRecOn with
  | ind n ih =>
    rcases Nat.lt_or_ge n 16 with small | large
    · rw [Nat.toDigits_of_lt_base small, List.mem_singleton] at h
      exact ⟨n, small, h⟩
    · rw [Nat.toDigits_of_base_le (by decide) large, List.mem_append, List.mem_singleton] at h
      rcases h with h | h
      · exact ih (n / 16) (by omega) h
      · exact ⟨n % 16, Nat.mod_lt n (by decide), h⟩

/-- No line end is left in a written literal. -/
theorem return_not_mem_escape (c : Char) (next : List Char) : '\r' ∉ escape c next := by
  have digits : '\r' ∉ Nat.toDigits 16 c.toNat := by
    intro member
    obtain ⟨d, small, same⟩ := mem_toDigits member
    have all : ∀ d < 16, '\r' ≠ Nat.digitChar d := by decide
    exact all d small same
  unfold escape
  split
  · split <;> decide
  split
  · decide
  split
  · decide
  split
  · decide
  next feed =>
  split
  · decide
  split
  · decide
  split
  · rw [codeEscape, List.mem_append, List.mem_append, not_or, not_or]
    exact ⟨⟨by decide, digits⟩, by decide⟩
  · rw [List.mem_singleton]
    exact Ne.symm feed

theorem return_not_mem_escapeAll (cs : List Char) : '\r' ∉ escapeAll cs := by
  induction cs with
  | nil => simp [escapeAll]
  | cons c cs ih =>
    rw [escapeAll, List.mem_append, not_or]
    exact ⟨return_not_mem_escape c cs, ih⟩

/-- A written literal denotes the text that it was written for, and nothing else. -/
theorem denotes_quote_iff {s : List Char} : Denotes (quote s) t ↔ t = s := by
  have read := unquote?_quote s
  constructor
  · intro h
    rw [h.unquote?, Option.some_inj] at read
    exact congrArg Prod.fst read
  · rintro rfl
    have free : '\r' ∉ escapeAll t ++ ['"'] := by simp [return_not_mem_escapeAll]
    rw [quote, List.cons_append] at read ⊢
    obtain ⟨body, same, spells⟩ := (unquote?_iff free).mp read
    exact ⟨body, by rw [same], spells⟩

end RecordRows.Text
