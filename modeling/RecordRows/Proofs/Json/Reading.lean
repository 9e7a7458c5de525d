import RecordRows.Proofs.Json.Number

/-!
A tree that is written as a JSON text is read back from it, whatever its strings are, as long as its
numbers follow the grammar (`parse?_text`). The reading is stated in front of any rest that does not
continue a number, so that it composes over items and members.
-/
namespace RecordRows.Json

open Binary

/-! ## Strings -/

theorem hexValue?_hexDigit : ∀ d < 16, hexValue? (hexDigit d) = some d := by decide

/-- A unit that is no surrogate stands for the character with its code, also in front of another
unit. -/
theorem readString_unit {a b c d : Char} {code : Nat} (h : unit? a b c d = some code)
    (character : code < 0xD800) (cs : List Char) :
    readString ('\\' :: 'u' :: a :: b :: c :: d :: cs)
      = (readString cs).map fun r => (Char.ofNat code :: r.1, r.2) := by
  have notHigh : ¬(0xD800 ≤ code ∧ code < 0xDC00) := by omega
  have notLow : ¬(0xDC00 ≤ code ∧ code < 0xE000) := by omega
  have noSurrogate : ¬(0xD800 ≤ code ∧ code < 0xE000) := by omega
  rw [readString.eq_def]
  split
  · next e => cases e
  · next e => cases e
  · next e =>
    cases e
    simp [h, notHigh, notLow, Option.map_eq_bind]
  · next e =>
    cases e
    simp [h, noSurrogate, Option.map_eq_bind]
  · next unitless e =>
    cases e
    exact absurd rfl (unitless _ _ _ _ _ rfl)
  · next escapeless e =>
    cases e
    exact absurd rfl (escapeless _ _ rfl)

/-- A letter behind a backslash, apart from the one that starts a unit. -/
theorem readString_letter {e c : Char} (h : unescape? e = some c) (cs : List Char) :
    readString ('\\' :: e :: cs) = (readString cs).map fun r => (c :: r.1, r.2) := by
  have known : e ≠ 'u' := by
    rintro rfl
    cases h
  rw [readString, h]
  · simp [Option.map_eq_bind]
  · exact fun _ _ _ _ _ _ _ _ _ unit _ => known unit
  · exact fun _ _ _ _ _ unit _ => known unit

theorem readString_plain {c : Char} (mark : c ≠ '"') (slash : c ≠ '\\') (printed : 0x20 ≤ c.toNat)
    (cs : List Char) : readString (c :: cs) = (readString cs).map fun r => (c :: r.1, r.2) := by
  rw [readString, if_neg (by omega)]
  · simp [Option.map_eq_bind]
  · exact mark
  all_goals simp [slash]

/-- The unit of a control character. -/
theorem unit?_control {c : Char} (h : c.toNat < 0x20) :
    unit? '0' '0' (hexDigit (c.toNat / 16)) (hexDigit (c.toNat % 16)) = some c.toNat := by
  have zero : hexValue? '0' = some 0 := rfl
  rw [unit?, zero, hexValue?_hexDigit _ (by omega), hexValue?_hexDigit _ (by omega)]
  simp
  omega

theorem readString_escape (c : Char) (cs : List Char) :
    readString (escape c ++ cs) = (readString cs).map fun r => (c :: r.1, r.2) := by
  unfold escape
  split_ifs with mark slash line feed tab back form control
  · subst mark
    exact readString_letter rfl cs
  · subst slash
    exact readString_letter rfl cs
  · subst line
    exact readString_letter rfl cs
  · subst feed
    exact readString_letter rfl cs
  · subst tab
    exact readString_letter rfl cs
  · subst back
    exact readString_letter rfl cs
  · subst form
    exact readString_letter rfl cs
  · have read := readString_unit (unit?_control control) (by omega) cs
    rwa [Char.ofNat_toNat] at read
  · exact readString_plain mark slash (by omega) cs

/-- The body of a written string is read up to its closing quote. -/
theorem readString_quote (s rest : List Char) :
    readString (s.flatMap escape ++ '"' :: rest) = some (s, rest) := by
  induction s with
  | nil => rfl
  | cons c s ih => rw [List.flatMap_cons, List.append_assoc, readString_escape, ih, Option.map_some]

/-! ## Trees -/

mutual

/-- All numbers in a tree. -/
def numbers : Json → List Numeral
  | .number n => [n]
  | .array items => itemNumbers items
  | .object members => memberNumbers members
  | _ => []

def itemNumbers : List Json → List Numeral
  | [] => []
  | j :: js => j.numbers ++ itemNumbers js

def memberNumbers : List (List Char × Json) → List Numeral
  | [] => []
  | (_, j) :: ms => j.numbers ++ memberNumbers ms

end

/-- All numbers follow the grammar. -/
def WellFormed (j : Json) : Prop := ∀ n ∈ j.numbers, n.WellFormed

theorem wellFormed_number {n : Numeral} (h : n.WellFormed) : (Json.number n).WellFormed := by
  simpa [WellFormed, numbers] using h

theorem wellFormed_array {items : List Json} (h : ∀ j ∈ items, j.WellFormed) :
    (Json.array items).WellFormed := by
  rw [WellFormed, numbers]
  induction items with
  | nil => simp [itemNumbers]
  | cons j js ih =>
    intro n hn
    rw [itemNumbers, List.mem_append] at hn
    rcases hn with hn | hn
    · exact h j (by simp) n hn
    · exact ih (fun k hk => h k (by simp [hk])) n hn

theorem wellFormed_member {key : List Char} {j : Json} (h : j.WellFormed) :
    (Json.object [(key, j)]).WellFormed := by
  simpa [WellFormed, numbers, memberNumbers] using h

theorem skipBlanks_cons {c : Char} (h : isBlank c = false) (cs : List Char) :
    skipBlanks (c :: cs) = c :: cs := by
  simp [skipBlanks, h]

/-- How a number starts. -/
def StartsNumber (c : Char) : Prop := c = '-' ∨ c.isDigit = true

theorem StartsNumber.ne {c d : Char} (h : StartsNumber c) (minus : d ≠ '-')
    (digit : d.isDigit = false) : c ≠ d := by
  rintro rfl
  rcases h with rfl | h
  · exact minus rfl
  · rw [digit] at h
    cases h

theorem StartsNumber.isBlank {c : Char} (h : StartsNumber c) : isBlank c = false := by
  simp [Json.isBlank, h.ne]

theorem readValue_number {c : Char} (h : StartsNumber c) (fuel : Nat) (cs : List Char) :
    readValue (fuel + 1) (c :: cs)
      = (readNumber (c :: cs)).map fun (n, rest) => (.number n, rest) := by
  rw [readValue, skipBlanks_cons h.isBlank]
  split
  all_goals first
    | rfl
    | next e =>
      cases e
      exact absurd rfl (h.ne (by decide) (by decide))

theorem head_numeral {n : Numeral} (h : n.WellFormed) :
    ∃ c cs, n.chars = c :: cs ∧ StartsNumber c := by
  rw [chars_eq]
  cases n.negative with
  | true => exact ⟨'-', _, rfl, .inl rfl⟩
  | false =>
    have digits := h.whole
    cases whole : n.whole with
    | nil => exact absurd whole h.some_whole
    | cons d ds => exact ⟨d, _, rfl, .inr (digits d (by simp [whole]))⟩

/-- A written tree does not start like the end of a list. -/
theorem head_chars {j : Json} (h : j.WellFormed) :
    ∃ c cs, j.chars = c :: cs ∧ isBlank c = false ∧ c ≠ ']' := by
  cases j with
  | null => exact ⟨_, _, rfl, rfl, by decide⟩
  | bool b => cases b <;> exact ⟨_, _, rfl, rfl, by decide⟩
  | number n =>
    obtain ⟨c, cs, spelled, start⟩ := head_numeral (h n (by simp [numbers]))
    exact ⟨c, cs, spelled, start.isBlank, start.ne (by decide) (by decide)⟩
  | string s => exact ⟨_, _, rfl, rfl, by decide⟩
  | array items => exact ⟨_, _, rfl, rfl, by decide⟩
  | object members => exact ⟨_, _, rfl, rfl, by decide⟩

/-- A sign between items, or at the end of a list, does not continue a number. -/
theorem endsNumber_cons {c : Char} (h : c = ',' ∨ c = ']' ∨ c = '\x7d') (cs : List Char) :
    EndsNumber (c :: cs) := by
  rintro d ⟨⟩
  rcases h with rfl | rfl | rfl <;> decide

theorem readValue_array {c : Char} (unblank : isBlank c = false) (item : c ≠ ']') (fuel : Nat)
    (cs : List Char) :
    readValue (fuel + 1) ('[' :: c :: cs)
      = (readItems fuel (c :: cs)).map fun (items, rest) => (.array items, rest) := by
  rw [readValue, skipBlanks_cons (by decide)]
  simp only [skipBlanks_cons unblank]
  split
  · next e =>
    cases e
    exact absurd rfl item
  · rfl

theorem readValue_string (fuel : Nat) (cs : List Char) :
    readValue (fuel + 1) ('"' :: cs) = (readString cs).map fun (s, rest) => (.string s, rest) := rfl

/-- Members start with the quote of a key. -/
theorem readValue_object (fuel : Nat) (cs : List Char) :
    readValue (fuel + 1) ('\x7b' :: '"' :: cs)
      = (readMembers fuel ('"' :: cs)).map fun (members, rest) => (.object members, rest) := rfl

theorem readItems_last {fuel : Nat} {cs rest : List Char} {j : Json}
    (read : readValue fuel cs = some (j, ']' :: rest)) :
    readItems (fuel + 1) cs = some ([j], rest) := by
  rw [readItems, read]
  rfl

theorem readItems_more {fuel : Nat} {cs more : List Char} {j : Json}
    (read : readValue fuel cs = some (j, ',' :: more)) :
    readItems (fuel + 1) cs = (readItems fuel more).map fun (js, rest) => (j :: js, rest) := by
  rw [readItems, read, Option.map_eq_bind]
  rfl

/-- A member is read like an item once its key is. -/
theorem readMembers_last {fuel : Nat} {key cs rest : List Char} {j : Json}
    (read : readValue fuel cs = some (j, '\x7d' :: rest)) :
    readMembers (fuel + 1) (quote key ++ ':' :: cs) = some ([(key, j)], rest) := by
  have readKey := readString_quote key (':' :: cs)
  have body : quote key ++ ':' :: cs = '"' :: (key.flatMap escape ++ '"' :: ':' :: cs) := by
    simp [quote]
  rw [body, readMembers, skipBlanks_cons (by decide)]
  simp only [readKey, Option.bind_eq_bind, Option.bind_some, skipBlanks_cons (c := ':') (by decide),
    read, skipBlanks_cons (c := '\x7d') (by decide)]
  rfl

theorem readMembers_more {fuel : Nat} {key cs more : List Char} {j : Json}
    (read : readValue fuel cs = some (j, ',' :: more)) :
    readMembers (fuel + 1) (quote key ++ ':' :: cs)
      = (readMembers fuel more).map fun (ms, rest) => ((key, j) :: ms, rest) := by
  have readKey := readString_quote key (':' :: cs)
  have body : quote key ++ ':' :: cs = '"' :: (key.flatMap escape ++ '"' :: ':' :: cs) := by
    simp [quote]
  rw [body, readMembers, skipBlanks_cons (by decide)]
  simp only [readKey, Option.bind_eq_bind, Option.bind_some, skipBlanks_cons (c := ':') (by decide),
    read, skipBlanks_cons (c := ',') (by decide), Option.map_eq_bind]
  rfl

theorem separated_cons (x : List Char) (xs : List (List Char)) :
    separated (x :: xs) = x ++ if xs = [] then [] else ',' :: separated xs := by
  cases xs <;> simp [separated]

theorem exists_succ_of_pos {n : Nat} (h : 0 < n) : ∃ k, n = k + 1 := ⟨n - 1, by omega⟩

mutual

/-- Fuel that is not less than the length of the text is enough. -/
theorem readValue_chars (j : Json) (fuel : Nat) (rest : List Char) (h : j.WellFormed)
    (enough : j.chars.length ≤ fuel) (ends : EndsNumber rest) :
    readValue fuel (j.chars ++ rest) = some (j, rest) := by
  obtain ⟨c, cs, spelled, -, -⟩ := head_chars h
  obtain ⟨fuel, rfl⟩ := exists_succ_of_pos (n := fuel) (by simp [spelled] at enough; omega)
  match j with
  | .null => rfl
  | .bool true => rfl
  | .bool false => rfl
  | .number n =>
    have wellFormed := h n (by simp [numbers])
    obtain ⟨d, ds, start, number⟩ := head_numeral wellFormed
    have read := readNumber_chars wellFormed ends
    rw [start, List.cons_append] at read
    rw [chars, start, List.cons_append, readValue_number number, read]
    rfl
  | .string s =>
    have read := readString_quote s rest
    have body : (Json.string s).chars ++ rest = '"' :: (s.flatMap escape ++ '"' :: rest) := by
      simp [chars, quote]
    rw [body, readValue_string, read]
    rfl
  | .array [] => rfl
  | .array (item :: items) =>
    have wellFormed : ∀ n ∈ itemNumbers (item :: items), n.WellFormed := by
      rwa [Json.WellFormed, numbers] at h
    obtain ⟨c, cs, start, unblank, more⟩ := head_chars (j := item) fun n hn =>
      wellFormed n (by simp [itemNumbers, hn])
    have read := readItems_chars (item :: items) fuel rest (by simp) wellFormed
      (by simp [chars] at enough; omega)
    have body : (Json.array (item :: items)).chars ++ rest
        = '[' :: (separated (itemChars (item :: items)) ++ ']' :: rest) := by
      simp [chars]
    rw [itemChars, separated_cons, start, List.cons_append, List.cons_append] at read
    rw [body, itemChars, separated_cons, start, List.cons_append, List.cons_append,
      readValue_array unblank more, read]
    rfl
  | .object [] => rfl
  | .object ((key, j) :: ms) =>
    have wellFormed : ∀ n ∈ memberNumbers ((key, j) :: ms), n.WellFormed := by
      rwa [Json.WellFormed, numbers] at h
    have read := readMembers_chars ((key, j) :: ms) fuel rest (by simp) wellFormed
      (by simp [chars] at enough; omega)
    have body : (Json.object ((key, j) :: ms)).chars ++ rest
        = '\x7b' :: (separated (memberChars ((key, j) :: ms)) ++ '\x7d' :: rest) := by
      simp [chars]
    rw [memberChars, separated_cons, quote, List.cons_append, List.cons_append, List.cons_append,
      List.cons_append] at read
    rw [body, memberChars, separated_cons, quote, List.cons_append, List.cons_append,
      List.cons_append, List.cons_append, readValue_object, read]
    rfl

theorem readItems_chars (items : List Json) (fuel : Nat) (rest : List Char) (nonempty : items ≠ [])
    (h : ∀ n ∈ itemNumbers items, n.WellFormed)
    (enough : (separated (itemChars items)).length < fuel) :
    readItems fuel (separated (itemChars items) ++ ']' :: rest) = some (items, rest) := by
  obtain ⟨fuel, rfl⟩ := exists_succ_of_pos (n := fuel) (by omega)
  match items with
  | [] => exact absurd rfl nonempty
  | j :: js =>
    have first : j.WellFormed := fun n hn => h n (by simp [itemNumbers, hn])
    have others : ∀ n ∈ itemNumbers js, n.WellFormed := fun n hn => h n (by simp [itemNumbers, hn])
    cases js with
    | nil =>
      have read := readValue_chars j fuel (']' :: rest) first
        (by simp [itemChars, separated] at enough; omega) (endsNumber_cons (by simp) _)
      exact readItems_last read
    | cons k js =>
      have body : separated (itemChars (j :: k :: js)) ++ ']' :: rest
          = j.chars ++ ',' :: (separated (itemChars (k :: js)) ++ ']' :: rest) := by
        simp [itemChars, separated]
      have read := readValue_chars j fuel
        (',' :: (separated (itemChars (k :: js)) ++ ']' :: rest)) first
        (by simp [itemChars, separated] at enough; omega) (endsNumber_cons (by simp) _)
      have readOthers := readItems_chars (k :: js) fuel rest (by simp) others
        (by simp [itemChars, separated] at enough ⊢; omega)
      rw [body, readItems_more read, readOthers]
      rfl

theorem readMembers_chars (members : List (List Char × Json)) (fuel : Nat) (rest : List Char)
    (nonempty : members ≠ []) (h : ∀ n ∈ memberNumbers members, n.WellFormed)
    (enough : (separated (memberChars members)).length < fuel) :
    readMembers fuel (separated (memberChars members) ++ '\x7d' :: rest) = some (members, rest) := by
  obtain ⟨fuel, rfl⟩ := exists_succ_of_pos (n := fuel) (by omega)
  match members with
  | [] => exact absurd rfl nonempty
  | (key, j) :: ms =>
    have first : j.WellFormed := fun n hn => h n (by simp [memberNumbers, hn])
    have others : ∀ n ∈ memberNumbers ms, n.WellFormed :=
      fun n hn => h n (by simp [memberNumbers, hn])
    cases ms with
    | nil =>
      have body : separated (memberChars [(key, j)]) ++ '\x7d' :: rest
          = quote key ++ ':' :: (j.chars ++ '\x7d' :: rest) := by
        simp [memberChars, separated]
      have read := readValue_chars j fuel ('\x7d' :: rest) first
        (by simp [memberChars, separated] at enough; omega) (endsNumber_cons (by simp) _)
      rw [body]
      exact readMembers_last read
    | cons m ms =>
      have body : separated (memberChars ((key, j) :: m :: ms)) ++ '\x7d' :: rest
          = quote key
            ++ ':' :: (j.chars ++ ',' :: (separated (memberChars (m :: ms)) ++ '\x7d' :: rest)) := by
        simp [memberChars, separated]
      have read := readValue_chars j fuel
        (',' :: (separated (memberChars (m :: ms)) ++ '\x7d' :: rest)) first
        (by simp [memberChars, separated] at enough; omega) (endsNumber_cons (by simp) _)
      have readOthers := readMembers_chars (m :: ms) fuel rest (by simp) others
        (by simp [memberChars, separated] at enough ⊢; omega)
      rw [body, readMembers_more read, readOthers]
      rfl

end

/-- A tree is found again from its text. -/
theorem parse?_text {j : Json} (h : j.WellFormed) : parse? j.text = some j := by
  have read := readValue_chars j (2 * j.chars.length + 1) [] h (by omega) (by simp [EndsNumber])
  rw [List.append_nil] at read
  rw [parse?, text, String.toList_ofList]
  simp only [read, Option.bind_eq_bind, Option.bind_some]
  rfl

end RecordRows.Json
