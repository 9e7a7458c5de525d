import RecordRows.Text.StringLiteral

/-!
A text that is written as a literal is read back, whatever its characters are. Writing never uses a
continued line, so no blank is dropped, and the escape of a NUL ends where the digit begins.
-/
namespace RecordRows.Text

/-! ## Code points -/

theorem hexValue?_digitChar : ∀ d < 16, hexValue? (Nat.digitChar d) = some d := by decide

theorem readBody_digit (kind : LiteralKind) (value : Nat) {digits d : Nat} {c : Char}
    (known : hexValue? c = some d) (few : digits < 6) (cs : List Char) :
    readBody kind (.code value digits) (c :: cs)
      = readBody kind (.code (16 * value + d) (digits + 1)) cs := by
  have apart : c ≠ '\x7d' ∧ c ≠ '_' := by
    constructor <;>
    · rintro rfl
      cases known
  rw [readBody, known]
  · simp only
    rw [if_neg (by omega)]
  · exact apart.1
  · exact apart.2

/-- Reading the digits of a number at the beginning of an escape. -/
theorem readBody_toDigits (kind : LiteralKind) (n : Nat) (few : (Nat.toDigits 16 n).length ≤ 6)
    (cs : List Char) :
    readBody kind (.code 0 0) (Nat.toDigits 16 n ++ cs)
      = readBody kind (.code n (Nat.toDigits 16 n).length) cs := by
  induction n using Nat.strongRecOn generalizing cs with
  | ind n ih =>
    rcases Nat.lt_or_ge n 16 with small | large
    · rw [Nat.toDigits_of_lt_base small]
      simp [readBody_digit kind 0 (hexValue?_digitChar n small) (by decide : 0 < 6)]
    · rw [Nat.toDigits_of_base_le (by decide) large] at few ⊢
      rw [List.length_append, List.length_singleton] at few
      rw [List.append_assoc, ih (n / 16) (by omega) (by omega), List.singleton_append,
        readBody_digit kind _ (hexValue?_digitChar _ (Nat.mod_lt n (by decide))) (by omega),
        Nat.div_add_mod, List.length_append, List.length_singleton]

theorem readBody_codeEscape (c : Char) (cs : List Char) :
    readBody .text .between (codeEscape c ++ cs)
      = (readBody .text .between cs).map fun r => (.escaped c :: r.1, r.2) := by
  have few : (Nat.toDigits 16 c.toNat).length ≤ 6 := by
    rw [Nat.length_toDigits_le_iff (by decide) (by decide)]
    have valid : c.toNat < 0xd800 ∨ 0xdfff < c.toNat ∧ c.toNat < 0x110000 := c.valid
    omega
  have some_digits : 0 < (Nat.toDigits 16 c.toNat).length := Nat.length_toDigits_pos
  have spelling : codeEscape c ++ cs =
      '\\' :: 'u' :: '\x7b' :: (Nat.toDigits 16 c.toNat ++ '\x7d' :: cs) := by
    simp [codeEscape]
  rw [spelling, readBody, if_neg (by decide), readBody_toDigits .text c.toNat few, readBody,
    if_pos ⟨some_digits, c.valid, Or.inr (by decide)⟩, Char.ofNat_toNat]

/-! ## Bodies -/

/-- A letter behind a backslash, apart from those that go on. -/
theorem readBody_letter {e c : Char} (h : letterEscape? .text e = some c) (cs : List Char) :
    readBody .text .between ('\\' :: e :: cs)
      = (readBody .text .between cs).map fun r => (.escaped c :: r.1, r.2) := by
  have known : e ≠ '\n' ∧ e ≠ '\r' ∧ e ≠ 'x' ∧ e ≠ 'u' := by
    refine ⟨?_, ?_, ?_, ?_⟩ <;>
    · rintro rfl
      cases h
  rw [readBody, h]
  · cases readBody .text .between cs <;> rfl
  all_goals simp_all

/-- A character is read back as one piece, as written or escaped. -/
theorem readBody_escape (c : Char) (next cs : List Char) :
    ∃ p, (p = .plain c ∨ p = .escaped c) ∧ readBody .text .between (escape c next ++ cs)
      = (readBody .text .between cs).map fun r => (p :: r.1, r.2) := by
  unfold escape
  split
  · next nul =>
    subst nul
    refine ⟨.escaped '\x00', Or.inr rfl, ?_⟩
    split
    · change readBody .text .between ('\\' :: 'x' :: '0' :: '0' :: cs) = _
      rw [readBody]
      cases readBody .text .between cs <;> rfl
    · exact readBody_letter rfl cs
  split
  · next tab =>
    subst tab
    exact ⟨.escaped '\t', Or.inr rfl, readBody_letter rfl cs⟩
  split
  · next line =>
    subst line
    exact ⟨.escaped '\n', Or.inr rfl, readBody_letter rfl cs⟩
  split
  · next feed =>
    subst feed
    exact ⟨.escaped '\r', Or.inr rfl, readBody_letter rfl cs⟩
  split
  · next mark =>
    subst mark
    exact ⟨.escaped '"', Or.inr rfl, readBody_letter rfl cs⟩
  split
  · next slash =>
    subst slash
    exact ⟨.escaped '\\', Or.inr rfl, readBody_letter rfl cs⟩
  split
  · exact ⟨.escaped c, Or.inr rfl, readBody_codeEscape c cs⟩
  · refine ⟨.plain c, Or.inl rfl, ?_⟩
    rw [List.singleton_append, readBody] <;> simp_all [admits]

/-- The pieces of a written body settle to the text they were written for. -/
theorem readBody_escapeAll (cs rest : List Char) :
    ∃ ps, readBody .text .between (escapeAll cs ++ '"' :: rest) = some (ps, rest)
      ∧ settle false ps = cs := by
  induction cs with
  | nil => exact ⟨[], by simp [escapeAll, readBody], rfl⟩
  | cons c cs ih =>
    obtain ⟨ps, read, settled⟩ := ih
    obtain ⟨p, written, first⟩ := readBody_escape c cs (escapeAll cs ++ '"' :: rest)
    refine ⟨p :: ps, ?_, ?_⟩
    · rw [escapeAll, List.append_assoc, first, read, Option.map_some]
    · rcases written with rfl | rfl <;> simp [settle, settled]

/-- A written literal denotes the text, and no suffix stands behind it. -/
theorem unquote?_quote (cs : List Char) : unquote? (quote cs) = some (cs, []) := by
  obtain ⟨ps, read, settled⟩ := readBody_escapeAll cs []
  rw [quote, List.cons_append, unquote?, read, Option.map_some, settled]

end RecordRows.Text
