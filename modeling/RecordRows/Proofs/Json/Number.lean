import RecordRows.Binary.Shortest
import RecordRows.Json.Reader
import RecordRows.Proofs.Binary.Canonical

/-!
Numbers in JSON texts. A numeral that follows the grammar is read back as it is spelled, in front of
anything that does not continue it (`readNumber_chars`). Integers are spelled this way, and so are
the shortest texts of floats.
-/
namespace RecordRows

open Binary

namespace Binary.Numeral

/-! ## Digits -/

theorem isDigit_digits {n : Nat} {c : Char} (h : c ∈ digits n) : c.isDigit = true :=
  Nat.isDigit_of_mem_toDigits (by decide) (by decide) h

theorem digits_ne_nil (n : Nat) : digits n ≠ [] := Nat.toDigits_ne_nil

theorem natOfDigits_digits (n : Nat) : natOfDigits (digits n) = n :=
  Nat.ofDigitChars_toDigits (by decide) (by decide)

/-- Only the number zero starts with a zero. -/
theorem digits_head?_ne_zero {n : Nat} (h : 0 < n) : (digits n).head? ≠ some '0' := by
  induction n using Nat.strongRecOn with
  | ind n ih =>
    rcases Nat.lt_or_ge n 10 with small | large
    · have table : ∀ m < 10, 0 < m → (digits m).head? ≠ some '0' := by decide
      exact table n small h
    · rw [digits, Nat.toDigits_of_base_le (by decide) large,
        List.head?_append_of_ne_nil _ Nat.toDigits_ne_nil]
      exact ih (n / 10) (by omega) (by omega)

/-! ## The grammar of numerals -/

/-- A numeral as it may stand in a text: with whole digits, of which a zero is the only one, and
with digits in its exponent. -/
structure WellFormed (n : Numeral) : Prop where
  whole : ∀ c ∈ n.whole, c.isDigit = true
  some_whole : n.whole ≠ []
  leading : n.whole.head? = some '0' → n.whole = ['0']
  fraction : ∀ c ∈ n.fraction, c.isDigit = true
  exponent : ∀ e, n.exponent = some e → e.digits ≠ [] ∧ ∀ c ∈ e.digits, c.isDigit = true

theorem wellFormed_ofInt (n : Int) : (ofInt n).WellFormed where
  whole _ h := isDigit_digits h
  some_whole := digits_ne_nil _
  leading h := by
    rcases Nat.eq_zero_or_pos n.natAbs with zero | positive
    · rw [ofInt, zero]
      rfl
    · exact absurd h (digits_head?_ne_zero positive)
  fraction := by simp [ofInt]
  exponent := by simp [ofInt]

theorem toInt?_ofInt (n : Int) : (ofInt n).toInt? = some n := by
  rw [toInt?, ofInt]
  simp only [List.isEmpty_nil, Option.isNone_none, Bool.and_self, if_true, natOfDigits_digits]
  by_cases negative : n < 0
  · rw [if_pos (by simpa using negative), Int.ofNat_natAbs_of_nonpos (by omega), neg_neg]
  · rw [if_neg (by simpa using negative), Int.natAbs_of_nonneg (by omega)]

end Binary.Numeral

namespace Json

open Numeral

/-! ## Reading -/

/-- What may stand behind a number: nothing that would continue it. -/
def EndsNumber (cs : List Char) : Prop :=
  ∀ c, cs.head? = some c → c.isDigit = false ∧ c ≠ '.' ∧ c ≠ 'e' ∧ c ≠ 'E'

theorem readDigits_append {ds rest : List Char} (digits : ∀ c ∈ ds, c.isDigit = true)
    (ends : ∀ c, rest.head? = some c → c.isDigit = false) :
    readDigits (ds ++ rest) = (ds, rest) := by
  rw [readDigits, List.span_eq_takeWhile_dropWhile, List.takeWhile_append_of_pos digits,
    List.dropWhile_append_of_pos digits]
  cases rest with
  | nil => simp
  | cons c cs => simp [ends c rfl]

theorem readExponent_of_endsNumber {rest : List Char} (ends : EndsNumber rest) :
    readExponent rest = some (none, rest) := by
  unfold readExponent
  split
  all_goals first
    | rfl
    | exact absurd rfl (ends _ rfl).2.2.1
    | exact absurd rfl (ends _ rfl).2.2.2

/-- What is written of an exponent. -/
def exponentChars : Option Exponent → List Char
  | none => []
  | some e => 'e' :: ExponentSign.chars e.sign ++ e.digits

/-- What is written of a fraction. -/
def fractionChars (ds : List Char) : List Char := if ds.isEmpty then [] else '.' :: ds

theorem chars_eq (n : Numeral) : n.chars = (if n.negative then ['-'] else [])
    ++ (n.whole ++ (fractionChars n.fraction ++ exponentChars n.exponent)) := by
  rw [Numeral.chars, List.append_assoc, List.append_assoc]
  cases n.exponent <;> rfl

theorem readExponent_append {e? : Option Exponent} {rest : List Char}
    (written : ∀ e, e? = some e → e.digits ≠ [] ∧ ∀ c ∈ e.digits, c.isDigit = true)
    (ends : EndsNumber rest) : readExponent (exponentChars e? ++ rest) = some (e?, rest) := by
  cases e? with
  | none => exact readExponent_of_endsNumber ends
  | some e =>
    obtain ⟨some_digits, digits⟩ := written e rfl
    have read := readDigits_append digits fun c h => (ends c h).1
    obtain ⟨sign, ds⟩ := e
    cases ds with
    | nil => exact absurd rfl some_digits
    | cons d ds =>
      have digit : d.isDigit = true := digits d (by simp)
      simp only [List.cons_append] at read
      cases sign with
      | plus => simp [readExponent, exponentChars, ExponentSign.chars, read]
      | minus => simp [readExponent, exponentChars, ExponentSign.chars, read]
      | none =>
        simp only [exponentChars, ExponentSign.chars, List.cons_append, List.nil_append]
        unfold readExponent
        split
        all_goals simp_all

theorem head?_exponentChars {e? : Option Exponent} {rest : List Char} (ends : EndsNumber rest)
    {c : Char} (hc : (exponentChars e? ++ rest).head? = some c) : c.isDigit = false ∧ c ≠ '.' := by
  cases e? with
  | none => exact ⟨(ends c hc).1, (ends c hc).2.1⟩
  | some e =>
    cases hc
    decide

theorem head?_fractionChars {ds rest : List Char}
    (ends : ∀ c, rest.head? = some c → c.isDigit = false) {c : Char}
    (hc : (fractionChars ds ++ rest).head? = some c) : c.isDigit = false := by
  unfold fractionChars at hc
  split at hc
  · exact ends c hc
  · cases hc
    decide

theorem readMagnitude_append {n : Numeral} (h : n.WellFormed) {rest : List Char}
    (ends : EndsNumber rest) :
    readMagnitude n.negative
        (n.whole ++ (fractionChars n.fraction ++ (exponentChars n.exponent ++ rest)))
      = some (n, rest) := by
  have afterFraction : ∀ c, (exponentChars n.exponent ++ rest).head? = some c →
      c.isDigit = false ∧ c ≠ '.' := fun c => head?_exponentChars ends
  have afterWhole : ∀ c,
      (fractionChars n.fraction ++ (exponentChars n.exponent ++ rest)).head? = some c →
        c.isDigit = false := fun c => head?_fractionChars fun c hc => (afterFraction c hc).1
  have readWhole := readDigits_append h.whole afterWhole
  have readFraction := readDigits_append h.fraction fun c hc => (afterFraction c hc).1
  have readRest := readExponent_append h.exponent ends
  obtain ⟨negative, whole, fraction, exponent⟩ := n
  obtain ⟨-, some_whole, leading, -, -⟩ := h
  simp only at *
  unfold readMagnitude
  simp only [readWhole]
  split
  · exact absurd rfl some_whole
  · exact absurd (leading rfl) (by simp)
  · rw [if_neg (by decide)]
    cases fraction with
    | nil =>
      rw [fractionChars, List.isEmpty_nil, if_pos rfl, List.nil_append]
      split
      · next point => exact absurd rfl (afterFraction '.' (by rw [point]; rfl)).2
      · simp [readRest]
    | cons d ds =>
      rw [List.cons_append] at readFraction
      simp [fractionChars, readFraction, readRest]

theorem readNumber_chars {n : Numeral} (h : n.WellFormed) {rest : List Char}
    (ends : EndsNumber rest) : readNumber (n.chars ++ rest) = some (n, rest) := by
  have read := readMagnitude_append h ends
  rw [chars_eq, List.append_assoc, List.append_assoc, List.append_assoc]
  cases negative : n.negative with
  | true =>
    rw [negative] at read
    exact read
  | false =>
    rw [negative] at read
    rw [if_neg (by decide), List.nil_append, readNumber]
    · exact read
    · intro cs minus
      cases whole : n.whole with
      | nil => exact h.some_whole whole
      | cons d ds =>
        rw [whole] at minus
        cases minus
        exact absurd (h.whole '-' (by simp [whole])) (by decide)

end Json

/-! ## Floats -/

namespace Binary

theorem isDigit_zeros {k : Nat} {c : Char} (h : c ∈ Numeral.zeros k) : c.isDigit = true := by
  rw [List.eq_of_mem_replicate h]
  decide

theorem pos_of_between {closed : Bool} {low high unit b : Nat} (positive : 0 < low)
    (held : (if closed then decide (low ≤ b * unit) && decide (b * unit ≤ high)
      else decide (low < b * unit) && decide (b * unit < high)) = true) : 0 < b := by
  rcases Nat.eq_zero_or_pos b with zero | positive
  · rw [zero, Nat.zero_mul] at held
    split at held <;>
      simp only [Bool.and_eq_true, decide_eq_true_eq] at held <;> omega
  · exact positive

/-- Zero does not round to a number that is not zero. -/
theorem Interval.gridPoint?_pos {i : Interval} (h : 0 < i.low) {q p : Int} {k : Nat}
    (found : i.gridPoint? q p = some k) : 0 < k := by
  have low : 0 < i.low * (twoTo (q - 2).toNat * tenTo (-p).toNat) :=
    Nat.mul_pos h (Nat.mul_pos (twoTo_pos _) (Nat.pow_pos (by decide)))
  unfold Interval.gridPoint? at found
  simp only at found
  generalize hb : i.value * (twoTo (q - 2).toNat * tenTo (-p).toNat)
    / (twoTo (2 - q).toNat * tenTo p.toNat) = b at found
  split at found
  · next holds _ =>
    have positive := pos_of_between low holds
    cases found
    unfold Format.nearest
    simp only [hb]
    split_ifs <;> omega
  · next holds _ =>
    cases found
    exact pos_of_between low holds
  · cases found
    omega
  · cases found

theorem Interval.coarsest_pos {i : Interval} (low : 0 < i.low) (value : 0 < i.value) {q : Int}
    (p : Int) (fuel : Nat) : 0 < (i.coarsest q p fuel).digits := by
  induction fuel generalizing p with
  | zero => exact value
  | succ fuel ih =>
    rw [Interval.coarsest]
    split
    · next found => exact gridPoint?_pos low found
    · exact ih (p - 1)

theorem shortest_pos (f : Format) {m : Nat} (h : 0 < m) (q : Int) :
    0 < (shortest f m q).digits := by
  refine Interval.coarsest_pos ?_ ?_ 310 700
  · simp only [Interval.ofSignificand]
    split_ifs <;> omega
  · simp only [Interval.ofSignificand]
    omega

theorem wellFormed_numeral (l : Layout) (s : Bool) {d : Decimal} (h : 0 < d.digits) :
    (l.numeral s d).WellFormed := by
  have digits : ∀ c ∈ Numeral.digits d.digits, c.isDigit = true := fun c => Numeral.isDigit_digits
  have leading := Numeral.digits_head?_ne_zero h
  have nonempty := Numeral.digits_ne_nil d.digits
  unfold Layout.numeral
  simp only
  generalize Numeral.digits d.digits = ds at digits nonempty leading
  cases ds with
  | nil => exact absurd rfl nonempty
  | cons c cs =>
    have taken (k : Nat) : ∀ x ∈ (c :: cs).take (k + 1), x.isDigit = true :=
      fun x hx => digits x (List.mem_of_mem_take hx)
    have dropped (k : Nat) : ∀ x ∈ (c :: cs).drop k, x.isDigit = true :=
      fun x hx => digits x (List.mem_of_mem_drop hx)
    split
    · split
      · refine ⟨fun x hx => ?_, by simp, fun zero => absurd zero (by simpa using leading),
          by simp, by simp⟩
        rcases List.mem_append.mp hx with hx | hx
        · exact digits x hx
        · exact isDigit_zeros hx
      · split
        · exact ⟨taken _, by simp, fun zero => absurd zero (by simpa using leading), dropped _,
            by simp⟩
        · refine ⟨by simp, by simp, fun _ => rfl, fun x hx => ?_, by simp⟩
          rcases List.mem_append.mp hx with hx | hx
          · exact isDigit_zeros hx
          · exact digits x hx
    · refine ⟨taken 0, by simp, fun zero => absurd zero (by simpa using leading), dropped 1, ?_⟩
      rintro e ⟨⟩
      refine ⟨by simp [Numeral.digits_ne_nil], fun x hx => ?_⟩
      rcases List.mem_append.mp hx with hx | hx
      · exact isDigit_zeros hx
      · exact Numeral.isDigit_digits hx

theorem wellFormed_numeral? {l : Layout} {x : Binary64} {n : Numeral} (h : l.numeral? x = some n) :
    n.WellFormed := by
  unfold Layout.numeral? at h
  split at h
  · next s m q _ =>
    split_ifs at h with zero
    · cases h
      constructor <;> simp
    · cases h
      exact wellFormed_numeral l s (shortest_pos _ (Nat.pos_of_ne_zero zero) q)
  · cases h

end Binary
end RecordRows
