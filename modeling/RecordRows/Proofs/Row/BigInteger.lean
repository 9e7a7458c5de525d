import Mathlib.Algebra.BigOperators.Ring.Finset
import Mathlib.Data.Nat.Digits.Lemmas
import RecordRows.Proofs.Row.Text

/-!
The JSON form of big integers. A text is read as a big integer exactly when it spells a sign and
digits of base `2 ^ 32`, however they are chosen (`Value.held?_bigInt_iff`), and each integer is
written with the one choice that has no redundant digit (`Value.written_bigInt_iff`).
-/
namespace RecordRows

/-! ## Digits -/

namespace BigDigits

theorem base_eq : base = 2 ^ 32 := by norm_num [base]

theorem toNat_eq_ofDigits (ds : List Nat) : toNat ds = Nat.ofDigits base ds :=
  (Nat.ofDigits_eq_foldr base ds).symm

theorem ofNat_eq_digits (n : Nat) : ofNat n = Nat.digits base n := by
  induction n using Nat.strongRecOn with
  | ind n ih =>
    rw [ofNat]
    split
    · next zero => rw [zero, Nat.digits_zero]
    · next positive =>
      have less := Nat.div_lt_self (Nat.pos_of_ne_zero positive) (by decide : 1 < base)
      rw [ih _ less, Nat.digits_def' (by decide) (Nat.pos_of_ne_zero positive)]

/-- What digits stand for, the first one being the least. -/
def worth (ds : List Nat) : Nat := ∑ i ∈ Finset.range ds.length, ds.getD i 0 * 2 ^ (32 * i)

theorem worth_eq (ds : List Nat) : worth ds = toNat ds := by
  induction ds with
  | nil => rfl
  | cons d ds ih =>
    unfold worth at ih ⊢
    have step (i : Nat) : (d :: ds).getD (i + 1) 0 * 2 ^ (32 * (i + 1))
        = base * (ds.getD i 0 * 2 ^ (32 * i)) := by
      rw [List.getD_cons_succ, base_eq, Nat.mul_succ, pow_add]
      ring
    rw [List.length_cons, Finset.sum_range_succ', Finset.sum_congr rfl fun i _ => step i,
      ← Finset.mul_sum, ih, List.getD_cons_zero, Nat.mul_zero, Nat.pow_zero, Nat.mul_one,
      Nat.add_comm]
    rfl

theorem toNat_eq_zero_iff {ds : List Nat} : toNat ds = 0 ↔ ∀ d ∈ ds, d = 0 := by
  induction ds with
  | nil => simp [toNat]
  | cons d ds ih =>
    rw [toNat, List.foldr_cons, ← toNat, Nat.add_eq_zero_iff, List.forall_mem_cons, ← ih,
      Nat.mul_eq_zero, or_iff_right (by decide)]

theorem getLast?_ofNat (n : Nat) : (ofNat n).getLast? ≠ some 0 := by
  rw [ofNat_eq_digits]
  intro last
  obtain ⟨nonempty, zero⟩ := List.mem_getLast?_eq_getLast (Option.mem_def.mpr last)
  have positive : n ≠ 0 := Nat.digits_ne_nil_iff_ne_zero.mp nonempty
  exact Nat.getLast_digit_ne_zero base positive zero.symm

/-- Digits without a redundant one are those of their number. -/
theorem ofNat_toNat {ds : List Nat} (small : ∀ d ∈ ds, d < base) (last : ds.getLast? ≠ some 0) :
    ofNat (toNat ds) = ds := by
  rw [ofNat_eq_digits, toNat_eq_ofDigits]
  refine Nat.digits_ofDigits base (by decide) ds small fun nonempty zero => last ?_
  rw [List.getLast?_eq_some_getLast nonempty, zero]

theorem ofNat_eq_nil_iff {n : Nat} : ofNat n = [] ↔ n = 0 := by
  rw [ofNat_eq_digits, Nat.digits_eq_nil_iff_eq_zero]

/-- Digits that may stand for a big integer behind a sign. -/
structure Admitted (sign : Int) (ds : List Nat) : Prop where
  sign : sign = -1 ∨ sign = 0 ∨ sign = 1
  digits : ∀ d ∈ ds, d < base

end BigDigits

/-! ## Reading -/

namespace Json

open BigDigits

theorem toNatBelow?_eq_some_iff {bound d : Nat} {j : Json} :
    j.toNatBelow? bound = some d ↔ j.toInt? = some (d : Int) ∧ d < bound := by
  cases h : j.toInt? with
  | none => simp [toNatBelow?, h]
  | some n =>
    simp only [toNatBelow?, h, Option.bind_eq_bind, Option.bind_some, Option.some_inj]
    split
    · next inside =>
      rw [Option.some_inj]
      omega
    · next outside =>
      refine iff_of_false (by simp) ?_
      omega

theorem mapM_toNatBelow?_eq_some_iff {bound : Nat} {items : List Json} {ds : List Nat} :
    items.mapM (toNatBelow? bound) = some ds ↔
      items.mapM toInt? = some (ds.map Int.ofNat) ∧ ∀ d ∈ ds, d < bound := by
  induction items generalizing ds with
  | nil => cases ds <;> simp
  | cons item items ih =>
    cases ds with
    | nil => simp [List.mapM_cons, Option.bind_eq_some_iff]
    | cons d ds =>
      simp only [List.mapM_cons, Option.bind_eq_bind, Option.bind_eq_some_iff, Option.pure_def,
        Option.some_inj, List.cons.injEq, List.map_cons, List.forall_mem_cons]
      constructor
      · rintro ⟨e, first, es, rest, rfl, rfl⟩
        obtain ⟨value, bounded⟩ := toNatBelow?_eq_some_iff.mp first
        obtain ⟨values, all⟩ := ih.mp rest
        exact ⟨⟨_, value, _, values, rfl, rfl⟩, bounded, all⟩
      · rintro ⟨⟨_, value, _, values, rfl, rfl⟩, bounded, all⟩
        exact ⟨d, toNatBelow?_eq_some_iff.mpr ⟨value, bounded⟩, ds, ih.mpr ⟨values, all⟩, rfl, rfl⟩

/-- A sign and digits are read as a big integer when they are admitted, and nothing else is. -/
theorem toBigInt?_eq_some_iff {j : Json} {n : Int} : j.toBigInt? = some n ↔
    ∃ first items sign ds, j = .array [first, .array items] ∧ first.toInt? = some sign ∧
      items.mapM toInt? = some (ds.map Int.ofNat) ∧ Admitted sign ds ∧ n = sign * toNat ds := by
  constructor
  · intro h
    unfold toBigInt? at h
    split at h
    · next first items =>
      obtain ⟨sign, signed, h⟩ := Option.bind_eq_some_iff.mp h
      split at h
      · next known =>
        obtain ⟨ds, digits, h⟩ := Option.bind_eq_some_iff.mp h
        obtain ⟨values, bounded⟩ := mapM_toNatBelow?_eq_some_iff.mp digits
        exact ⟨first, items, sign, ds, rfl, signed, values, ⟨known, bounded⟩,
          (Option.some_inj.mp h).symm⟩
      · cases h
    · cases h
  · rintro ⟨first, items, sign, ds, rfl, signed, values, admitted, rfl⟩
    have digits := mapM_toNatBelow?_eq_some_iff.mpr ⟨values, admitted.digits⟩
    simp only [toBigInt?, signed, digits, Option.bind_eq_bind, Option.bind_some,
      if_pos admitted.sign]

end Json

namespace Value

open Json BigDigits

theorem ofContent?_bigInt_iff {k : Kind} {j : Json} {n : Int} :
    ofContent? k j = some (.bigInt n) ↔ k = .bigInt ∧ j.toBigInt? = some n := by
  cases k with
  | bigInt => simp [ofContent?]
  | int =>
    refine iff_of_false (fun h => ?_) (by simp)
    obtain ⟨_, _, other⟩ := Option.map_eq_some_iff.mp h
    cases other
  | _ => cases j <;> simp [ofContent?]

theorem ofTag?_eq_some {tag : List Char} {k : Kind} (h : Kind.ofTag? tag = some k) :
    tag = k.tag.toList := by
  have test := List.find?_some h
  exact (beq_iff_eq.mp test).symm

theorem ofJson?_bigInt_iff {j : Json} {n : Int} : ofJson? j = some (.bigInt n) ↔
    ∃ content, j = .object [(Kind.bigInt.tag.toList, content)] ∧ content.toBigInt? = some n := by
  constructor
  · intro h
    unfold ofJson? at h
    split at h
    · split at h <;> cases h
    · next tag content =>
      obtain ⟨k, known, h⟩ := Option.bind_eq_some_iff.mp h
      obtain ⟨rfl, read⟩ := ofContent?_bigInt_iff.mp h
      exact ⟨content, by rw [ofTag?_eq_some known], read⟩
    · cases h
  · rintro ⟨content, rfl, read⟩
    rw [ofJson?_object]
    exact ofContent?_bigInt_iff.mpr ⟨rfl, read⟩

/-! ## Texts -/

/-- The text of a value. -/
def written (v : Value) : String := v.toJson.text

/-- The value that a text holds. -/
def held? (t : String) : Option Value := (parse? t).bind ofJson?

/-- A text in the form in which it is written after it was read. -/
def rewritten? (t : String) : Option String := (held? t).map written

/-- A text that spells a sign and digits, with blanks where they are allowed. -/
def SpellsDigits (t : String) (sign : Int) (ds : List Nat) : Prop :=
  ∃ first items, parse? t = some (.object
      [(Kind.bigInt.tag.toList, .array [first, .array items])]) ∧
    first.toInt? = some sign ∧ items.mapM toInt? = some (ds.map Int.ofNat)

/-- The sign and the digits in what a text spells. -/
def spelled? (t : String) : Option (Int × List Int) := do
  let .object [(tag, .array [first, .array items])] ← parse? t | none
  guard (tag = Kind.bigInt.tag.toList)
  return (← first.toInt?, ← items.mapM toInt?)

theorem spellsDigits_iff {t : String} {sign : Int} {ds : List Nat} :
    SpellsDigits t sign ds ↔ spelled? t = some (sign, ds.map Int.ofNat) := by
  constructor
  · rintro ⟨first, items, parsed, signed, values⟩
    simp [spelled?, parsed, signed, values]
  · intro h
    obtain ⟨j, parsed, h⟩ := Option.bind_eq_some_iff.mp h
    split at h
    · next tag first items =>
      obtain ⟨_, same, h⟩ := Option.bind_eq_some_iff.mp h
      obtain ⟨_, signed, h⟩ := Option.bind_eq_some_iff.mp h
      obtain ⟨_, values, h⟩ := Option.bind_eq_some_iff.mp h
      cases h
      obtain rfl : tag = _ := by simpa [guard] using same
      exact ⟨first, items, parsed, signed, values⟩
    · cases h

instance (t : String) (sign : Int) (ds : List Nat) : Decidable (SpellsDigits t sign ds) :=
  decidable_of_iff _ spellsDigits_iff.symm

theorem mapM_toInt?_ofNat (ds : List Nat) :
    (ds.map Json.ofNat).mapM toInt? = some (ds.map Int.ofNat) := by
  have each (d : Nat) : (Json.ofNat d).toInt? = some (Int.ofNat d) := toInt?_number d
  induction ds with
  | nil => rfl
  | cons d ds ih =>
    rw [List.map_cons, List.mapM_cons, each, ih]
    rfl

theorem spellsDigits_digitForm (sign : Int) (ds : List Nat) :
    SpellsDigits (digitForm sign ds).text sign ds :=
  ⟨_, _, parse?_text (wellFormed_digitForm sign ds), toInt?_number sign, mapM_toInt?_ofNat ds⟩

theorem SpellsDigits.unique {t : String} {sign sign' : Int} {ds ds' : List Nat}
    (spelled : SpellsDigits t sign ds) (spelled' : SpellsDigits t sign' ds') :
    sign = sign' ∧ ds = ds' := by
  obtain ⟨first, items, parsed, signed, values⟩ := spelled
  obtain ⟨first', items', parsed', signed', values'⟩ := spelled'
  rw [parsed, Option.some_inj] at parsed'
  obtain ⟨rfl, rfl⟩ : first = first' ∧ items = items' := by simpa using parsed'
  rw [signed, Option.some_inj] at signed'
  rw [values, Option.some_inj] at values'
  exact ⟨signed', List.map_injective_iff.mpr (fun _ _ => Int.ofNat.inj) values'⟩

theorem held?_written {v : Value} (h : v.kind ≠ .float) : held? v.written = some v := by
  rw [held?, written, parse?_text v.wellFormed_toJson, Option.bind_some, ofJson?_toJson h]

theorem written_bigInt (n : Int) :
    written (.bigInt n) = (digitForm n.sign (BigDigits.ofNat n.natAbs)).text := rfl

/-- A text holds a big integer exactly when it spells a sign and digits that are admitted. -/
theorem held?_bigInt_iff {t : String} {n : Int} : held? t = some (.bigInt n) ↔
    ∃ sign ds, SpellsDigits t sign ds ∧ Admitted sign ds ∧ n = sign * toNat ds := by
  constructor
  · intro h
    obtain ⟨j, parsed, held⟩ := Option.bind_eq_some_iff.mp h
    obtain ⟨content, rfl, read⟩ := ofJson?_bigInt_iff.mp held
    obtain ⟨first, items, sign, ds, rfl, signed, values, admitted, rfl⟩ :=
      toBigInt?_eq_some_iff.mp read
    exact ⟨sign, ds, ⟨first, items, parsed, signed, values⟩, admitted, rfl⟩
  · rintro ⟨sign, ds, ⟨first, items, parsed, signed, values⟩, admitted, rfl⟩
    rw [held?, parsed, Option.bind_some]
    exact ofJson?_bigInt_iff.mpr ⟨_, rfl, toBigInt?_eq_some_iff.mpr
      ⟨first, items, sign, ds, rfl, signed, values, admitted, rfl⟩⟩

theorem held?_of_spellsDigits {t : String} {sign : Int} {ds : List Nat}
    (spelled : SpellsDigits t sign ds) (admitted : Admitted sign ds) :
    held? t = some (.bigInt (sign * toNat ds)) :=
  held?_bigInt_iff.mpr ⟨sign, ds, spelled, admitted, rfl⟩

/-! ## The written form -/

/-- The sign and the digits under which an integer is written. -/
structure IsCanonical (n : Int) (sign : Int) (ds : List Nat) : Prop where
  signed : sign = n.sign
  digits : ∀ d ∈ ds, d < 2 ^ 32
  value : sign * worth ds = n
  last : ds.getLast? ≠ some 0
  empty : ds = [] ↔ n = 0

theorem isCanonical_ofNat (n : Int) : IsCanonical n n.sign (BigDigits.ofNat n.natAbs) where
  signed := rfl
  digits _ h := base_eq ▸ lt_base_of_mem_ofNat h
  value := by rw [worth_eq, toNat_ofNat, Int.sign_mul_natAbs]
  last := getLast?_ofNat n.natAbs
  empty := ofNat_eq_nil_iff.trans Int.natAbs_eq_zero

/-- The digits of a canonical form are those that are written. -/
theorem IsCanonical.eq_ofNat {n sign : Int} {ds : List Nat} (h : IsCanonical n sign ds) :
    ds = BigDigits.ofNat n.natAbs := by
  -- the value says nothing about the digits of zero, whose sign is 0
  by_cases zero : n = 0
  · rw [h.empty.mpr zero, zero, Int.natAbs_zero, ofNat_eq_nil_iff.mpr rfl]
  · have value : toNat ds = n.natAbs := by
      have sameSize := congrArg Int.natAbs h.value
      rwa [worth_eq, h.signed, Int.natAbs_mul, Int.natAbs_sign_of_ne_zero zero, Nat.one_mul,
        Int.natAbs_natCast] at sameSize
    rw [← value, ofNat_toNat (base_eq ▸ h.digits) h.last]

/-- An integer is written under its canonical sign and digits and under no others. -/
theorem written_bigInt_iff {n sign : Int} {ds : List Nat} :
    written (.bigInt n) = (digitForm sign ds).text ↔ IsCanonical n sign ds := by
  constructor
  · intro same
    have spelled := spellsDigits_digitForm sign ds
    rw [← same, written_bigInt] at spelled
    obtain ⟨rfl, rfl⟩ := (spellsDigits_digitForm _ _).unique spelled
    exact isCanonical_ofNat n
  · intro canonical
    rw [written_bigInt, canonical.eq_ofNat, canonical.signed]

/-- Texts hold the same value exactly when they are rewritten to the same text. -/
theorem rewritten?_inj {t t' : String} {v v' : Value} (held : held? t = some v)
    (held' : held? t' = some v') (exact : v.kind ≠ .float) (exact' : v'.kind ≠ .float) :
    rewritten? t = rewritten? t' ↔ v = v' := by
  rw [rewritten?, rewritten?, held, held', Option.map_some, Option.map_some, Option.some_inj]
  constructor
  · intro same
    have again := held?_written exact
    rw [same, held?_written exact', Option.some_inj] at again
    exact again.symm
  · rintro rfl
    rfl

/-- A text that spells a sign and digits, redundant ones or not, is read as the integer that they
stand for, which is zero exactly for the sign `0` or without a digit other than `0`. Every integer
is written under one sign and one list of digits, the canonical ones, and two such texts are
rewritten to the same text exactly if they stand for the same integer. -/
theorem bigInt_canonical {t t' : String} {sign sign' : Int} {ds ds' : List Nat}
    (spelled : SpellsDigits t sign ds) (admitted : Admitted sign ds)
    (spelled' : SpellsDigits t' sign' ds') (admitted' : Admitted sign' ds') (n : Int) :
    SpellsDigits (digitForm sign ds).text sign ds ∧
    held? t = some (.bigInt (sign * worth ds)) ∧
    (sign * worth ds = 0 ↔ sign = 0 ∨ ∀ d ∈ ds, d = 0) ∧
    ((∃! form : Int × List Nat, IsCanonical n form.1 form.2) ∧
      ∀ s es, written (.bigInt n) = (digitForm s es).text ↔ IsCanonical n s es) ∧
    (sign * worth ds = sign' * worth ds' ↔ rewritten? t = rewritten? t') := by
  have held := held?_of_spellsDigits spelled admitted
  have held' := held?_of_spellsDigits spelled' admitted'
  refine ⟨spellsDigits_digitForm sign ds, ?_, ?_, ⟨?_, fun s es => written_bigInt_iff⟩, ?_⟩
  · rwa [worth_eq]
  · rw [worth_eq, Int.mul_eq_zero, Int.natCast_eq_zero, toNat_eq_zero_iff]
  · refine ⟨(n.sign, BigDigits.ofNat n.natAbs), isCanonical_ofNat n, fun form canonical => ?_⟩
    exact Prod.ext canonical.signed canonical.eq_ofNat
  · rw [worth_eq, worth_eq, rewritten?_inj held held' (by simp [kind]) (by simp [kind]),
      Value.bigInt.injEq]

/-- Zero with a sign and a digit, and a digit without a sign. -/
theorem bigInt_canonical_of_zeros :
    SpellsDigits "\x7b\"BigInt\":[-1,[0]]\x7d" (-1) [0] ∧ Admitted (-1) [0] ∧
    SpellsDigits " \x7b \"BigInt\" : [0, [7, 4294967295]] \x7d" 0 [7, 4294967295] ∧
    Admitted 0 [7, 4294967295] ∧
    held? "\x7b\"BigInt\":[-1,[0]]\x7d" = some (.bigInt (-1 * worth [0])) ∧
    (-1 * (worth [0] : Int) = 0 * worth [7, 4294967295] ↔
      rewritten? "\x7b\"BigInt\":[-1,[0]]\x7d"
        = rewritten? " \x7b \"BigInt\" : [0, [7, 4294967295]] \x7d") ∧
    written (.bigInt 0) = (digitForm 0 []).text := by
  have spelled : SpellsDigits "\x7b\"BigInt\":[-1,[0]]\x7d" (-1) [0] :=
    by decide +kernel
  have admitted : Admitted (-1) [0] := ⟨by decide, by decide⟩
  have spelled' : SpellsDigits " \x7b \"BigInt\" : [0, [7, 4294967295]] \x7d" 0 [7, 4294967295] :=
    by decide +kernel
  have admitted' : Admitted 0 [7, 4294967295] := ⟨by decide, by decide⟩
  obtain ⟨-, held, -, ⟨-, forms⟩, same⟩ := bigInt_canonical spelled admitted spelled' admitted' 0
  refine ⟨spelled, admitted, spelled', admitted', held, same, (forms 0 []).mpr ?_⟩
  exact ⟨rfl, by simp, rfl, by simp, by simp⟩

/-- Redundant digits stay in a text until it was read. -/
example : (digitForm (-1) [0, 1, 0]).text = "\x7b\"BigInt\":[-1,[0,1,0]]\x7d" := by
  decide +kernel

end Value

end RecordRows
