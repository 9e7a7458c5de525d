import RecordRows.Proofs.Binary.Reread
import RecordRows.Proofs.Row.Text

/-!
Floats in texts. The numeral that is written rounds to the float, but the reader rounds more than
once, so that what it finds is the nearest number to something else: the float is found again
exactly if it is nearest to that as well, and otherwise its neighbour or the number behind that
(`Value.float_reread`).
-/
namespace RecordRows

open Binary Format

/-! ## Texts -/

namespace Value

/-- The JSON text of a value. -/
def jsonText (v : Value) : String := v.toJson.text

/-- The value that a JSON text holds. -/
def ofJsonText? (s : String) : Option Value := (Json.parse? s).bind ofJson?

theorem jsonText_float {x : Binary64} {n : Numeral} (written : floatLayout.numeral? x = some n) :
    jsonText (.float x) = "\x7b\"Float\":" ++ n.text ++ "\x7d" := by
  have content : (Value.float x).toJson = .object [(Kind.float.tag.toList, .number n)] := by
    rw [toJson, written]
    rfl
  have key : Json.quote Kind.float.tag.toList = "\"Float\"".toList := by decide
  have chars : (Value.float x).toJson.chars
      = "\x7b\"Float\":".toList ++ n.chars ++ "\x7d".toList := by
    simp [content, Json.chars, Json.memberChars, Json.separated, key]
  rw [jsonText, Json.text, chars, Numeral.text, String.ofList_append, String.ofList_append,
    String.ofList_toList, String.ofList_toList]

theorem ofJsonText?_jsonText_float {x : Binary64} {n : Numeral}
    (written : floatLayout.numeral? x = some n) :
    ofJsonText? (jsonText (.float x)) = n.toBinary64?.map .float := by
  rw [ofJsonText?, jsonText, Json.parse?_text (wellFormed_toJson _), Option.bind_some]
  refine (ofJson?_object .float _).trans ?_
  rw [written]
  rfl

/-- A finite float is written as a numeral to which it is the nearest number. The text is read as
the number that is nearest to what scaling leaves of the numeral, with the same sign, and so the
float is found again exactly if it is the nearest one to that as well. In any case what is found is
at most two places away, and with few digits near the point it is the float. -/
theorem float_reread {x : Binary64} (finite : x.isFinite = true) :
    ∃ (n : Numeral) (v : ℚ) (y : Binary64),
      jsonText (.float x) = "\x7b\"Float\":" ++ n.text ++ "\x7d" ∧
      x.Rounds x.read.negative n.value ∧
      ofJsonText? (jsonText (.float x)) = some (.float y) ∧
      n.Leaves v ∧ y.Rounds x.read.negative v ∧
      (ofJsonText? (jsonText (.float x)) = some (.float x) ↔ x.Rounds x.read.negative v) ∧
      (x.bits.toNat ≤ y.bits.toNat + 2 ∧ y.bits.toNat ≤ x.bits.toNat + 2) ∧
      (n.significand ≤ 2 ^ 53 → n.scale.natAbs ≤ 22 → y = x) := by
  obtain ⟨s, m, q, read⟩ := Binary64.exists_read finite
  have fixed : floatLayout.greatestFixed ≤ 15 := by decide
  obtain ⟨n, z, y, k, p, written, rfl, scaled, positive, less, found, rounds, read', behind,
    before⟩ := Layout.exists_reread fixed read
  obtain ⟨n', written', -, spelled⟩ := Layout.numeral?_rounds fixed finite
  obtain rfl : n = n' := Option.some_inj.mp (written.symm.trans written')
  have sign : x.read.negative = n.negative := by rw [read]; rfl
  have reread : ofJsonText? (jsonText (.float x)) = some (.float y) := by
    rw [ofJsonText?_jsonText_float written, found]
    rfl
  have leaves : n.Leaves (if n.negative then -z else z) := ⟨z, scaled, rfl⟩
  rw [sign] at spelled ⊢
  refine ⟨n, _, y, jsonText_float written, spelled, reread, leaves, rounds, ?_, ?_, ?_⟩
  · rw [reread]
    constructor
    · intro same
      cases same
      exact rounds
    · intro nearest
      rw [nearest.unique positive less rounds]
  · rw [Binary64.bits_eq read, Binary64.bits_eq read']
    omega
  · intro digits power
    rw [← leaves.eq_value digits power] at spelled
    exact rounds.unique positive less spelled

/-- The number nearest to `9.032330635965109e83`. -/
def farFloat : Binary64 := ⟨0x515dc1a63ed50ded⟩

/-- What is read may indeed be two places away. -/
theorem float_reread_two_places_away : farFloat.isFinite = true ∧
    jsonText (.float farFloat) = "\x7b\"Float\":9.032330635965109e+83\x7d" ∧
    ∃ v y, ofJsonText? (jsonText (.float farFloat)) = some (.float y) ∧ y.Rounds false v ∧
      ¬ farFloat.Rounds false v ∧ y.bits.toNat + 2 = farFloat.bits.toNat := by
  have finite : farFloat.isFinite = true := by decide
  have positive : farFloat.read.negative = false := by decide
  have written : floatLayout.numeral? farFloat
      = some ⟨false, ['9'], "032330635965109".toList, some ⟨.plus, ['8', '3']⟩⟩ := by
    decide +kernel
  have read : ofJsonText? (jsonText (.float farFloat)) = some (.float ⟨0x515dc1a63ed50deb⟩) := by
    rw [ofJsonText?_jsonText_float written]
    decide +kernel
  obtain ⟨n, v, y, -, -, found, -, rounds, again, -⟩ := float_reread finite
  rw [positive] at rounds again
  obtain rfl : Binary64.mk 0x515dc1a63ed50deb = y := by
    rw [read] at found
    cases found
    rfl
  refine ⟨finite, ?_, v, _, found, rounds, fun nearest => ?_, by decide⟩
  · rw [jsonText_float written]
    decide
  · have lost := (again.mpr nearest).symm.trans read
    exact absurd lost (by decide)

/-- The number nearest to `1e-23`. -/
def lostFloat : Binary64 := ⟨0x3b282db34012b251⟩

/-- A float whose text has one digit only and that is not found again. -/
theorem float_lost : lostFloat.isFinite = true ∧
    jsonText (.float lostFloat) = "\x7b\"Float\":1e-23\x7d" ∧
    ofJsonText? (jsonText (.float lostFloat)) = some (.float ⟨0x3b282db34012b252⟩) ∧
    lostFloat ≠ ⟨0x3b282db34012b252⟩ := by
  have written : floatLayout.numeral? lostFloat
      = some ⟨false, ['1'], [], some ⟨.minus, ['2', '3']⟩⟩ := by
    decide +kernel
  refine ⟨by decide, ?_, ?_, by decide⟩
  · rw [jsonText_float written]
    decide
  · rw [ofJsonText?_jsonText_float written]
    decide +kernel

end Value

end RecordRows
