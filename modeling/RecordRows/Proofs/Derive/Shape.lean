import Mathlib.Data.List.Nodup
import RecordRows.Derive.Expansion

/-!
What an accepted shape says about its declaration, and the local names of its fields: they are
different from one another and from every name that the generated code uses beside them.
-/
namespace RecordRows

open Source

/-! ## Accepted declarations -/

/-- The body of a declaration with these fields. -/
def RecordFields.body : RecordFields → Body
  | .named fields => .struct (.named fields)
  | .positional types => .struct (.positional types)

theorem RecordFields.body_injective : Function.Injective RecordFields.body := by
  intro fs fs' same
  cases fs <;> cases fs' <;> cases same <;> rfl

/-- The fields have names. -/
def RecordFields.IsNamed : RecordFields → Prop
  | .named _ => True
  | .positional _ => False

namespace Shape

theorem ofFields_eq_ok_iff (d : Declaration) (derive : String) (fields : RecordFields) (s : Shape) :
    ofFields d derive fields = .ok s ↔
      s.fields = fields ∧ s.name = d.name ∧ s.visibility = d.visibility
        ∧ s.generics = d.generics := by
  unfold ofFields
  split
  · next empty =>
    constructor
    · intro h
      cases h
    · rintro ⟨rfl, -⟩
      exact absurd empty s.nonempty
  · next nonempty =>
    constructor
    · intro h
      cases h
      exact ⟨rfl, rfl, rfl, rfl⟩
    · rintro ⟨rfl, hn, hv, hg⟩
      rw [← hn, ← hv, ← hg]

/-- A shape is accepted when it is that of the declaration, and named where names are required. -/
theorem inspect_eq_ok_iff (d : Declaration) (derive : String) (namesRequired : Bool) (s : Shape) :
    inspect d derive namesRequired = .ok s ↔
      d.body = s.fields.body ∧ s.name = d.name ∧ s.visibility = d.visibility
        ∧ s.generics = d.generics ∧ (namesRequired = true → s.fields.IsNamed) := by
  cases hb : d.body with
  | enum => cases s.fields <;> simp [inspect, hb, RecordFields.body]
  | union => cases s.fields <;> simp [inspect, hb, RecordFields.body]
  | struct fields =>
    cases fields with
    | unit => cases s.fields <;> simp [inspect, hb, RecordFields.body]
    | named fields =>
      simp only [inspect, hb, ofFields_eq_ok_iff]
      cases hf : s.fields <;> simp [RecordFields.body, RecordFields.IsNamed, eq_comm]
    | positional types =>
      have accepted : inspect d derive namesRequired = .ok s ↔
          ofFields d derive (.positional types) = .ok s ∧ namesRequired = false := by
        simp only [inspect, hb]
        cases ofFields d derive (.positional types) <;> cases namesRequired <;>
          simp [bind, Except.bind]
      rw [accepted, ofFields_eq_ok_iff]
      cases hf : s.fields <;> cases namesRequired <;>
        simp [RecordFields.body, RecordFields.IsNamed, eq_comm]

/-- Acceptance depends neither on the name of the derivation nor on a demand for names. -/
theorem inspect_of_inspect {d : Declaration} {derive : String} {namesRequired : Bool} {s : Shape}
    (accepted : inspect d derive namesRequired = .ok s) (other : String) :
    inspect d other false = .ok s := by
  rw [inspect_eq_ok_iff] at accepted ⊢
  obtain ⟨hb, hn, hv, hg, -⟩ := accepted
  exact ⟨hb, hn, hv, hg, by simp⟩

end Shape

/-! ## Local names -/

namespace RecordFields

theorem toList_binding (i : Nat) : (binding i).toList = "field_".toList ++ Nat.toDigits 10 i := by
  simp [binding, toString, Nat.toList_repr]

theorem binding_injective : Function.Injective binding := by
  intro i j h
  have same := congrArg String.toList h
  rw [toList_binding, toList_binding] at same
  have digits := List.append_cancel_left same
  have read := congrArg (fun ds => Nat.ofDigitChars 10 ds 0) digits
  simpa using read

/-- No local name is one of the words that do not start with its stem. -/
theorem binding_ne {w : String} (h : "field_".toList.isPrefixOf w.toList = false) (i : Nat) :
    binding i ≠ w := by
  rintro rfl
  rw [toList_binding] at h
  simp [List.isPrefixOf] at h

theorem isKeyword_binding (i : Nat) : Ahead.isKeyword (binding i) = false := by
  have stems : ∀ w ∈ Ahead.keywords, "field_".toList.isPrefixOf w.toList = false := by decide
  rw [Ahead.isKeyword, List.contains_eq_mem, decide_eq_false_iff_not]
  intro h
  exact binding_ne (stems _ h) i rfl

theorem length_bindings (fs : RecordFields) : fs.bindings.length = fs.types.length := by
  rw [bindings, List.length_map, List.length_range]

theorem nodup_bindings (fs : RecordFields) : fs.bindings.Nodup :=
  List.Nodup.map binding_injective List.nodup_range

theorem exists_binding {fs : RecordFields} {x : String} (h : x ∈ fs.bindings) :
    ∃ i, x = binding i := by
  obtain ⟨i, -, hi⟩ := List.mem_map.mp h
  exact ⟨i, hi.symm⟩

theorem row_notMem_bindings (fs : RecordFields) : "row" ∉ fs.bindings := by
  intro h
  obtain ⟨i, hi⟩ := exists_binding h
  exact binding_ne (by decide) i hi.symm

end RecordFields

end RecordRows
