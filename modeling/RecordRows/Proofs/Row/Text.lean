import RecordRows.Proofs.Json.Reading
import RecordRows.Row.Json

/-!
Rows there and back through their JSON text. A row without floats is found again from its text, and
the text that is written for it is the only one that is written for what it reads as
(`text_survives`). A float without a numeral makes the whole row unreadable.
-/
namespace RecordRows

open Binary

/-! ## Lists of elements -/

theorem mapM_map_eq_some {α β : Type} {f : β → Option α} {g : α → β} {xs : List α}
    (h : ∀ x ∈ xs, f (g x) = some x) : (xs.map g).mapM f = some xs := by
  induction xs with
  | nil => rfl
  | cons x xs ih =>
    rw [List.map_cons, List.mapM_cons, h x (by simp), ih fun y hy => h y (by simp [hy])]
    rfl

theorem mapM_eq_none {α β : Type} {f : α → Option β} {xs : List α} {x : α} (member : x ∈ xs)
    (h : f x = none) : xs.mapM f = none := by
  induction xs with
  | nil => cases member
  | cons y ys ih =>
    rw [List.mapM_cons]
    rcases List.mem_cons.mp member with rfl | member
    · rw [h]
      rfl
    · rw [ih member]
      cases f y <;> rfl

/-! ## Big integers -/

namespace BigDigits

theorem toNat_ofNat (n : Nat) : toNat (ofNat n) = n := by
  induction n using Nat.strongRecOn with
  | ind n ih =>
    rw [ofNat]
    split
    · next zero => exact zero.symm
    · next positive =>
      have rest := ih (n / base) (Nat.div_lt_self (Nat.pos_of_ne_zero positive) (by decide))
      rw [toNat, List.foldr_cons, ← toNat, rest, Nat.mod_add_div]

theorem lt_base_of_mem_ofNat {n d : Nat} (h : d ∈ ofNat n) : d < base := by
  induction n using Nat.strongRecOn with
  | ind n ih =>
    rw [ofNat] at h
    split at h
    · cases h
    · next positive =>
      rcases List.mem_cons.mp h with rfl | h
      · exact Nat.mod_lt n (by decide)
      · exact ih (n / base) (Nat.div_lt_self (Nat.pos_of_ne_zero positive) (by decide)) h

end BigDigits

/-! ## Contents -/

namespace Json

open Numeral

theorem toInt?_number (n : Int) : (Json.number (.ofInt n)).toInt? = some n := by
  rw [Json.toInt?, toInt?_ofInt]
  by_cases negative : n < 0
  · have nonzero : (some n == some 0) = false := by simp; omega
    rw [nonzero, Bool.and_false]
    rfl
  · have positive : (ofInt n).negative = false := by simp [ofInt, negative]
    rw [positive]
    rfl

theorem toNatBelow?_ofNat {bound n : Nat} (h : n < bound) :
    (ofNat n).toNatBelow? bound = some n := by
  rw [toNatBelow?, ofNat, toInt?_number]
  simp
  omega

theorem toBytes?_array (bs : List UInt8) :
    (Json.array (bs.map fun b => ofNat b.toNat)).toBytes? = some bs := by
  refine mapM_map_eq_some fun b _ => ?_
  rw [toNatBelow?_ofNat b.toNat_lt, Option.map_some, UInt8.ofNat_toNat]

theorem toBigInt?_ofBigInt (n : Int) : (ofBigInt n).toBigInt? = some n := by
  have digits : ((BigDigits.ofNat n.natAbs).map ofNat).mapM (toNatBelow? BigDigits.base)
      = some (BigDigits.ofNat n.natAbs) :=
    mapM_map_eq_some fun d hd => toNatBelow?_ofNat (BigDigits.lt_base_of_mem_ofNat hd)
  have sign : n.sign = -1 ∨ n.sign = 0 ∨ n.sign = 1 := by
    rcases Int.sign_trichotomy n with h | h | h <;> simp [h]
  rw [ofBigInt, toBigInt?, toInt?_number]
  simp only [Option.bind_eq_bind, Option.bind_some, if_pos sign, digits, BigDigits.toNat_ofNat,
    Int.sign_mul_natAbs]

theorem wellFormed_integer (n : Int) : (Json.number (.ofInt n)).WellFormed :=
  wellFormed_number (wellFormed_ofInt n)

theorem wellFormed_integers (ns : List Nat) : (Json.array (ns.map ofNat)).WellFormed := by
  refine wellFormed_array fun j hj => ?_
  obtain ⟨n, -, rfl⟩ := List.mem_map.mp hj
  exact wellFormed_integer n

/-- A big integer given by a sign and digits. -/
def digitForm (sign : Int) (digits : List Nat) : Json :=
  .object [(Value.Kind.bigInt.tag.toList, .array [.number (.ofInt sign), .array (digits.map ofNat)])]

theorem wellFormed_digitForm (sign : Int) (digits : List Nat) :
    (digitForm sign digits).WellFormed := by
  refine wellFormed_member (wellFormed_array fun j hj => ?_)
  simp only [List.mem_cons, List.not_mem_nil, or_false] at hj
  rcases hj with rfl | rfl
  · exact wellFormed_integer sign
  · exact wellFormed_integers digits

end Json

/-! ## Values -/

namespace Value

theorem ofTag?_tag (k : Kind) : Kind.ofTag? k.tag.toList = some k := by
  cases k <;> decide

theorem ofJson?_object (k : Kind) (content : Json) :
    ofJson? (.object [(k.tag.toList, content)]) = ofContent? k content := by
  rw [ofJson?, ofTag?_tag]
  rfl

theorem ofJson?_toJson {v : Value} (h : v.kind ≠ .float) : ofJson? v.toJson = some v := by
  cases v with
  | null =>
    rw [toJson, ofJson?, ofTag?_tag]
    rfl
  | bool b =>
    exact ofJson?_object .bool _
  | int n =>
    refine (ofJson?_object .int _).trans ?_
    have held : Bounded.ofInt? .i64 n.val = some n := by
      rw [Bounded.ofInt?, dif_pos ⟨n.least_le, n.le_greatest⟩]
    rw [ofContent?, Json.toInt?_number, Option.bind_some, held, Option.map_some]
  | float x => exact absurd rfl h
  | text s =>
    refine (ofJson?_object .text _).trans ?_
    rw [ofContent?, String.ofList_toList]
  | bytes bs =>
    refine (ofJson?_object .bytes _).trans ?_
    rw [ofContent?, Json.toBytes?_array, Option.map_some]
  | bigInt n =>
    refine (ofJson?_object .bigInt _).trans ?_
    rw [ofContent?, Json.toBigInt?_ofBigInt, Option.map_some]

theorem ofJson?_toJson_of_not_isFinite {x : Binary64} (h : x.isFinite = false) :
    ofJson? (Value.float x).toJson = none := by
  refine (ofJson?_object .float _).trans ?_
  have unwritten : floatLayout.numeral? x = none := by
    rw [Layout.numeral?]
    rw [Binary64.isFinite] at h
    cases hx : x.read <;> simp_all [Reading.isFinite]
  rw [unwritten]
  rfl

theorem wellFormed_toJson (v : Value) : v.toJson.WellFormed := by
  have unnumbered : ∀ j : Json, j.numbers = [] → j.WellFormed := by
    intro j h n hn
    rw [h] at hn
    cases hn
  cases v with
  | null => exact unnumbered _ rfl
  | bool b => exact unnumbered _ rfl
  | int n => exact Json.wellFormed_member (Json.wellFormed_integer n.val)
  | float x =>
    refine Json.wellFormed_member ?_
    cases hx : floatLayout.numeral? x with
    | none => exact unnumbered _ rfl
    | some n => exact Json.wellFormed_number (wellFormed_numeral? hx)
  | text s => exact unnumbered _ rfl
  | bytes bs =>
    refine Json.wellFormed_member ?_
    have list : (bs.map fun b => Json.ofNat b.toNat) = (bs.map UInt8.toNat).map Json.ofNat := by
      rw [List.map_map]
      rfl
    rw [list]
    exact Json.wellFormed_integers _
  | bigInt n => exact Json.wellFormed_digitForm n.sign _

end Value

/-! ## Rows -/

namespace Row

/-- The text of a row. -/
def text (row : Row) : String := (toJson row).text

/-- The row that a text holds. -/
def ofText? (s : String) : Option Row := (Json.parse? s).bind ofJson?

/-- A text in the form in which it is written after it was read. -/
def rewritten? (s : String) : Option String := (ofText? s).map text

def FloatFree (row : Row) : Prop := ∀ v ∈ row, v.kind ≠ .float

theorem parse?_text (row : Row) : Json.parse? (text row) = some (toJson row) := by
  refine Json.parse?_text (Json.wellFormed_array fun j hj => ?_)
  obtain ⟨v, -, rfl⟩ := List.mem_map.mp hj
  exact v.wellFormed_toJson

theorem ofText?_text {row : Row} (h : FloatFree row) : ofText? (text row) = some row := by
  rw [ofText?, parse?_text, Option.bind_some, toJson, ofJson?]
  exact mapM_map_eq_some fun v hv => Value.ofJson?_toJson (h v hv)

theorem ofText?_text_of_not_isFinite {row : Row} {x : Binary64} (member : .float x ∈ row)
    (h : x.isFinite = false) : ofText? (text row) = none := by
  rw [ofText?, parse?_text, Option.bind_some, toJson, ofJson?]
  exact mapM_eq_none (List.mem_map_of_mem member) (Value.ofJson?_toJson_of_not_isFinite h)

/-- A row without floats is found again from its text. A text that holds such a row is rewritten to
one that holds the same row and is not rewritten any more, and two of them hold the same row exactly
if they are rewritten to the same text. A row with a float that is not finite is written as a text
that holds no row. -/
theorem text_survives (row : Row) :
    (FloatFree row → ofText? (text row) = some row) ∧
    (∀ s, ofText? s = some row → FloatFree row →
      rewritten? s = some (text row) ∧ ofText? (text row) = some row ∧
        rewritten? (text row) = some (text row) ∧
        ∀ s' row', ofText? s' = some row' → FloatFree row' →
          (rewritten? s = rewritten? s' ↔ row = row')) ∧
    ∀ x, .float x ∈ row → x.isFinite = false →
      Json.parse? (text row) = some (toJson row) ∧ ofText? (text row) = none := by
  refine ⟨ofText?_text, fun s read free => ?_, fun x member infinite => ?_⟩
  · have again := ofText?_text free
    have rewritten : rewritten? s = some (text row) := by rw [rewritten?, read, Option.map_some]
    have settled : rewritten? (text row) = some (text row) := by
      rw [rewritten?, again, Option.map_some]
    refine ⟨rewritten, again, settled, fun s' row' read' free' => ?_⟩
    have rewritten' : rewritten? s' = some (text row') := by
      rw [rewritten?, read', Option.map_some]
    rw [rewritten, rewritten', Option.some_inj]
    constructor
    · intro same
      have again' := ofText?_text free'
      rw [← same, again] at again'
      exact Option.some_inj.mp again'
    · rintro rfl
      rfl
  · exact ⟨parse?_text row, ofText?_text_of_not_isFinite member infinite⟩

def looseRow : Row := [.null, .text "a\"\u0007", .bigInt (-4294967296), .bytes [0, 255]]

/-- A text with blanks, with the long form of a missing value, with a character that is escaped in
vain and with a redundant digit. -/
def looseText : String :=
  "[ \x7b\"Null\":null\x7d, \x7b\"Text\":\"\\u0061\\\"\\u0007\"\x7d, "
    ++ "\x7b\"BigInt\":[-1,[0,1,0]]\x7d,\x7b\"Bytes\":[0,255]\x7d ]"

/-- A row with a float that has no text. -/
def unreadableRow : Row := [.null, .float .nan]

theorem text_survives_of_loose_text :
    ofText? looseText = some looseRow ∧ FloatFree looseRow
      ∧ rewritten? looseText = some (text looseRow) ∧ ofText? (text looseRow) = some looseRow
      ∧ Binary64.nan.isFinite = false ∧ .float .nan ∈ unreadableRow
      ∧ ofText? (text unreadableRow) = none := by
  have read : ofText? looseText = some looseRow := by decide +kernel
  have free : FloatFree looseRow := by simp [FloatFree, looseRow, Value.kind]
  have infinite : Binary64.nan.isFinite = false := by decide
  have member : .float .nan ∈ unreadableRow := List.mem_cons_of_mem _ (List.mem_singleton_self _)
  obtain ⟨survives, rewrites, -⟩ := text_survives looseRow
  obtain ⟨-, -, fails⟩ := text_survives unreadableRow
  exact ⟨read, free, (rewrites looseText read free).1, survives free, infinite, member,
    (fails .nan member infinite).2⟩

end Row

end RecordRows
