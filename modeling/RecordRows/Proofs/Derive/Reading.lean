import RecordRows.Derive.Expansion

/-!
Generated code read back from its tokens. A reader takes what it reads from the front of a phrase
and answers with the rest, so each part of an implementation is read back in front of any rest.
Types are delimited by a reader that is given from outside, since their grammar is not the
generator's.
-/
namespace RecordRows.Generated

open Source Phrase

abbrev Reader (α : Type) := Phrase → Option (α × Phrase)

variable {α : Type}

/-- What stands behind a fixed beginning. -/
def behind (start p : Phrase) : Option Phrase := start.isPrefixOf? p

@[simp] theorem behind_append (start p : Phrase) : behind start (start ++ p) = some p := by
  induction start with
  | nil => rfl
  | cons l ls ih =>
    change (if l == l then behind ls (ls ++ p) else none) = some p
    rw [if_pos (beq_self_eq_true l)]
    exact ih

/-- Reads, and keeps the tokens that are read. -/
def withTokens (r : Reader α) : Reader (α × Phrase) := fun p => do
  let (a, rest) ← r p
  return ((a, p.take (p.length - rest.length)), rest)

theorem withTokens_append {r : Reader α} {p rest : Phrase} {a : α}
    (h : r (p ++ rest) = some (a, rest)) : withTokens r (p ++ rest) = some ((a, p), rest) := by
  simp [withTokens, h]

/-! ## Names and lists -/

/-- A local name. Keywords are none. -/
def readName : Reader String
  | .word w :: p => if Ahead.isKeyword w then none else some (w, p)
  | _ => none

theorem readName_cons {w : String} (h : Ahead.isKeyword w = false) (rest : Phrase) :
    readName (.word w :: rest) = some (w, rest) := by
  simp [readName, h]

/-- Items up to the closing token of their group, with commas between them. -/
def readItems (item : Reader α) (d : Delimiter) : Nat → Reader (List α)
  | 0, _ => none
  | fuel + 1, p =>
    if p.head? = some (.closing d) then some ([], p.tail)
    else do
      let (a, p) ← item p
      match p with
      | .closing e :: rest => if e = d then some ([a], rest) else none
      | .punct ',' false :: rest =>
        let (as, rest) ← readItems item d fuel rest
        return (a :: as, rest)
      | _ => none

/-- A group with a list in it. -/
def readList (item : Reader α) (d : Delimiter) : Reader (List α)
  | .opening e :: p => if e = d then readItems item d p.length p else none
  | _ => none

/-- A printed item that its reader reads back, and that does not look like the end of a list. -/
structure Readable (item : Reader α) (d : Delimiter) (print : α → Phrase) (a : α) : Prop where
  reads : ∀ rest, item (print a ++ rest) = some (a, rest)
  nonempty : print a ≠ []
  isItem : (print a).head? ≠ some (.closing d)

theorem Readable.head? {item : Reader α} {d : Delimiter} {print : α → Phrase} {a : α}
    (h : Readable item d print a) (rest : Phrase) :
    (print a ++ rest).head? ≠ some (.closing d) := by
  have nonempty := h.nonempty
  have isItem := h.isItem
  cases hp : print a with
  | nil => exact absurd hp nonempty
  | cons l ls => simpa [hp] using isItem

theorem readItems_separated {item : Reader α} {d : Delimiter} {print : α → Phrase} (rest : Phrase) :
    ∀ (as : List α) (fuel : Nat), (∀ a ∈ as, Readable item d print a) → as.length < fuel →
      readItems item d fuel (separated (operator ",") (as.map print) ++ .closing d :: rest)
        = some (as, rest) := by
  intro as
  induction as with
  | nil =>
    intro fuel _ enough
    cases fuel with
    | zero => exact absurd enough (Nat.not_lt_zero _)
    | succ fuel =>
      simp [readItems, separated]
  | cons a as ih =>
    intro fuel readable enough
    cases fuel with
    | zero => exact absurd enough (Nat.not_lt_zero _)
    | succ fuel =>
      have first := readable a (by simp)
      have more := ih fuel (fun b hb => readable b (by simp [hb])) (by simpa using enough)
      cases as with
      | nil =>
        simp only [List.map_cons, List.map_nil, separated]
        rw [readItems, if_neg (first.head? _), first.reads]
        simp
      | cons b bs =>
        simp only [List.map_cons, separated, List.append_assoc] at more ⊢
        rw [readItems, if_neg (first.head? _), first.reads]
        have comma : operator "," = [.punct ',' false] := rfl
        simp only [comma, List.cons_append, List.nil_append] at more ⊢
        simp [more]

theorem length_le_length_separated (separator : Phrase) :
    ∀ ps : List Phrase, (∀ p ∈ ps, p ≠ []) → ps.length ≤ (separated separator ps).length := by
  intro ps
  induction ps with
  | nil => simp [separated]
  | cons p ps ih =>
    intro nonempty
    have first : 0 < p.length := List.length_pos_iff.mpr (nonempty p (by simp))
    have more := ih fun q hq => nonempty q (by simp [hq])
    cases ps with
    | nil =>
      simp [separated]
      omega
    | cons q qs =>
      simp only [separated, List.length_append, List.length_cons] at more ⊢
      omega

theorem readList_grouped {item : Reader α} {d : Delimiter} {print : α → Phrase} {as : List α}
    (readable : ∀ a ∈ as, Readable item d print a) (rest : Phrase) :
    readList item d (grouped d (separated (operator ",") (as.map print)) ++ rest)
      = some (as, rest) := by
  have fits := length_le_length_separated (operator ",") (as.map print) (by
    intro p hp
    obtain ⟨a, ha, rfl⟩ := List.mem_map.mp hp
    exact (readable a ha).nonempty)
  simp only [grouped, readList, List.cons_append, List.append_assoc, List.nil_append, if_true]
  apply readItems_separated rest as _ readable
  simp at fits ⊢
  omega

end RecordRows.Generated
