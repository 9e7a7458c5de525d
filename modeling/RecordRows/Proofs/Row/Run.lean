import RecordRows.Proofs.Row.Outcome

/-!
Runs over one row. Whatever steps are taken, the current cursor and all saved ones stay in the row
(`Cursor.State.within_after`), and a cursor that was saved is given back unchanged
(`Cursor.State.after_restore`). Both go into what holds after every run
(`Cursor.State.run_disciplined`).
-/
namespace RecordRows.Cursor

/-! ## Cursors of a row -/

/-- The cursor is one over the row and not beyond its last column. -/
structure Within (row : Row) (c : Cursor) : Prop where
  row_eq : c.row = row
  position_le : c.position ≤ row.length

theorem Within.remaining_eq {row : Row} {c : Cursor} (h : c.Within row) :
    c.position + c.remaining = row.length := by
  rw [remaining, h.row_eq]
  exact Nat.add_sub_cancel' h.position_le

variable {row : Row}

theorem next_of_lt {c : Cursor} (h : c.position < c.row.length) (t : ColumnType) :
    c.next t = ((t.decode c.row[c.position]).mapError (.column c.position),
      { c with position := c.position + 1 }) :=
  next_of_drop_eq_cons (List.drop_eq_getElem_cons h) t

theorem next_of_le {c : Cursor} (h : c.row.length ≤ c.position) (t : ColumnType) :
    c.next t = (.error (.exhausted c.position), c) :=
  next_of_drop_eq_nil (List.drop_eq_nil_iff.mpr h) t

/-- A read moves the cursor forward, if at all, and not out of the row. -/
theorem within_next {c : Cursor} (h : c.Within row) (t : ColumnType) :
    (c.next t).2.Within row ∧ c.position ≤ (c.next t).2.position := by
  obtain ⟨rfl, hle⟩ := h
  rcases Nat.lt_or_ge c.position c.row.length with hlt | hge
  · rw [next_of_lt hlt]
    exact ⟨⟨rfl, hlt⟩, Nat.le_succ _⟩
  · rw [next_of_le hge]
    exact ⟨⟨rfl, hle⟩, Nat.le_refl _⟩

theorem within_fields {c : Cursor} (h : c.Within row) (ts : Schema) :
    (fields ts c).2.Within row ∧ c.position ≤ (fields ts c).2.position := by
  obtain ⟨rfl, hle⟩ := h
  obtain accepted | ⟨i, e, refused⟩ := ts.accepts_or_refusesFirst (c.row.drop c.position)
  · rcases Nat.lt_or_ge c.row.length (c.position + ts.length) with short | enough
    · rw [fields_of_short accepted hle short]
      exact ⟨⟨rfl, Nat.le_refl _⟩, hle⟩
    · obtain ⟨xs, -, run⟩ := fields_of_accepts accepted enough
      rw [run]
      exact ⟨⟨rfl, enough⟩, Nat.le_add_right _ _⟩
  · have hlt := refused.lt_length
    rw [List.length_drop] at hlt
    rw [fields_of_refusesFirst refused]
    exact ⟨⟨rfl, by simp only; omega⟩, by simp only; omega⟩

namespace State

/-! ## States of a run -/

/-- The first column is next, and nothing is saved. -/
def start (row : Row) : State := ⟨{ row }, []⟩

/-- The state that steps leave behind. -/
def after (s : State) : List Step → State
  | [] => s
  | step :: steps => (s.step step).2.after steps

/-- The last answer of a run is that of its last step in the state before it. -/
theorem run_concat (s : State) (steps : List Step) (step : Step) :
    s.run (steps ++ [step]) = s.run steps ++
      [(((s.after steps).step step).1, ((s.after steps).step step).2.current)] := by
  induction steps generalizing s with
  | nil => rfl
  | cons first steps ih => exact congrArg (_ :: ·) (ih _)

/-- All cursors are ones of the row. -/
def Within (row : Row) (s : State) : Prop :=
  s.current.Within row ∧ ∀ c ∈ s.saved, c.Within row

theorem within_start (row : Row) : (start row).Within row :=
  ⟨⟨rfl, Nat.zero_le _⟩, fun _ hc => absurd hc List.not_mem_nil⟩

theorem within_step {s : State} (h : s.Within row) (step : Step) : (s.step step).2.Within row := by
  obtain ⟨hcurrent, hsaved⟩ := h
  cases step with
  | next t => exact ⟨(within_next hcurrent t).1, hsaved⟩
  | fields ts => exact ⟨(within_fields hcurrent ts).1, hsaved⟩
  | save =>
    refine ⟨hcurrent, fun c hc => ?_⟩
    rcases List.mem_cons.mp hc with rfl | hc
    · exact hcurrent
    · exact hsaved c hc
  | restore =>
    obtain ⟨current, saved⟩ := s
    cases saved with
    | nil => exact ⟨hcurrent, hsaved⟩
    | cons c rest =>
      exact ⟨hsaved c List.mem_cons_self, fun d hd => hsaved d (List.mem_cons_of_mem c hd)⟩

theorem within_after {s : State} (h : s.Within row) (steps : List Step) :
    (s.after steps).Within row := by
  induction steps generalizing s with
  | nil => exact h
  | cons step steps ih => exact ih (within_step h step)

theorem within_of_mem_run {s : State} (h : s.Within row) {steps : List Step}
    {entry : Answer × Cursor} (hentry : entry ∈ s.run steps) : entry.2.Within row := by
  induction steps generalizing s with
  | nil => cases hentry
  | cons step steps ih =>
    have hstep := within_step h step
    rcases List.mem_cons.mp hentry with rfl | hlater
    · exact hstep.1
    · exact ih hstep hlater

/-- The position goes down by no other step than by giving back a saved cursor. -/
theorem position_le_step {s : State} (h : s.Within row) {step : Step} (hstep : step ≠ .restore) :
    s.current.position ≤ (s.step step).2.current.position := by
  cases step with
  | next t => exact (within_next h.1 t).2
  | fields ts => exact (within_fields h.1 ts).2
  | save => exact Nat.le_refl _
  | restore => exact absurd rfl hstep

/-! ## Saved cursors -/

/-- The number of cursors that steps leave on the stack, where `n` are theirs already. There is none
when they give back one that was not theirs. -/
def pending : List Step → (n : Nat) → Option Nat
  | [], n => some n
  | .save :: steps, n => pending steps (n + 1)
  | .restore :: _, 0 => none
  | .restore :: steps, n + 1 => pending steps n
  | .next _ :: steps, n => pending steps n
  | .fields _ :: steps, n => pending steps n

/-- Steps that save and restore in pairs. -/
def Balanced (steps : List Step) : Prop := pending steps 0 = some 0

/-- Steps do not touch the cursors that were saved before them. -/
theorem saved_after {steps : List Step} {n k : Nat} {s : State} {own base : List Cursor}
    (hsteps : pending steps n = some k) (hn : own.length = n) (hsaved : s.saved = own ++ base) :
    ∃ left : List Cursor, left.length = k ∧ (s.after steps).saved = left ++ base := by
  -- What the steps have saved so far lies on top of `base` and shields it.
  induction steps generalizing n s own with
  | nil =>
    injection hsteps with hk
    exact ⟨own, hn.trans hk, hsaved⟩
  | cons step steps ih =>
    cases step with
    | next t => exact ih hsteps hn hsaved
    | fields ts => exact ih hsteps hn hsaved
    | save =>
      have hmore : (s.step .save).2.saved = (s.current :: own) ++ base :=
        congrArg (s.current :: ·) hsaved
      exact ih hsteps (congrArg (· + 1) hn) hmore
    | restore =>
      cases own with
      | nil =>
        subst hn
        cases hsteps
      | cons c own =>
        subst hn
        have hless : (s.step .restore).2.saved = own ++ base := by
          simp [step, hsaved]
        exact ih hsteps rfl hless

theorem step_restore {s : State} {c : Cursor} {rest : List Cursor} (h : s.saved = c :: rest) :
    s.step .restore = (.restored, ⟨c, rest⟩) := by
  simp [step, h]

/-- A saved cursor is given back as it was, with the cursors saved before it. -/
theorem after_restore (s : State) {between : List Step} (h : Balanced between) :
    (s.after (.save :: between)).step .restore = (.restored, s) := by
  have hsave : (s.step .save).2.saved = [] ++ s.current :: s.saved := rfl
  obtain ⟨left, hlength, hsaved⟩ := saved_after h List.length_nil hsave
  rw [List.eq_nil_of_length_eq_zero hlength] at hsaved
  exact step_restore hsaved

/-! ## What holds after every run -/

/-- What holds of a state over a row, and of every step from it. -/
structure Disciplined (row : Row) (s : State) : Prop where
  row_eq : s.current.row = row
  position_le : s.current.position ≤ row.length
  /-- The columns not yet read are counted without truncation. -/
  remaining_eq : s.current.position + s.current.remaining = row.length
  /-- A column is passed whether or not it converts. -/
  next_of_lt : ∀ t (h : s.current.position < row.length), s.step (.next t) =
    (.column t ((t.decode row[s.current.position]).mapError (.column s.current.position)),
      { s with current := ⟨row, s.current.position + 1⟩ })
  /-- Behind the last column nothing moves. -/
  next_of_eq : ∀ t, s.current.position = row.length → s.step (.next t) =
    (.column t (.error (.exhausted row.length)), s)
  fields_of_accepts : ∀ ts : Schema, ts.Accepts (row.drop s.current.position) →
    s.current.position + ts.length ≤ row.length → ∃ xs, s.step (.fields ts) =
      (.fields ts (.ok xs), { s with current := ⟨row, s.current.position + ts.length⟩ })
  fields_of_refusesFirst : ∀ (ts : Schema) i e,
    ts.RefusesFirst (row.drop s.current.position) i e → s.step (.fields ts) =
      (.fields ts (.error (.column (s.current.position + i) e)),
        { s with current := ⟨row, s.current.position + i + 1⟩ })
  fields_of_short : ∀ ts : Schema, ts.Accepts (row.drop s.current.position) →
    row.length < s.current.position + ts.length → s.step (.fields ts) =
      (.fields ts (.error (.exhausted row.length)), { s with current := ⟨row, row.length⟩ })
  /-- The body generated for a record moves the cursor as the run over its column types does. -/
  derived : ∀ {fs : RecordFields} {r : Generated.ReadingBody} {w : Generated.WritingBody},
    Generated.Faithful fs r w → ∀ type : Source.Phrase → ColumnType,
      (r.run (fun p => Cursor.read (type p)) fs).run.run s.current =
        let ts : Schema := fs.types.map type
        ((Cursor.fields ts s.current).1.map fun xs => some (ts.cells xs),
          (Cursor.fields ts s.current).2)
  /-- Whatever happens between saving and restoring, all is as before, also the other saved
  cursors. -/
  restores : ∀ between, Balanced between →
    (s.after (.save :: between)).step .restore = (.restored, s)
  advances : ∀ step, (s.step step).2.current.position < s.current.position → step = .restore

theorem step_next {s : State} {t : ColumnType} {r : Except RowError t.Carrier} {c : Cursor}
    (h : s.current.next t = (r, c)) : s.step (.next t) = (.column t r, { s with current := c }) := by
  simp [step, h]

theorem step_fields {s : State} {ts : Schema} {r : Except RowError ts.Fields} {c : Cursor}
    (h : Cursor.fields ts s.current = (r, c)) :
    s.step (.fields ts) = (.fields ts r, { s with current := c }) := by
  simp [step, h]

theorem disciplined_of_within {s : State} (h : s.Within row) : Disciplined row s := by
  have hcurrent := h.1
  obtain ⟨⟨full, p⟩, saved⟩ := s
  obtain ⟨rfl, hle⟩ := hcurrent
  constructor
  case row_eq => rfl
  case position_le => exact hle
  case remaining_eq => exact h.1.remaining_eq
  case next_of_lt => exact fun t hlt => step_next (Cursor.next_of_lt hlt t)
  case next_of_eq =>
    intro t hend
    have hend : p = full.length := hend
    subst hend
    exact step_next (Cursor.next_of_le (Nat.le_refl _) t)
  case fields_of_accepts =>
    intro ts accepted enough
    obtain ⟨xs, -, run⟩ := Cursor.fields_of_accepts accepted enough
    exact ⟨xs, step_fields run⟩
  case fields_of_refusesFirst =>
    exact fun ts i e refused => step_fields (Cursor.fields_of_refusesFirst refused)
  case fields_of_short =>
    exact fun ts accepted short => step_fields (Cursor.fields_of_short accepted hle short)
  case derived => exact fun faithful type => faithful.run_read type _
  case restores => exact fun between balanced => after_restore _ balanced
  case advances =>
    intro step lower
    by_contra hstep
    exact Nat.not_le.mpr lower (position_le_step h hstep)

/-- After any steps over a row the cursor is in the row, and whatever step comes next is answered
and moves the cursor as it should; this answer is the next one of the run. -/
theorem run_disciplined (row : Row) (steps : List Step) :
    (∀ entry ∈ (start row).run steps, entry.2.Within row ∧
      entry.2.position + entry.2.remaining = row.length) ∧
    (∀ step, (start row).run (steps ++ [step]) = (start row).run steps ++
      [((((start row).after steps).step step).1, (((start row).after steps).step step).2.current)]) ∧
    Disciplined row ((start row).after steps) := by
  refine ⟨fun entry hentry => ?_, fun step => run_concat _ steps step, ?_⟩
  · have hwithin := within_of_mem_run (within_start row) hentry
    exact ⟨hwithin, hwithin.remaining_eq⟩
  · exact disciplined_of_within (within_after (within_start row) steps)

end State

end RecordRows.Cursor
