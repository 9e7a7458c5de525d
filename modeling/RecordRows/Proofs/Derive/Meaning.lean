import RecordRows.Proofs.Derive.Body

/-!
What the bodies of the row implementations do. Statements are evaluated from top to bottom in a
scope where a later name hides an earlier one, and a record is put together and taken apart by
member or by position. The bodies of any shape read and write its declared fields in order.
-/
namespace RecordRows.Generated

open Source

/-! ## Evaluation -/

/-- What a local name stands for. -/
inductive Slot (V : Type) where
  | cursor
  | column (v : V)

/-- The names in scope, the latest first. -/
abbrev Scope (V : Type) := List (String × Slot V)

def Scope.column? {V : Type} (scope : Scope V) (x : String) : Option V :=
  match scope.lookup x with
  | some (.column v) => some v
  | _ => none

/-- The part of a member, which is found whether it is spelled raw or not, and the other parts. -/
def takePart (m : String) : List (String × String) → Option (String × List (String × String))
  | [] => none
  | (k, x) :: ps =>
    if Name.plainText k = m then some (x, ps)
    else (takePart m ps).map fun (y, rest) => (y, (k, x) :: rest)

/-- The parts in the order of the members: one for each of them, and no other. -/
def arrange : List String → List (String × String) → Option (List String)
  | [], ps => if ps.isEmpty then some [] else none
  | m :: ms, ps => do
    let (x, rest) ← takePart m ps
    let xs ← arrange ms rest
    return x :: xs

/-- The local names in the order of the declared fields. -/
def Parts.locals : Parts → RecordFields → Option (List String)
  | .byName ps, .named fields => arrange (fields.map (·.name.plain)) ps
  | .byPosition xs, .positional types => if xs.length = types.length then some xs else none
  | _, _ => none

section
variable {m : Type → Type} [Monad m] {V W : Type}

/-- Statements from top to bottom, where `next` reads a column at a type. There is no result when
a column is taken from a name that is not the cursor. -/
def evaluate (next : Phrase → m V) : List Statement → Scope V → m (Option (Scope V))
  | [], scope => return some scope
  | s :: ss, scope =>
    match scope.lookup s.cursor with
    | some .cursor => do
      let v ← next s.type
      evaluate next ss ((s.binding, .column v) :: scope)
    | _ => return none

/-- The parts of the record that a body reads, in the order of the declared fields. There are none
when a name in it does not stand for what it is used as. -/
def ReadingBody.run (b : ReadingBody) (next : Phrase → m V) (fs : RecordFields) :
    m (Option (List V)) := do
  match ← evaluate next b.statements [(b.parameter, .cursor)] with
  | none => return none
  | some scope => return (b.result.locals fs).bind (·.mapM scope.column?)

/-- The row that a body writes for a record, given by its parts in the order of the declared fields.
A pattern must not bind a name twice. -/
def WritingBody.run (b : WritingBody) (encode : V → W) (fs : RecordFields) (record : List V) :
    Option (List W) := do
  let xs ← b.pattern.locals fs
  if xs.Nodup ∧ xs.length = record.length then
    b.outputs.mapM fun x => ((xs.zip record).lookup x).map encode
  else none

end

/-! ## Scopes -/

section
variable {α β : Type}

theorem lookup_eq_some_of_mem {x : String} {b : β} :
    ∀ {ps : List (String × β)}, (ps.map Prod.fst).Nodup → (x, b) ∈ ps → ps.lookup x = some b := by
  intro ps
  induction ps with
  | nil =>
    intro _ h
    cases h
  | cons p ps ih =>
    intro nodup h
    obtain ⟨y, c⟩ := p
    rw [List.map_cons, List.nodup_cons] at nodup
    rcases List.mem_cons.mp h with same | later
    · cases same
      exact List.lookup_cons_self
    · have different : x ≠ y := by
        rintro rfl
        exact nodup.1 (List.mem_map.mpr ⟨_, later, rfl⟩)
      rw [List.lookup_cons, beq_eq_false_iff_ne.mpr different]
      exact ih nodup.2 later

theorem mapM_eq_some_of_zip {f : α → Option β} :
    ∀ {xs : List α} {ys : List β}, xs.length = ys.length →
      (∀ p ∈ xs.zip ys, f p.1 = some p.2) → xs.mapM f = some ys := by
  intro xs
  induction xs with
  | nil =>
    intro ys same _
    cases ys with
    | nil => rfl
    | cons y ys => simp at same
  | cons x xs ih =>
    intro ys same h
    cases ys with
    | nil => simp at same
    | cons y ys =>
      have first := h (x, y) (by simp)
      have more := ih (by simpa using same) fun p hp => h p (by simp [hp])
      simp [List.mapM_cons, first, more]

/-- Only results of the right length matter behind a traversal. -/
theorem map_mapM_congr {m : Type → Type} [Monad m] [LawfulMonad m] {V W : Type} {next : α → m V} :
    ∀ {ts : List α} {f g : List V → W}, (∀ vs, vs.length = ts.length → f vs = g vs) →
      f <$> ts.mapM next = g <$> ts.mapM next := by
  intro ts
  induction ts with
  | nil =>
    intro f g same
    simp [same [] rfl]
  | cons t ts ih =>
    intro f g same
    simp only [List.mapM_cons, map_bind, map_pure]
    apply bind_congr
    intro v
    have more := ih (f := fun vs => f (v :: vs)) (g := fun vs => g (v :: vs)) fun vs h =>
      same (v :: vs) (by simp [h])
    simpa only [map_eq_pure_bind] using more

end

/-! ## Bodies of a shape -/

theorem arrange_zip : ∀ {ms xs : List String}, ms.length = xs.length →
    arrange (ms.map Name.plainText) (ms.zip xs) = some xs := by
  intro ms
  induction ms with
  | nil =>
    intro xs same
    cases xs with
    | nil => rfl
    | cons x xs => simp at same
  | cons k ms ih =>
    intro xs same
    cases xs with
    | nil => simp at same
    | cons x xs =>
      have more : arrange (ms.map Name.plainText) (ms.zip xs) = some xs := ih (by simpa using same)
      simp [arrange, takePart, more]

/-- Every field is found under its own local name. -/
theorem locals_parts (fs : RecordFields) : (parts fs).locals fs = some fs.bindings := by
  cases fs with
  | named fields =>
    have plain : fields.map (·.name.plain) = (fields.map (·.name.text)).map Name.plainText := by
      rw [List.map_map]
      rfl
    rw [parts, Parts.locals, plain]
    apply arrange_zip
    simp [RecordFields.bindings, RecordFields.types]
  | positional types =>
    rw [parts, Parts.locals, if_pos]
    exact RecordFields.length_bindings _

/-- As long as no statement hides the cursor, each reads the next column and adds its own name. -/
theorem evaluate_zip {m : Type → Type} [Monad m] [LawfulMonad m] {V : Type} (next : Phrase → m V)
    {cursor : String} :
    ∀ {xs : List String} {ts : List Phrase} (scope : Scope V), xs.length = ts.length →
      cursor ∉ xs → scope.lookup cursor = some .cursor →
      evaluate next ((xs.zip ts).map fun (x, t) => ⟨x, cursor, t⟩) scope
        = (fun vs => some ((xs.zip (vs.map .column)).reverse ++ scope)) <$> ts.mapM next := by
  intro xs
  induction xs with
  | nil =>
    intro ts scope same _ _
    cases ts with
    | nil => simp [evaluate]
    | cons t ts => simp at same
  | cons x xs ih =>
    intro ts scope same hidden found
    cases ts with
    | nil => simp at same
    | cons t ts =>
      rw [List.mem_cons, not_or] at hidden
      -- The new name differs from the cursor's, so the cursor is still found behind it.
      have still (v : V) : List.lookup cursor ((x, Slot.column v) :: scope) = some .cursor := by
        rw [List.lookup_cons, beq_eq_false_iff_ne.mpr hidden.1]
        exact found
      have more (v : V) := ih _ (by simpa using same) hidden.2 (still v)
      simp [evaluate, found, more]

/-- A column that was read is found under its local name, in whatever order the names came. -/
theorem mapM_column? {V : Type} {xs : List String} {vs : List V} {scope : Scope V}
    (nodup : xs.Nodup) (same : xs.length = vs.length) :
    xs.mapM (Scope.column? ((xs.zip (vs.map .column)).reverse ++ scope)) = some vs := by
  apply mapM_eq_some_of_zip same
  rintro ⟨x, v⟩ h
  have keys : ((xs.zip (vs.map Slot.column)).reverse.map Prod.fst).Nodup := by
    rw [List.map_reverse, List.map_fst_zip (by simp [same]), List.nodup_reverse]
    exact nodup
  have found : (x, Slot.column v) ∈ (xs.zip (vs.map Slot.column)).reverse := by
    rw [List.mem_reverse, List.zip_map_right]
    exact List.mem_map.mpr ⟨(x, v), h, rfl⟩
  simp only [Scope.column?, List.lookup_append, lookup_eq_some_of_mem keys found, Option.some_or]

theorem run_reading {m : Type → Type} [Monad m] [LawfulMonad m] {V : Type} (next : Phrase → m V)
    (fs : RecordFields) : (reading fs).run next fs = some <$> fs.types.mapM next := by
  have evaluated := evaluate_zip next [("row", .cursor)] fs.length_bindings
    fs.row_notMem_bindings rfl
  simp only [ReadingBody.run, reading, evaluated, locals_parts, Option.bind_some, bind_map_left]
  rw [bind_pure_comp]
  -- The names are only found again when there is a column for each of them.
  apply map_mapM_congr
  intro vs length
  exact mapM_column? fs.nodup_bindings (fs.length_bindings.trans length.symm)

theorem run_writing {V W : Type} (encode : V → W) {fs : RecordFields} {record : List V}
    (length : record.length = fs.types.length) :
    (writing fs).run encode fs record = some (record.map encode) := by
  have same : fs.bindings.length = record.length := fs.length_bindings.trans length.symm
  simp only [WritingBody.run, writing, locals_parts, Option.bind_eq_bind, Option.bind_some,
    if_pos (And.intro fs.nodup_bindings same)]
  apply mapM_eq_some_of_zip (by simpa using same)
  rintro ⟨x, w⟩ h
  rw [List.zip_map_right] at h
  obtain ⟨⟨y, v⟩, hp, hq⟩ := List.mem_map.mp h
  cases hq
  have keys : ((fs.bindings.zip record).map Prod.fst).Nodup := by
    rw [List.map_fst_zip (Nat.le_of_eq same)]
    exact fs.nodup_bindings
  change Option.map encode (List.lookup y (fs.bindings.zip record)) = some (encode v)
  rw [lookup_eq_some_of_mem keys hp, Option.map_some]

end RecordRows.Generated
