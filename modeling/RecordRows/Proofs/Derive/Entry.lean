import Mathlib.Data.Multiset.Filter
import RecordRows.Derive.Options

/-!
The entries of entity attributes, one by one. What an entry says does not depend on where it stands:
its key, and a value of some form. From that it is known what the entry sets or how many problems it
is reported with (`reports_settingFor`), and the reports of several add up (`Reports.settle_cons`).
-/
namespace RecordRows

open Source

/-! ## Reports -/

/-- Problems that are found in the entries themselves. An unresolved type of identifiers and a shape
or a name that does not fit are found later. -/
def ProblemCause.OfEntry : ProblemCause → Prop
  | .refusal (.unresolvedFunction _) => True
  | .refusal _ => False
  | _ => True

section
variable {α β ι : Type} {n k : Nat}

/-- A result that is as expected and without problems, or that is as many problems as counted. -/
def Reports (n : Nat) (good : α → Prop) (r : Except (List Problem) α) : Prop :=
  (n = 0 ∧ ∃ a, r = .ok a ∧ good a) ∨
    0 < n ∧ ∃ ps : List Problem, r = .error ps ∧ ps.length = n ∧ ∀ p ∈ ps, p.cause.OfEntry

theorem reports_ok {good : α → Prop} {a : α} (h : good a) : Reports 0 good (.ok a) :=
  .inl ⟨rfl, a, rfl, h⟩

theorem reports_problem {good : α → Prop} {p : Problem} (h : p.cause.OfEntry) :
    Reports 1 good (.error [p]) :=
  .inr ⟨Nat.one_pos, [p], rfl, rfl, by simpa using h⟩

theorem Reports.map {good : α → Prop} {good' : β → Prop} {f : α → β}
    {r : Except (List Problem) α} (h : Reports n good r) (keeps : ∀ a, good a → good' (f a)) :
    Reports n good' (r.map f) := by
  obtain ⟨rfl, a, rfl, ha⟩ | ⟨positive, ps, rfl, count, entry⟩ := h
  · exact reports_ok (keeps a ha)
  · exact .inr ⟨positive, ps, rfl, count, entry⟩

theorem Reports.mono {good good' : α → Prop} {r : Except (List Problem) α}
    (h : Reports n good r) (keeps : ∀ a, good a → good' a) : Reports n good' r := by
  obtain ⟨rfl, a, rfl, ha⟩ | failed := h
  · exact reports_ok (keeps a ha)
  · exact .inr failed

/-- A result in front is kept when all others are. -/
theorem settle_ok_cons (a : α) (rs : List (Except (List Problem) α)) :
    settle (.ok a :: rs) = (settle rs).map (a :: ·) := by
  simp only [settle, List.flatMap_cons, List.nil_append]
  split <;> rfl

/-- Problems in front are reported before those of all others. -/
theorem settle_error_cons {ps : List Problem} (nonempty : ps ≠ [])
    (rs : List (Except (List Problem) α)) :
    settle (.error ps :: rs) = match settle rs with
      | .ok _ => .error ps
      | .error qs => .error (ps ++ qs) := by
  simp only [settle, List.flatMap_cons]
  generalize rs.flatMap _ = qs
  cases qs <;> simp [nonempty]

/-- The reports of several results add up. -/
theorem Reports.settle_cons {good : ι → α → Prop} {x : ι} {xs : List ι}
    {r : Except (List Problem) α} {rs : List (Except (List Problem) α)} (h : Reports n (good x) r)
    (hs : Reports k (List.Forall₂ good xs) (settle rs)) :
    Reports (n + k) (List.Forall₂ good (x :: xs)) (settle (r :: rs)) := by
  obtain ⟨rfl, a, rfl, ha⟩ | ⟨positive, ps, rfl, rfl, entry⟩ := h
  · rw [settle_ok_cons, Nat.zero_add]
    exact hs.map fun as has => .cons ha has
  · rw [settle_error_cons (List.length_pos_iff.mp positive)]
    obtain ⟨rfl, as, hrs, -⟩ | ⟨-, qs, hrs, rfl, entries⟩ := hs
    · rw [hrs]
      exact .inr ⟨positive, ps, rfl, rfl, entry⟩
    · rw [hrs]
      refine .inr ⟨by omega, ps ++ qs, rfl, List.length_append, fun p hp => ?_⟩
      rcases List.mem_append.mp hp with hp | hp
      · exact entry p hp
      · exact entries p hp

end

/-! ## What entries say -/

/-- What is said of an item's value. Of a list in it only the bare words count, in any order; an
entry that is no bare word counts as none. -/
inductive SaidValue where
  | none
  | form (f : ExpressionForm)
  | words (ws : Multiset (Option (List String)))
  | unreadable
deriving DecidableEq

inductive Saying where
  | literal
  | item (key : String) (value : SaidValue)
deriving DecidableEq

def Source.ListEntry.words? : ListEntry → Option (List String)
  | .item m =>
    match m.argument with
    | .none => some m.words
    | _ => none
  | .literal _ => none

def Source.MetaItem.said (m : MetaItem) : SaidValue :=
  match m.argument with
  | .none => .none
  | .value form _ => .form form
  | .list content =>
    match readEntries content with
    | .ok entries => .words (entries.map ListEntry.words?)
    | .error _ => .unreadable

def Source.ListEntry.saying : ListEntry → Saying
  | .literal _ => .literal
  | .item m => .item m.key m.said

/-- The capability that a bare word names. -/
def capabilityOf? : Option (List String) → Option Capability
  | some [w] => Capability.ofName? w
  | _ => none

namespace SaidValue

def string? : SaidValue → Option String
  | .form (.literal text) => stringContent? text
  | _ => Option.none

def naming? (v : SaidValue) : Option Naming := v.string?.bind Naming.ofText?

/-- A bare identifier, or a text that holds one and has no suffix. -/
def name? : SaidValue → Option String
  | .form (.path (some w)) => some w
  | .form (.literal text) =>
    if nameValue.hasSuffix text then Option.none else (stringContent? text).bind readIdentifier?
  | _ => Option.none

def type? (v : SaidValue) : Option Phrase := v.string?.bind EntityOptions.readType?

/-- How many words of a list name no capability. -/
def strangers (ws : Multiset (Option (List String))) : Nat :=
  (ws.filter fun w => capabilityOf? w = Option.none).card

/-- The capabilities of a list whose words all name one. -/
def capabilities? : SaidValue → Option Capabilities
  | .words ws =>
    if strangers ws = 0 then some ⟨fun c => decide (some [c.name] ∈ ws)⟩ else Option.none
  | _ => Option.none

/-- The number of problems with a value for a key. -/
def problems (v : SaidValue) : OptionKey → Nat
  | .tableNaming | .columnNaming => if v.naming?.isSome then 0 else 1
  | .idType => if v.string?.isSome then 0 else 1
  | .idName => if v.name?.isSome then 0 else 1
  | .idDerive =>
    match v with
    | .words ws => strangers ws
    | _ => 1

end SaidValue

/-! ## Values -/

/-- A setting is what a value says for a key. -/
def Setting.Says (v : SaidValue) : OptionKey → Setting → Prop
  | .tableNaming, .tableNaming n | .columnNaming, .columnNaming n => v.naming? = some n
  | .idType, .idType raw _ => v.string? = some raw
  | .idName, .idName name => v.name? = some name
  | .idDerive, .idDerive cs => v.capabilities? = some (.ofList cs)
  | _, _ => False

/-- A result that is known beforehand, or a single problem where none is known. -/
def Answers {α β : Type} (x? : Option β) (view : α → β) (r : Except (List Problem) α) : Prop :=
  (∃ a, r = .ok a ∧ x? = some (view a)) ∨
    x? = none ∧ ∃ p : Problem, r = .error [p] ∧ p.cause.OfEntry

section
variable {α α' β β' : Type} {x? : Option β} {view : α → β} {r : Except (List Problem) α}

theorem answers_ok {a : α} (h : x? = some (view a)) : Answers x? view (.ok a) :=
  .inl ⟨a, rfl, h⟩

theorem answers_problemAt {cause : ProblemCause} {place? : Option Span} (unknown : x? = none)
    (entry : cause.OfEntry) : Answers x? view (problemAt place? cause) :=
  .inr ⟨unknown, _, rfl, entry⟩

theorem Answers.bind {y? : Option β'} {view' : α' → β'} {k : α → Except (List Problem) α'}
    (h : Answers x? view r) (known : ∀ a, x? = some (view a) → Answers y? view' (k a))
    (unknown : x? = none → y? = none) : Answers y? view' (r >>= k) := by
  obtain ⟨a, rfl, view⟩ | ⟨missing, p, rfl, entry⟩ := h
  · exact known a view
  · exact .inr ⟨unknown missing, p, rfl, entry⟩

theorem Answers.reports (h : Answers x? view r) :
    Reports (if x?.isSome then 0 else 1) (fun a => x? = some (view a)) r := by
  obtain ⟨a, rfl, known⟩ | ⟨unknown, p, rfl, entry⟩ := h
  · rw [known]
    exact reports_ok rfl
  · rw [unknown]
    exact reports_problem entry

end

/-- A list that cannot be read is one problem. -/
theorem problem_of_readEntries {content : List Token} {ps : List Problem}
    (h : readEntries content = .error ps) : ∃ p : Problem, ps = [p] ∧ p.cause.OfEntry := by
  unfold readEntries at h
  split at h
  · cases h
  · cases h
    exact ⟨_, rfl, by trivial⟩

theorem answers_textValue (m : MetaItem) : Answers m.said.string? (·.1) (textValue m) := by
  cases h : m.argument with
  | none =>
    simp only [textValue, MetaItem.said, h]
    exact answers_problemAt rfl (by trivial)
  | list content =>
    simp only [textValue, MetaItem.said, h]
    cases hr : readEntries content with
    | ok entries => exact answers_problemAt rfl (by trivial)
    | error ps =>
      obtain ⟨p, rfl, entry⟩ := problem_of_readEntries hr
      exact .inr ⟨rfl, p, rfl, entry⟩
  | value form place? =>
    simp only [textValue, MetaItem.said, h]
    cases form with
    | literal text =>
      simp only [SaidValue.string?]
      cases hc : stringContent? text with
      | none => exact answers_problemAt rfl (by trivial)
      | some s => exact answers_ok rfl
    | _ => exact answers_problemAt rfl (by trivial)

theorem answers_namingValue (m : MetaItem) : Answers m.said.naming? id (namingValue m) := by
  unfold namingValue
  refine (answers_textValue m).bind ?_ ?_
  · rintro ⟨raw, place?⟩ said
    rw [SaidValue.naming?, said, Option.bind_some]
    dsimp only
    cases hn : Naming.ofText? raw with
    | none => exact answers_problemAt rfl (by trivial)
    | some n => exact answers_ok rfl
  · intro unknown
    rw [SaidValue.naming?, unknown, Option.bind_none]

theorem answers_nameValue (m : MetaItem) : Answers m.said.name? id (nameValue m) := by
  unfold nameValue
  split
  · next w place? h =>
    have said : m.said = .form (.path (some w)) := by simp only [MetaItem.said, h]
    rw [said]
    exact answers_ok rfl
  · next text place? h =>
    have said : m.said = .form (.literal text) := by simp only [MetaItem.said, h]
    have told := answers_textValue m
    rw [said] at told ⊢
    refine told.bind ?_ ?_
    · rintro ⟨raw, _⟩ content
      have content : stringContent? text = some raw := content
      simp only [SaidValue.name?, content, Option.bind_some]
      cases nameValue.hasSuffix text with
      | true => exact answers_problemAt rfl (by trivial)
      | false =>
        simp only [Bool.false_eq_true, if_false]
        cases hi : readIdentifier? raw with
        | none => exact answers_problemAt rfl (by trivial)
        | some name => exact answers_ok rfl
    · intro unknown
      have unknown : stringContent? text = none := unknown
      simp [SaidValue.name?, unknown]
  · next noPath noText =>
    -- what is neither a word nor a literal is refused as a text is, with the same problem
    obtain ⟨unnamed, untold⟩ : m.said.name? = none ∧ m.said.string? = none := by
      unfold MetaItem.said
      cases h : m.argument with
      | none => exact ⟨rfl, rfl⟩
      | list content => dsimp only; cases readEntries content <;> exact ⟨rfl, rfl⟩
      | value form place? =>
        cases form with
        | literal text => exact (noText text place? h).elim
        | path w? =>
          cases w? with
          | none => exact ⟨rfl, rfl⟩
          | some w => exact (noPath w place? h).elim
        | _ => exact ⟨rfl, rfl⟩
    obtain ⟨_, _, told⟩ | ⟨-, p, h, entry⟩ := answers_textValue m
    · rw [untold] at told
      cases told
    · rw [h]
      exact .inr ⟨unnamed, p, rfl, entry⟩

theorem answers_capabilityEntry (e : ListEntry) :
    Answers (capabilityOf? e.words?) id (capabilityEntry e) := by
  cases e with
  | literal place? => exact answers_problemAt rfl (by trivial)
  | item m =>
    cases h : m.argument with
    | none =>
      rcases hw : m.words with _ | ⟨w, _ | ⟨w', ws⟩⟩
      · simp only [capabilityEntry, ListEntry.words?, h, hw]
        exact answers_problemAt rfl (by trivial)
      · simp only [capabilityEntry, ListEntry.words?, h, hw, capabilityOf?]
        cases hc : Capability.ofName? w with
        | none => exact answers_problemAt rfl (by trivial)
        | some c => exact answers_ok rfl
      · simp only [capabilityEntry, ListEntry.words?, h, hw]
        exact answers_problemAt rfl (by trivial)
    | _ =>
      simp only [capabilityEntry, ListEntry.words?, h]
      exact answers_problemAt rfl (by trivial)

@[simp] theorem capabilityOf?_name (c : Capability) : capabilityOf? (some [c.name]) = some c := by
  cases c <;> decide

theorem eq_name_of_capabilityOf? {w? : Option (List String)} {c : Capability}
    (h : capabilityOf? w? = some c) : w? = some [c.name] := by
  unfold capabilityOf? at h
  split at h
  · next w =>
    have name : c.name = w := by simpa using List.find?_some h
    rw [name]
  · cases h

theorem SaidValue.strangers_cons (w? : Option (List String))
    (ws : Multiset (Option (List String))) :
    strangers (w? ::ₘ ws) = (if (capabilityOf? w?).isSome then 0 else 1) + strangers ws := by
  rw [strangers, strangers, Multiset.filter_cons]
  cases capabilityOf? w? <;> simp [Nat.add_comm]

/-- The problems of a list are its strangers. -/
theorem reports_capabilityEntries (es : List ListEntry) :
    Reports (SaidValue.strangers (es.map ListEntry.words?))
      (List.Forall₂ (fun e c => capabilityOf? e.words? = some c) es)
      (settle (es.map capabilityEntry)) := by
  induction es with
  | nil => exact reports_ok .nil
  | cons e es ih =>
    rw [List.map_cons, List.map_cons, ← Multiset.cons_coe, SaidValue.strangers_cons]
    exact (answers_capabilityEntry e).reports.settle_cons ih

/-- Words that name capabilities are read as those. -/
theorem capabilities?_names (cs : List Capability) :
    (SaidValue.words ↑(cs.map fun c => some [c.name])).capabilities? = some (.ofList cs) := by
  have known : SaidValue.strangers ↑(cs.map fun c => some [c.name]) = 0 := by
    simp [SaidValue.strangers]
  have same (c : Capability) : some [c.name] ∈ (cs.map fun c => some [c.name]) ↔ c ∈ cs := by
    constructor
    · intro h
      obtain ⟨c', member, e⟩ := List.mem_map.mp h
      have e : some c' = some c := by rw [← capabilityOf?_name c', e, capabilityOf?_name]
      exact Option.some.inj e ▸ member
    · exact fun h => List.mem_map.mpr ⟨c, h, rfl⟩
  simp only [SaidValue.capabilities?, known, if_true, Multiset.mem_coe, same, Capabilities.ofList]
  congr
  funext c
  simp

theorem reports_capabilitiesValue (m : MetaItem) :
    Reports (m.said.problems .idDerive) (fun cs => m.said.capabilities? = some (.ofList cs))
      (capabilitiesValue m) := by
  cases h : m.argument with
  | list content =>
    simp only [capabilitiesValue, MetaItem.said, h]
    cases hr : readEntries content with
    | error ps =>
      obtain ⟨p, rfl, entry⟩ := problem_of_readEntries hr
      exact reports_problem entry
    | ok es =>
      refine (reports_capabilityEntries es).mono fun cs named => ?_
      have names : es.map ListEntry.words? = cs.map fun c => some [c.name] := by
        rw [← List.forall₂_eq_eq_eq, List.forall₂_map_left_iff, List.forall₂_map_right_iff]
        exact named.imp fun e c h => eq_name_of_capabilityOf? h
      dsimp only
      rw [names, capabilities?_names]
  | none =>
    simp only [capabilitiesValue, textValue, MetaItem.said, h]
    exact reports_problem (by trivial)
  | value form place? =>
    simp only [capabilitiesValue, MetaItem.said, h]
    obtain ⟨told, read, -⟩ | ⟨-, p, read, entry⟩ := answers_textValue m
    · rw [read]
      exact reports_problem (by trivial)
    · rw [read]
      exact reports_problem entry

/-- What an item says for a key decides what it sets, or how many problems it is reported with. -/
theorem reports_settingFor (m : MetaItem) (k : OptionKey) :
    Reports (m.said.problems k) (Setting.Says m.said k) (settingFor m k) := by
  cases k with
  | columnNaming => exact (answers_namingValue m).reports.map fun _ h => h
  | tableNaming => exact (answers_namingValue m).reports.map fun _ h => h
  | idDerive => exact (reports_capabilitiesValue m).map fun _ h => h
  | idName => exact (answers_nameValue m).reports.map fun _ h => h
  | idType => exact (answers_textValue m).reports.map fun _ h => h

end RecordRows
