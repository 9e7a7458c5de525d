import RecordRows.Derive.CaseRule
import RecordRows.Proofs.Text.Words

/-!
Case rules on ASCII names. All rules that rewrite words see the same words of a name, so each result
can be told from the pieces of the title (`convert_pieces`). A rule that puts separators between the
words keeps them apart, so another rule behind it finds the words of the name again
(`convert_absorbed`).
-/
namespace RecordRows

open Text

/-! ## Words in another letter case -/

/-- A change of letter case that leaves words what they are. Every letter case of the result is that
of the word. -/
structure Recases (f : List Char → List Char) : Prop where
  lower : ∀ w, IsAscii w → lower (f w) = lower w
  upper : ∀ w, IsAscii w → upper (f w) = upper w
  capital : ∀ w, IsAscii w → capital (f w) = capital w
  ascii : ∀ w, IsAscii w → IsAscii (f w)
  word : ∀ w, IsAscii w → IsWord w → IsWord (f w)
  empty : ∀ w, IsAscii w → f w = [] → w = []

/-- A change of the first character and one of all others make a change of words. -/
theorem recases_of_cons {f : List Char → List Char} {g h : Char → Char} (hg : KeepsKind g)
    (hh : KeepsKind h) (nil : f [] = [])
    (cons : ∀ a w, IsAscii (a :: w) → f (a :: w) = g a :: w.map h)
    (word : ∀ w, IsAscii w → IsWord w → IsWord (f w)) : Recases f := by
  have ascii : ∀ w, IsAscii w → IsAscii (f w) := by
    intro w hw
    cases w with
    | nil => rwa [nil]
    | cons a w =>
      obtain ⟨ha, more⟩ := isAscii_cons.mp hw
      rw [cons a w hw]
      exact isAscii_cons.mpr ⟨hg.ascii a ha, more.map hh.ascii⟩
  -- what a character becomes in the end does not depend on what it was in between
  have through {k : Char → Char} (kg : ∀ c : Char, c.toNat < 128 → k (g c) = k c)
      (kh : ∀ c : Char, c.toNat < 128 → k (h c) = k c) :
      ∀ w, IsAscii w → (f w).map k = w.map k := by
    intro w hw
    cases w with
    | nil => rw [nil]
    | cons a w =>
      obtain ⟨ha, more⟩ := isAscii_cons.mp hw
      rw [cons a w hw, List.map_cons, List.map_map, List.map_cons, kg a ha]
      exact congrArg _ (List.map_congr_left fun c hc => kh c (more c hc))
  constructor
  · intro w hw
    rw [lower_of_isAscii (ascii w hw), lower_of_isAscii hw]
    exact through hg.toLower hh.toLower w hw
  · intro w hw
    rw [upper_of_isAscii (ascii w hw), upper_of_isAscii hw]
    exact through hg.toUpper hh.toUpper w hw
  · intro w hw
    cases w with
    | nil => rw [nil]
    | cons a w =>
      obtain ⟨ha, more⟩ := isAscii_cons.mp hw
      have result := ascii _ hw
      rw [cons a w hw] at result ⊢
      rw [capital_cons_of_isAscii result, capital_cons_of_isAscii hw, hg.toUpper a ha, List.map_map]
      exact congrArg _ (List.map_congr_left fun c hc => hh.toLower c (more c hc))
  · exact ascii
  · exact word
  · intro w hw empty
    cases w with
    | nil => rfl
    | cons a w =>
      rw [cons a w hw] at empty
      cases empty

theorem recases_lower : Recases lower :=
  recases_of_cons keepsKind_toLower keepsKind_toLower rfl
    (fun _ _ h => by rw [lower_of_isAscii h, List.map_cons]) fun _ h word => word.lower h

theorem recases_upper : Recases upper :=
  recases_of_cons keepsKind_toUpper keepsKind_toUpper rfl
    (fun _ _ h => by rw [upper_of_isAscii h, List.map_cons]) fun _ h word => word.upper h

theorem recases_capital : Recases capital :=
  recases_of_cons keepsKind_toUpper keepsKind_toLower rfl
    (fun _ _ h => capital_cons_of_isAscii h) fun _ h word => word.capital h

/-- Words that have been rewritten and joined are found again. -/
theorem Recases.words_delimited {f : List Char → List Char} (hf : Recases f) {s : Char}
    (separates : isSeparator [s] = true) {name : List Char} (ascii : IsAscii name) :
    words (CaseRule.delimited [s] f name) = (words name).map f := by
  obtain ⟨only, spec⟩ := words_spec ascii
  refine words_joinWith separates ?_ ?_ ?_
  · intro same
    obtain ⟨w, rest, split, empty, nothing⟩ := List.map_eq_cons_iff.mp same
    rw [List.map_eq_nil_iff] at nothing
    have small := (spec w (split ▸ List.mem_cons_self)).1
    rw [nothing, hf.empty w small empty] at split
    exact only split
  · intro v hv
    obtain ⟨w, hw, rfl⟩ := List.mem_map.mp hv
    exact hf.ascii w (spec w hw).1
  · intro v hv
    obtain ⟨w, hw, rfl⟩ := List.mem_map.mp hv
    exact hf.word w (spec w hw).1 (spec w hw).2

namespace CaseRule

/-! ## Rules that absorb others -/

/-- The rules that rewrite words. -/
def wordwise : List CaseRule :=
  [.snake, .camel, .pascal, .screamingSnake, .kebab, .title, .train, .cobol]

/-- The rules that put separators between words. -/
def delimiting : List CaseRule := [.snake, .screamingSnake, .kebab, .title, .train, .cobol]

/-- Rules that rewrite words do not see in which letter case the words are. -/
theorem convertChars_congr {r : CaseRule} (hr : r ∈ wordwise) {f : List Char → List Char}
    (hf : Recases f) {name other : List Char} (ascii : ∀ w ∈ words name, IsAscii w)
    (same : words other = (words name).map f) : r.convertChars other = r.convertChars name := by
  have rewritten {g : List Char → List Char} (hg : ∀ w, IsAscii w → g (f w) = g w)
      (separator : List Char) : delimited separator g other = delimited separator g name := by
    rw [delimited, delimited, same, List.map_map]
    exact congrArg _ (List.map_congr_left fun w hw => hg w (ascii w hw))
  simp only [wordwise, List.mem_cons, List.not_mem_nil, or_false] at hr
  rcases hr with rfl | rfl | rfl | rfl | rfl | rfl | rfl | rfl
  · exact rewritten hf.lower _
  · rw [convertChars, convertChars, same]
    generalize words name = ws at ascii
    cases ws with
    | nil => rfl
    | cons w ws =>
      obtain ⟨hw, hws⟩ := List.forall_mem_cons.mp ascii
      have others : (ws.map f).map capital = ws.map capital := by
        rw [List.map_map]
        exact List.map_congr_left fun v hv => hf.capital v (hws v hv)
      simp only [List.map_cons, hf.lower w hw, others]
  · exact rewritten hf.capital _
  · exact rewritten hf.upper _
  · exact rewritten hf.lower _
  · exact rewritten hf.capital _
  · exact rewritten hf.capital _
  · exact rewritten hf.upper _

/-- What a rule with separators does. -/
theorem exists_delimited {s : CaseRule} (hs : s ∈ delimiting) : ∃ (c : Char)
    (f : List Char → List Char), isSeparator [c] = true ∧ Recases f ∧
      ∀ name, s.convertChars name = delimited [c] f name := by
  simp only [delimiting, List.mem_cons, List.not_mem_nil, or_false] at hs
  rcases hs with rfl | rfl | rfl | rfl | rfl | rfl
  · exact ⟨'_', Text.lower, by decide, recases_lower, fun _ => rfl⟩
  · exact ⟨'_', Text.upper, by decide, recases_upper, fun _ => rfl⟩
  · exact ⟨'-', Text.lower, by decide, recases_lower, fun _ => rfl⟩
  · exact ⟨' ', capital, by decide, recases_capital, fun _ => rfl⟩
  · exact ⟨'-', capital, by decide, recases_capital, fun _ => rfl⟩
  · exact ⟨'-', Text.upper, by decide, recases_upper, fun _ => rfl⟩

/-- Renaming an ASCII name with separators changes nothing for a rule that rewrites words. In
particular the rules with separators are idempotent. -/
theorem convert_absorbed {name : String} (ascii : IsAscii name.toList) :
    (∀ r ∈ wordwise, ∀ s ∈ delimiting, r.convert (s.convert name) = r.convert name) ∧
      ∀ s ∈ delimiting, s.convert (s.convert name) = s.convert name := by
  have absorbed : ∀ r ∈ wordwise, ∀ s ∈ delimiting,
      r.convert (s.convert name) = r.convert name := by
    intro r hr s hs
    obtain ⟨c, f, separates, hf, converted⟩ := exists_delimited hs
    have again := hf.words_delimited separates ascii
    rw [← converted] at again
    have same := convertChars_congr hr hf (fun w hw => ((words_spec ascii).2 w hw).1) again
    rw [convert, convert, convert, String.toList_ofList, same]
  refine ⟨absorbed, fun s hs => absorbed s ?_ s hs⟩
  have among : ∀ s ∈ delimiting, s ∈ wordwise := by decide
  exact among s hs

theorem convert_absorbed_acronym : IsAscii "__XMLHttp2Request-id ".toList ∧
    snake.convert (title.convert "__XMLHttp2Request-id ") = "__xml_http_2_request_id_" ∧
    cobol.convert (cobol.convert "__XMLHttp2Request-id ") = "--XML-HTTP-2-REQUEST-ID-" := by
  have ascii : IsAscii "__XMLHttp2Request-id ".toList := by decide
  obtain ⟨absorbed, idempotent⟩ := convert_absorbed ascii
  refine ⟨ascii, ?_, ?_⟩
  · rw [absorbed .snake (by decide) .title (by decide)]
    decide +kernel
  · rw [idempotent .cobol (by decide)]
    decide +kernel

/-! ## One list of words -/

/-- What all rules do to a name, told by pieces that are free of separators. -/
structure Shares (name : String) (pieces : List (List Char)) : Prop where
  train : train.convert name = String.ofList (['-'].intercalate pieces)
  pascal : pascal.convert name = String.ofList pieces.flatten
  camel : camel.convert name = String.ofList (pieces.modifyHead (·.map Char.toLower)).flatten
  snake : snake.convert name = String.ofList (['_'].intercalate (pieces.map (·.map Char.toLower)))
  kebab : kebab.convert name = String.ofList (['-'].intercalate (pieces.map (·.map Char.toLower)))
  screamingSnake : screamingSnake.convert name =
    String.ofList (['_'].intercalate (pieces.map (·.map Char.toUpper)))
  cobol : cobol.convert name = String.ofList (['-'].intercalate (pieces.map (·.map Char.toUpper)))
  clean : ∀ p ∈ pieces, ' ' ∉ p ∧ '_' ∉ p ∧ '-' ∉ p

theorem joinWith_eq_intercalate (separator : List Char) (ws : List (List Char)) :
    joinWith separator ws = separator.intercalate ws := by
  induction ws with
  | nil => rfl
  | cons w ws ih =>
    cases ws with
    | nil => simp [joinWith]
    | cons v ws => rw [joinWith_cons_cons, List.intercalate_cons_cons, ih]

theorem joinWith_nil (ws : List (List Char)) : joinWith [] ws = ws.flatten := by
  induction ws with
  | nil => rfl
  | cons w ws ih =>
    cases ws with
    | nil => simp [joinWith]
    | cons v ws => rw [joinWith_cons_cons, List.append_nil, ih, List.flatten_cons (l := w)]

/-- Splitting the title at its blanks gives its words, of which there is always one. -/
theorem splitOn_title {name : List Char} (ascii : IsAscii name) :
    (title.convertChars name).splitOn ' ' =
      if words name = [] then [[]] else (words name).map capital := by
  have spec := (words_spec ascii).2
  rw [convertChars, delimited, joinWith_eq_intercalate]
  split
  · next none => simp [none]
  · next some =>
    refine List.splitOn_intercalate ' ' (fun p hp => ?_) (by simpa using some)
    obtain ⟨w, hw, rfl⟩ := List.mem_map.mp hp
    intro blank
    have word := recases_capital.word w (spec w hw).1 (spec w hw).2
    exact absurd (word.isSeparator_eq _ blank) (by decide)

/-- A word without separators, as a piece of the title. -/
theorem clean_capital {w : List Char} (ascii : IsAscii w) (word : IsWord w) :
    ' ' ∉ capital w ∧ '_' ∉ capital w ∧ '-' ∉ capital w := by
  have inside := (recases_capital.word w ascii word).isSeparator_eq
  refine ⟨fun h => ?_, fun h => ?_, fun h => ?_⟩
  all_goals exact absurd (inside _ h) (by decide)

/-- The results of all rules on an ASCII name are put together from the pieces of its title. -/
theorem convert_pieces {name : String} (ascii : IsAscii name.toList) :
    Shares name ((title.convert name).toList.splitOn ' ') := by
  have spec := (words_spec ascii).2
  have pieces := splitOn_title ascii
  rw [convert, String.toList_ofList, pieces]
  by_cases none : words name.toList = []
  · rw [if_pos none]
    constructor <;> simp [convert, convertChars, delimited, none, joinWith]
  rw [if_neg none]
  -- letter by letter, a piece in lower or upper case is the word in lower or upper case
  have lowered : ((words name.toList).map capital).map (·.map Char.toLower) =
      (words name.toList).map Text.lower := by
    rw [List.map_map]
    refine List.map_congr_left fun w hw => ?_
    have small := (spec w hw).1
    rw [Function.comp_apply, ← lower_of_isAscii (recases_capital.ascii w small),
      recases_capital.lower w small]
  have raised : ((words name.toList).map capital).map (·.map Char.toUpper) =
      (words name.toList).map Text.upper := by
    rw [List.map_map]
    refine List.map_congr_left fun w hw => ?_
    have small := (spec w hw).1
    rw [Function.comp_apply, ← upper_of_isAscii (recases_capital.ascii w small),
      recases_capital.upper w small]
  constructor
  · rw [convert, convertChars, delimited, joinWith_eq_intercalate]
  · rw [convert, convertChars, delimited, joinWith_nil]
  · rw [convert, convertChars]
    generalize words name.toList = ws at lowered none
    cases ws with
    | nil => exact absurd rfl none
    | cons w ws =>
      rw [List.map_cons, List.map_cons, List.map_cons, List.cons.injEq] at lowered
      rw [List.map_cons, List.modifyHead_cons, List.flatten_cons, lowered.1]
      simp only [joinWith_nil]
  · rw [convert, convertChars, delimited, joinWith_eq_intercalate, lowered]
  · rw [convert, convertChars, delimited, joinWith_eq_intercalate, lowered]
  · rw [convert, convertChars, delimited, joinWith_eq_intercalate, raised]
  · rw [convert, convertChars, delimited, joinWith_eq_intercalate, raised]
  · intro p hp
    obtain ⟨w, hw, rfl⟩ := List.mem_map.mp hp
    exact clean_capital (spec w hw).1 (spec w hw).2

theorem convert_pieces_acronym : IsAscii "parseHTTPUrl_v2".toList ∧
    camel.convert "parseHTTPUrl_v2" = "parseHttpUrlV2" ∧
    cobol.convert "parseHTTPUrl_v2" = "PARSE-HTTP-URL-V-2" := by
  have ascii : IsAscii "parseHTTPUrl_v2".toList := by decide
  have shares := convert_pieces ascii
  have title : title.convert "parseHTTPUrl_v2" = "Parse Http Url V 2" := by decide +kernel
  rw [title] at shares
  refine ⟨ascii, ?_, ?_⟩
  · rw [shares.camel]
    decide
  · rw [shares.cobol]
    decide

end CaseRule

end RecordRows
