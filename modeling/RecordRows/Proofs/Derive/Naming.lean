import RecordRows.Derive.Naming
import RecordRows.Proofs.Source.WordPath
import RecordRows.Proofs.Text.Words

/-!
Which naming a text selects. The words for the identity and for the case rules are reserved: a text
that is such a word never selects a function. A text is compared with them as it stands, though,
while a path is read with blanks and comments around it, so that the path of a function can be a
reserved word (`ofText?_settled`).
-/
namespace RecordRows

open Source Text

variable {value w : String} {c : Char} {cs : List Char}

/-! ## Signs in lower case -/

theorem lowerChar_of_mem_signCodes (h : c.toNat ∈ signCodes) :
    lowerChar c = [c] ∧ c.toLower = c ∧ c ≠ capitalSigma := by
  have all : ∀ n ∈ signCodes, lowerChar (Char.ofNat n) = [Char.ofNat n] ∧
      (Char.ofNat n).toLower = Char.ofNat n ∧ Char.ofNat n ≠ capitalSigma := by decide +kernel
  have one := all _ h
  rwa [Char.ofNat_toNat] at one

/-- A sign stays in lower case what and where it is. -/
theorem lowerFrom_sign (afterCased : Bool) (cs : List Char) (h : c.toNat ∈ signCodes) : ∃ more,
    lowerFrom afterCased (c :: cs) = c :: lowerFrom more cs := by
  obtain ⟨lower, -, notSigma⟩ := lowerChar_of_mem_signCodes h
  refine ⟨if caseIgnorable.contains c then afterCased else cased.contains c, ?_⟩
  have final : (decide (c = capitalSigma) && afterCased && !startsCased cs) = false := by
    simp [notSigma]
  rw [lowerFrom, final, lower]
  rfl

theorem mem_lowerFrom_of_sign (afterCased : Bool) (h : c.toNat ∈ signCodes) (member : c ∈ cs) :
    c ∈ lowerFrom afterCased cs := by
  induction cs generalizing afterCased with
  | nil => cases member
  | cons d cs ih =>
    rcases List.mem_cons.mp member with rfl | member
    · obtain ⟨more, lower⟩ := lowerFrom_sign afterCased cs h
      rw [lower]
      exact List.mem_cons_self
    · rw [lowerFrom]
      exact List.mem_append_right _ (ih _ member)

/-! ## Reserved words -/

namespace CaseRule

theorem mem_all (r : CaseRule) : r ∈ all := by cases r <;> decide

theorem spelling_injective {r r' : CaseRule} (h : r.spelling.toList = r'.spelling.toList) :
    r = r' := by
  revert h
  cases r <;> cases r' <;> decide

theorem ofName?_eq_some_iff {r : CaseRule} :
    ofName? value = some r ↔ Text.lower value.toList = r.spelling.toList := by
  have spelled {r' : CaseRule} (found : ofName? value = some r') :
      Text.lower value.toList = r'.spelling.toList := by
    unfold ofName? at found
    have test := List.find?_some found
    exact (beq_iff_eq.mp test).symm
  constructor
  · exact spelled
  · intro h
    cases found : ofName? value with
    | none =>
      have missing := List.find?_eq_none.mp found r (mem_all r)
      simp [h] at missing
    | some r' => rw [spelling_injective (h.symm.trans (spelled found))]

end CaseRule

namespace Naming

/-- A text that says the identity or a case rule, in any letter case. -/
def Reserved (value : String) : Prop :=
  value.toList.map Char.toLower = identityWord.toList ∨
    ∃ r : CaseRule, Text.lower value.toList = r.spelling.toList

theorem isIdentity_iff : isIdentity value = true ↔
    value.toList.map Char.toLower = identityWord.toList := by
  rw [isIdentity, beq_iff_eq]

/-- The word for the identity is no case rule. -/
theorem not_rule_of_identity (h : value.toList.map Char.toLower = identityWord.toList)
    (r : CaseRule) : Text.lower value.toList ≠ r.spelling.toList := by
  have ascii : IsAscii value.toList := by
    refine isAscii_of_toLower ?_
    rw [h]
    decide
  rw [lower_of_isAscii ascii, h]
  cases r <;> decide

theorem reserved_iff : Reserved value ↔
    isIdentity value = true ∨ ∃ r, CaseRule.ofName? value = some r := by
  rw [Reserved, isIdentity_iff]
  simp only [CaseRule.ofName?_eq_some_iff]

instance (value : String) : Decidable (Reserved value) :=
  decidable_of_iff (isIdentity value = true ∨ (CaseRule.ofName? value).isSome = true) (by
    rw [reserved_iff, Option.isSome_iff_exists])

/-- Reserved words have none of the signs of paths in them. -/
theorem Reserved.notMem (h : Reserved value) (sign : c = ':' ∨ c = '<') : c ∉ value.toList := by
  have code : c.toNat ∈ signCodes := by rcases sign with rfl | rfl <;> decide
  have unchanged := (lowerChar_of_mem_signCodes code).2.1
  intro member
  rcases h with identity | ⟨r, rule⟩
  · have lower : c.toLower ∈ identityWord.toList := identity ▸ List.mem_map_of_mem member
    rw [unchanged] at lower
    rcases sign with rfl | rfl <;> exact absurd lower (by decide)
  · have lower : c ∈ r.spelling.toList := rule ▸ mem_lowerFrom_of_sign false code member
    rcases sign with rfl | rfl <;> cases r <;> exact absurd lower (by decide)

/-- Reserved words start with a letter. -/
theorem Reserved.not_isBlank (h : Reserved value) (start : value.toList = c :: cs) :
    isBlank c = false := by
  by_contra blank
  have blank : isBlank c = true := by simpa using blank
  have code := mem_signCodes_of_isBlank blank
  rcases h with identity | ⟨r, rule⟩
  · rw [start, List.map_cons, (lowerChar_of_mem_signCodes code).2.1] at identity
    obtain rfl : c = 'i' := (List.cons.inj identity).1
    cases blank
  · obtain ⟨more, lower⟩ := lowerFrom_sign false cs code
    rw [start, Text.lower, lower] at rule
    have letters : CaseRule.all.all (fun r => !r.spelling.toList.head?.any isBlank) = true := by
      decide
    have letter := List.all_eq_true.mp letters r r.mem_all
    rw [← rule, List.head?_cons, Option.any_some, blank] at letter
    cases letter

/-- Reserved words are no keywords. -/
theorem Reserved.isKeyword_eq_false (h : Reserved w) : Ahead.isKeyword w = false := by
  have free : ∀ k ∈ Ahead.keywords, k.toList.map Char.toLower ≠ identityWord.toList ∧
      ∀ r ∈ CaseRule.all, Text.lower k.toList ≠ r.spelling.toList := by decide
  rw [Ahead.isKeyword, List.contains_eq_mem, decide_eq_false_iff_not]
  intro member
  obtain ⟨notIdentity, notRule⟩ := free w member
  rcases h with identity | ⟨r, rule⟩
  · exact notIdentity identity
  · exact notRule r r.mem_all rule

/-! ## Paths of functions -/

theorem readPath?_eq_some_iff {p : Phrase} : readPath? value = some p ↔
    ∃ form, Source.read (path · false) value = .ok (form, p) := by
  unfold readPath?
  split
  · next form q read => simp [read]
  · next e failed => simp [failed]

/-- A text of the kind that is read as a reserved word is scanned as it. -/
theorem readPath?_reserved_iff (h : Reserved w) :
    readPath? value = some [.word w] ↔ ∃ place, scan? value = some [⟨.word w, place⟩] := by
  rw [readPath?_eq_some_iff]
  constructor
  · rintro ⟨form, read⟩
    exact (read_path_eq_ok read).2 w rfl
  · rintro ⟨place, scanned⟩
    have identifier := isSound_scan? scanned _ (List.mem_singleton_self _)
    have admitted : ∀ v ∈ [w], IsPathWord v := by
      intro v member
      rw [List.mem_singleton.mp member]
      exact ⟨identifier, .inl h.isKeyword_eq_false⟩
    exact (applied_ofWords admitted).read_of_scan (p := Phrase.ofWords false w []) scanned rfl

/-- The characters of signs are in the printed form of a phrase. -/
theorem mem_text {p : Phrase} {joint : Bool} (h : .punct c joint ∈ p) : c ∈ p.text.toList := by
  induction p with
  | nil => cases h
  | cons l p ih =>
    cases p with
    | nil =>
      obtain rfl := List.mem_singleton.mp h
      simp [Phrase.text, Lexeme.text]
    | cons m p =>
      rw [Phrase.text]
      simp only [String.toList_append, List.mem_append]
      rcases List.mem_cons.mp h with rfl | h
      · exact .inl (.inl (by simp [Lexeme.text]))
      · exact .inr (ih h)

/-- Written back, a path is no reserved word, unless it consists of one. -/
theorem not_reserved_text {p : Phrase} (read : readPath? value = some p)
    (other : ∀ w, p = [.word w] → ¬ Reserved w) : ¬ Reserved p.text := by
  obtain ⟨form, read⟩ := readPath?_eq_some_iff.mp read
  intro reserved
  rcases (read_path_eq_ok read).1 with ⟨joint, angle⟩ | ⟨rooted, w, words, rfl, -⟩
  · exact reserved.notMem (.inr rfl) (mem_text angle)
  · have colon (h : ∃ joint, .punct ':' joint ∈ Phrase.ofWords rooted w words) : False :=
      h.elim fun _ member => reserved.notMem (.inl rfl) (mem_text member)
    cases rooted with
    | true => exact colon ⟨true, by simp [Phrase.ofWords, Phrase.operator, Phrase.operator.go]⟩
    | false =>
      cases words with
      | nil => exact other w rfl reserved
      | cons v words => exact colon ⟨true, by
          simp [Phrase.ofWords, Phrase.further, Phrase.operator, Phrase.operator.go]⟩

/-- Paths without angles, and paths with paths as arguments, are read again when they are written
back. -/
theorem readPath?_text {p : Phrase} (read : readPath? value = some p)
    (shape : ¬ p.HasAngle ∨ Applied .path p) : readPath? p.text = some p := by
  rcases shape with plain | applied
  · obtain ⟨form, read⟩ := readPath?_eq_some_iff.mp read
    rcases (read_path_eq_ok read).1 with angle | ⟨rooted, w, words, rfl, all⟩
    · exact absurd angle plain
    · exact readPath?_eq_some_iff.mpr (applied_ofWords all).read_text
  · exact readPath?_eq_some_iff.mpr applied.read_text

/-! ## Selected namings -/

theorem ofText?_identity_iff : ofText? value = some .identity ↔
    value.toList.map Char.toLower = identityWord.toList := by
  rw [← isIdentity_iff]
  unfold ofText?
  split
  · next identity => simp [identity]
  · next other =>
    cases CaseRule.ofName? value <;> simp [other]

theorem ofText?_rule_iff {r : CaseRule} : ofText? value = some (.rule r) ↔
    Text.lower value.toList = r.spelling.toList := by
  rw [← CaseRule.ofName?_eq_some_iff]
  unfold ofText?
  split
  · next identity =>
    have notRule := not_rule_of_identity (isIdentity_iff.mp identity) r
    rw [Ne, ← CaseRule.ofName?_eq_some_iff] at notRule
    simp [notRule]
  · cases CaseRule.ofName? value <;> simp

theorem ofText?_function_iff {p : Phrase} : ofText? value = some (.function p) ↔
    ¬ Reserved value ∧ readPath? value = some p := by
  rw [reserved_iff]
  unfold ofText?
  split
  · next identity => simp [identity]
  · next other =>
    cases CaseRule.ofName? value <;> simp [other]

theorem ofText?_eq_none_iff : ofText? value = none ↔ ¬ Reserved value ∧ readPath? value = none := by
  rw [reserved_iff]
  unfold ofText?
  split
  · next identity => simp [identity]
  · next other =>
    cases CaseRule.ofName? value <;> simp [other]

/-- What is no reserved word selects the function whose path is read of it. -/
theorem ofText?_of_not_reserved (free : ¬ Reserved value) :
    ofText? value = (readPath? value).map .function := by
  cases read : readPath? value with
  | none => exact ofText?_eq_none_iff.mpr ⟨free, read⟩
  | some p => exact ofText?_function_iff.mpr ⟨free, read⟩

theorem Reserved.ofText?_ne_function (h : Reserved value) (p : Phrase) :
    ofText? value ≠ some (.function p) :=
  fun function => (ofText?_function_iff.mp function).1 h

/-- A reserved word with a blank before it is none. -/
theorem not_reserved_blank (blank : isBlank c = true) : ¬ Reserved (String.ofList (c :: cs)) := by
  intro reserved
  have letter := reserved.not_isBlank String.toList_ofList
  rw [letter] at blank
  cases blank

theorem scan?_blank (identifier : IsIdentifier w) (blank : isBlank c = true) :
    ∃ place, scan? (String.ofList (c :: w.toList)) = some [⟨.word w, place⟩] := by
  have notMark : c ≠ '\ufeff' := by
    rintro rfl
    cases blank
  have unmarked : dropByteOrderMark (c :: w.toList) = c :: w.toList := by
    unfold dropByteOrderMark
    split
    · next same => exact absurd (List.cons.inj same).1 notMark
    · rfl
  have nothing : scanFrom (w.toList.length + 1) (w.toList.length + 1) [] [] = some [] := rfl
  obtain ⟨place, scanned⟩ := scanFrom_word identifier (.inl rfl) nothing
  refine ⟨place, ?_⟩
  rw [scan?, String.toList_ofList, unmarked, scanFrom_blank _ _ _ blank]
  rwa [List.append_nil] at scanned

/-- A text selects the identity or a rule when it is one of the reserved words, and otherwise the
function whose path is read of it, if there is one. The path is itself a reserved word only when
nothing but this word is scanned of a text that is not it, for instance with a blank before the
word; written back, it never selects the function. Any other path is no reserved word when it is
written back, and selects the function whose path is read of that. This is the same function if
there are no angles in the path, or all arguments in it are paths again. -/
theorem ofText?_settled (value : String) :
    (ofText? value = some .identity ↔
      value.toList.map Char.toLower = identityWord.toList) ∧
    (∀ r : CaseRule, ofText? value = some (.rule r) ↔
      Text.lower value.toList = r.spelling.toList) ∧
    (∀ p, ofText? value = some (.function p) ↔ ¬ Reserved value ∧ readPath? value = some p) ∧
    (ofText? value = none ↔ ¬ Reserved value ∧ readPath? value = none) ∧
    (∀ w, Reserved w →
      (ofText? value = some (.function [.word w]) ↔
        ¬ Reserved value ∧ ∃ place, scan? value = some [⟨.word w, place⟩]) ∧
      (IsIdentifier w → ∀ c, isBlank c = true →
        ofText? (String.ofList (c :: w.toList)) = some (.function [.word w])) ∧
      ∀ p, ofText? (Phrase.text [.word w]) ≠ some (.function p)) ∧
    ∀ p, ofText? value = some (.function p) → (∀ w, p = [.word w] → ¬ Reserved w) →
      ¬ Reserved p.text ∧ ofText? p.text = (readPath? p.text).map .function ∧
        (¬ p.HasAngle ∨ Applied .path p → ofText? p.text = some (.function p)) := by
  refine ⟨ofText?_identity_iff, fun r => ofText?_rule_iff, fun p => ofText?_function_iff,
    ofText?_eq_none_iff, fun w reserved => ⟨?_, fun identifier c blank => ?_, fun p => ?_⟩,
    fun p function other => ?_⟩
  · rw [ofText?_function_iff, readPath?_reserved_iff reserved]
  · rw [ofText?_function_iff, readPath?_reserved_iff reserved]
    exact ⟨not_reserved_blank blank, scan?_blank identifier blank⟩
  · exact reserved.ofText?_ne_function p
  · have read := (ofText?_function_iff.mp function).2
    have free := not_reserved_text read other
    exact ⟨free, ofText?_of_not_reserved free,
      fun shape => ofText?_function_iff.mpr ⟨free, readPath?_text read shape⟩⟩

/-- A path of a function with an argument in it. -/
theorem exists_applied_path : ∃ p : Phrase, Applied .path p ∧ (∀ w, p ≠ [.word w]) ∧
    p.text = "names :: Short < u8 > :: of" ∧ readPath? "names::Short<u8>::of" = some p := by
  have identifier : ∀ w ∈ ["names", "Short", "u8", "of"],
      IsIdentifier w ∧ Ahead.isKeyword w = false := by
    unfold IsIdentifier
    decide +kernel
  have word (w : String) (h : w ∈ ["names", "Short", "u8", "of"]) : Applied .word [.word w] :=
    .plain ⟨(identifier w h).1, .inl (identifier w h).2⟩
  have argument : Applied .path [.word "u8"] :=
    @Applied.path false [.word "u8"] [] (by simpa using word "u8" (by decide))
  have short := @Applied.arguments "Short" [] (some [.word "u8"]) (identifier _ (by decide)).1
    (.inl (by decide)) false (by simpa using argument) (by simp)
  have applied := @Applied.path false [.word "names"] [_, [.word "of"]] (by
    simpa using ⟨word "names" (by decide), short, word "of" (by decide)⟩)
  refine ⟨_, applied, fun w alone => ?_, by decide +kernel, by decide +kernel⟩
  exact absurd (List.cons.inj alone).2 (List.cons_ne_nil _ _)

/-- The raw form of a reserved word is the path of a function, and stays it, as does a path with an
argument. With a comment behind it a reserved word is one, too, but it selects a rule when it is
written back. -/
theorem ofText?_settled_raw :
    ofText? "r#identity" = some (.function [.word "r#identity"]) ∧
    ofText? (Phrase.text [.word "r#identity"]) = some (.function [.word "r#identity"]) ∧
    ofText? "Snake_Case // words" = some (.function [.word "Snake_Case"]) ∧
    ofText? (String.ofList ('\t' :: "Snake_Case".toList)) = some (.function [.word "Snake_Case"]) ∧
    (∀ p, ofText? (Phrase.text [.word "Snake_Case"]) ≠ some (.function p)) ∧
    ∃ p : Phrase, p.text = "names :: Short < u8 > :: of" ∧
      ofText? "names::Short<u8>::of" = some (.function p) ∧
      ofText? p.text = some (.function p) := by
  obtain ⟨-, -, function, -, -, again⟩ := ofText?_settled "r#identity"
  obtain ⟨-, -, -, -, lone, -⟩ := ofText?_settled "Snake_Case // words"
  obtain ⟨-, -, functionApplied, -, -, againApplied⟩ := ofText?_settled "names::Short<u8>::of"
  have raw := (function [.word "r#identity"]).mpr (by decide +kernel)
  have free (w : String) (same : [Lexeme.word "r#identity"] = [.word w]) : ¬ Reserved w := by
    cases same
    decide +kernel
  have plain : ¬ Phrase.HasAngle [.word "r#identity"] := by simp [Phrase.HasAngle]
  have identifier : IsIdentifier "Snake_Case" := by
    unfold IsIdentifier
    decide +kernel
  obtain ⟨commented, blank, never⟩ := lone "Snake_Case" (by decide)
  obtain ⟨p, applied, other, text, read⟩ := exists_applied_path
  have selected := (functionApplied p).mpr ⟨by decide +kernel, read⟩
  have same := (againApplied p selected fun w alone => absurd alone (other w)).2.2 (.inr applied)
  exact ⟨raw, (again _ raw free).2.2 (.inl plain),
    commented.mpr ⟨by decide +kernel, ⟨0, 10⟩, by decide +kernel⟩,
    blank identifier '\t' (by decide), never, p, text, selected, same⟩

/-- The word for the identity, with a blank before it, is the path of a function, which is not the
naming that the word itself selects. -/
theorem function_called_identity :
    ofText? " identity" = some (.function [.word "identity"]) ∧
    ofText? (Phrase.text [.word "identity"]) = some .identity := by
  have read : readPath? " identity" = some [.word "identity"] ∧ isIdentity " identity" = false ∧
      CaseRule.ofName? " identity" = none := by decide +kernel
  obtain ⟨path, other, none⟩ := read
  refine ⟨?_, ofText?_identity_iff.mpr (by decide)⟩
  unfold ofText?
  rw [other, none, path]
  rfl

end Naming

end RecordRows
