import RecordRows.Derive.Naming
import RecordRows.Proofs.Text.LiteralGrammar

/-!
The literals in generated code from which a record and its columns get their names. Whatever
characters a name has, its literal denotes that name and no other: the converted name where the
conversion is known beforehand, and the declared one where a function is called with it
(`Naming.expression_denotes`).
-/
namespace RecordRows

open Source Phrase Text

/-! ## Scanning -/

/-- A written literal is one token in front of a closing parenthesis. -/
theorem readLeaf_textLiteral (s : String) (rest : List Char) :
    readLeaf ((textLiteral s).text.toList ++ ')' :: rest) = some (textLiteral s, ')' :: rest) := by
  obtain ⟨ps, read, -⟩ := readBody_escapeAll s.toList (')' :: rest)
  have starts : startsIdentifier ')' = false := by decide +kernel
  have suffix : dropSuffix (')' :: rest) = ')' :: rest := by
    rw [dropSuffix, readName, starts]
    rfl
  have body : skipQuoted (quote s.toList ++ ')' :: rest) = some (')' :: rest) := by
    rw [quote, List.cons_append, List.cons_append, List.append_assoc, List.singleton_append,
      skipQuoted, read, Option.map_some]
  have skipped : skipLiteral (quote s.toList ++ ')' :: rest) = some (')' :: rest) := by
    rw [skipLiteral, body, Option.map_some, suffix]
    rfl
  rw [textLiteral, Lexeme.text, String.toList_ofList, readLeaf, skipped]
  simp only [List.length_append, Nat.add_sub_cancel, List.take_left']

/-- A literal for a text: by the grammar it denotes the text and nothing else, it is read as the
text, and in front of a closing parenthesis it is scanned again as the literal that it is. -/
structure IsLiteralOf (literal s : String) : Prop where
  denotes : ∀ t, Denotes literal.toList t ↔ t = s.toList
  content : stringContent? literal = some s
  scanned : ∀ rest,
    readLeaf (literal.toList ++ ')' :: rest) = some (.literal literal, ')' :: rest)

/-- The text of a literal for a text. -/
theorem isLiteralOf_textLiteral (s : String) : IsLiteralOf (textLiteral s).text s where
  denotes t := by
    rw [textLiteral, Lexeme.text, String.toList_ofList]
    exact denotes_quote_iff
  content := by
    rw [textLiteral, Lexeme.text, stringContent?, String.toList_ofList, unquote?_quote,
      Option.map_some, String.ofList_toList]
  scanned := readLeaf_textLiteral s

/-! ## Names -/

namespace Naming

variable {n : Naming} {name s : String}

theorem convert?_eq_none_iff : n.convert? name = none ↔ ∃ path, n = .function path := by
  cases n <;> simp [convert?]

/-- A name whose conversion is known is embedded in its converted form. -/
theorem phrase_of_convert? (h : n.convert? name = some s) :
    (n.expression name).phrase = spelled ":: std :: string :: String :: from"
      ++ grouped .paren [textLiteral s] := by
  cases n with
  | identity =>
    cases h
    rfl
  | rule r =>
    cases h
    rfl
  | function path => cases h

/-- The expression for a name holds one literal apart from the path of a function: it denotes the
converted name where the naming is no function, and otherwise the name that the function is called
with. -/
theorem expression_denotes (n : Naming) (name : String) :
    (∀ s, n.convert? name = some s → ∃ literal,
      (n.expression name).phrase = spelled ":: std :: string :: String :: from"
        ++ grouped .paren [.literal literal] ∧ IsLiteralOf literal s) ∧
    (∀ path, n = .function path → ∃ literal,
      (n.expression name).phrase = spelled ":: std :: string :: String :: from"
        ++ grouped .paren (path ++ grouped .paren [.literal literal]) ∧ IsLiteralOf literal name) ∧
    (n.convert? name = none ↔ ∃ path, n = .function path) := by
  refine ⟨fun s known => ?_, fun path function => ?_, convert?_eq_none_iff⟩
  · exact ⟨_, phrase_of_convert? known, isLiteralOf_textLiteral s⟩
  · subst function
    exact ⟨_, rfl, isLiteralOf_textLiteral name⟩

/-- A name with a quote, a backslash, a NUL before a digit, a combining mark, an invisible
character and a line end. -/
def awkwardName : String := "a\"\\\x007e\u0301\u200b\n"

/-- Its literal, with the escapes that those characters need. -/
def awkwardLiteral : String := "\"a\\\"\\\\\\x007e\\u\x7b301\x7d\\u\x7b200b\x7d\\n\""

theorem expression_denotes_awkward :
    (Naming.identity.expression awkwardName).phrase
        = spelled ":: std :: string :: String :: from"
          ++ grouped .paren [.literal awkwardLiteral] ∧
      IsLiteralOf awkwardLiteral awkwardName ∧
      ∃ literal, ((Naming.function [.word "f"]).expression awkwardName).phrase
        = spelled ":: std :: string :: String :: from"
          ++ grouped .paren ([.word "f"] ++ grouped .paren [.literal literal]) ∧
        IsLiteralOf literal awkwardName := by
  have literal : textLiteral awkwardName = .literal awkwardLiteral := by decide +kernel
  have phrase : (Naming.identity.expression awkwardName).phrase
      = spelled ":: std :: string :: String :: from"
        ++ grouped .paren [.literal awkwardLiteral] := by
    rw [← literal]
    rfl
  obtain ⟨constant, -, -⟩ := expression_denotes .identity awkwardName
  obtain ⟨-, applied, -⟩ := expression_denotes (.function [.word "f"]) awkwardName
  obtain ⟨found, same, denotes⟩ := constant awkwardName rfl
  have unique : found = awkwardLiteral := by
    rw [phrase] at same
    simpa [grouped] using same.symm
  exact ⟨phrase, unique ▸ denotes, applied _ rfl⟩

end Naming

end RecordRows
