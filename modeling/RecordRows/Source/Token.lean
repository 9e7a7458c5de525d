/-!
Tokens of the declaration language. Groups are kept flat: an opening token, the content, and the
matching closing one. A phrase is a list of tokens without places, and has one printed form.
-/
namespace RecordRows.Source

inductive Delimiter where
  | paren | bracket | brace
deriving DecidableEq, Repr

def Delimiter.opening : Delimiter → Char
  | .paren => '('
  | .bracket => '['
  | .brace => '\x7b'

def Delimiter.closing : Delimiter → Char
  | .paren => ')'
  | .bracket => ']'
  | .brace => '\x7d'

/-- A token without its place. Words are identifiers and keywords, raw ones with their mark; a
punctuation character is joint when the next token continues its operator. -/
inductive Lexeme where
  | word (text : String)
  | punct (c : Char) (joint : Bool)
  | literal (text : String)
  | opening (d : Delimiter)
  | closing (d : Delimiter)
deriving DecidableEq, Repr

abbrev Phrase := List Lexeme

/-- A stretch of the source, counted in characters. -/
structure Span where
  start : Nat
  stop : Nat
deriving DecidableEq, Repr

structure Token where
  lexeme : Lexeme
  span : Span
deriving DecidableEq, Repr

namespace Lexeme

def text : Lexeme → String
  | .word t => t
  | .punct c _ => String.singleton c
  | .literal t => t
  | .opening d => String.singleton d.opening
  | .closing d => String.singleton d.closing

/-- Whether the next token follows without a blank: after a joint character, and inside round and
square brackets next to them. -/
def abuts : Lexeme → Lexeme → Bool
  | .punct _ true, _ => true
  | .opening .paren, _ | .opening .bracket, _ => true
  | _, .closing .paren | _, .closing .bracket => true
  | _, _ => false

end Lexeme

namespace Phrase

def text : Phrase → String
  | [] => ""
  | [l] => l.text
  | l :: m :: rest => l.text ++ (if l.abuts m then "" else " ") ++ text (m :: rest)

/-- A sequence of punctuation characters that form one operator. -/
def operator (s : String) : Phrase :=
  let rec go : List Char → Phrase
    | [] => []
    | [c] => [.punct c false]
    | c :: cs => .punct c true :: go cs
  go s.toList

def grouped (d : Delimiter) (content : Phrase) : Phrase := .opening d :: content ++ [.closing d]

/-- Splits a text at its blanks; `piece` is the piece read so far, the last character first. -/
def pieces (piece : List Char) : List Char → List (List Char)
  | [] => if piece.isEmpty then [] else [piece.reverse]
  | ' ' :: cs => if piece.isEmpty then pieces [] cs else piece.reverse :: pieces [] cs
  | c :: cs => pieces (c :: piece) cs

/-- The lexemes of a piece: a lifetime, a word, a number or an operator. -/
def ofPiece : List Char → Phrase
  | '\'' :: cs => [.punct '\'' true, .word (String.ofList cs)]
  | [] => []
  | c :: cs =>
    if c.isAlpha || c == '_' then [.word (String.ofList (c :: cs))]
    else if c.isDigit then [.literal (String.ofList (c :: cs))]
    else operator (String.ofList (c :: cs))

/-- The phrase that a text spells with a blank between its units. Groups cannot be spelled. -/
def spelled (text : String) : Phrase := (pieces [] text.toList).flatMap ofPiece

/-- Parts with a separator between neighbours. -/
def separated (separator : Phrase) : List Phrase → Phrase
  | [] => []
  | [p] => p
  | p :: ps => p ++ separator ++ separated separator ps

end Phrase

namespace Span

/-- The stretch of `source` that a span covers. -/
def slice (s : Span) (source : String) : String :=
  String.ofList ((source.toList.drop s.start).take (s.stop - s.start))

/-- From the start of the first token to the end of the last one. -/
def ofTokens? (ts : List Token) : Option Span := do
  return ⟨(← ts.head?).span.start, (← ts.getLast?).span.stop⟩

end Span

end RecordRows.Source
