import RecordRows.Source.Token
import RecordRows.Text.IdentifierTable
import RecordRows.Text.StringLiteral

/-!
Scanning source text into tokens. Blanks and comments separate tokens; documentation comments stand
for the attributes they abbreviate. Each reader answers what follows the token it recognises.
-/
namespace RecordRows.Source

open Text

def startsIdentifier (c : Char) : Bool := c == '_' || identifierStart.contains c

/-- Blanks are the white space of Unicode and the two direction marks. -/
def isBlank (c : Char) : Bool :=
  let n := c.toNat
  n == 0x20 || (0x09 ≤ n && n ≤ 0x0d) || n == 0x85 || n == 0xa0 || n == 0x1680
    || (0x2000 ≤ n && n ≤ 0x200a) || n == 0x200e || n == 0x200f || n == 0x2028 || n == 0x2029
    || n == 0x202f || n == 0x205f || n == 0x3000

/-- Where the skipping of blanks is: between tokens, in a line comment, or in nested block
comments. -/
inductive BlankState where
  | between
  | line
  | block (outer : Nat)

/-- A line comment documents what follows when it starts with exactly three slashes, and what
encloses it when an exclamation mark follows two. -/
def documentsLine : List Char → Bool
  | '/' :: '/' :: _ => false
  | '/' :: _ => true
  | '!' :: _ => true
  | _ => false

/-- The same for a block comment and its stars; the empty comment documents nothing. -/
def documentsBlock : List Char → Bool
  | '*' :: '*' :: _ => false
  | '*' :: '/' :: _ => false
  | '*' :: _ => true
  | '!' :: _ => true
  | _ => false

/-- Drops blanks and plain comments. Fails inside an unclosed block comment. -/
def skipBlanks : BlankState → List Char → Option (List Char)
  | .between, '/' :: '/' :: cs =>
    if documentsLine cs then some ('/' :: '/' :: cs) else skipBlanks .line cs
  | .between, '/' :: '*' :: cs =>
    if documentsBlock cs then some ('/' :: '*' :: cs) else skipBlanks (.block 0) cs
  | .between, c :: cs => if isBlank c then skipBlanks .between cs else some (c :: cs)
  | .between, [] => some []
  | .line, '\n' :: cs => skipBlanks .between cs
  | .line, _ :: cs => skipBlanks .line cs
  | .line, [] => some []
  | .block outer, '/' :: '*' :: cs => skipBlanks (.block (outer + 1)) cs
  | .block 0, '*' :: '/' :: cs => skipBlanks .between cs
  | .block (outer + 1), '*' :: '/' :: cs => skipBlanks (.block outer) cs
  | .block outer, _ :: cs => skipBlanks (.block outer) cs
  | .block _, [] => none

/-- The rest of a line, without its line end, and what follows from the line end on. -/
def readLine : List Char → List Char × List Char
  | '\r' :: '\n' :: cs => ([], '\n' :: cs)
  | '\n' :: cs => ([], '\n' :: cs)
  | c :: cs => let (line, rest) := readLine cs; (c :: line, rest)
  | [] => ([], [])

/-- The content of a block comment up to its end, with the comments nested in it. -/
def readBlock : Nat → List Char → Option (List Char × List Char)
  | outer, '/' :: '*' :: cs => (readBlock (outer + 1) cs).map fun r => ('/' :: '*' :: r.1, r.2)
  | 0, '*' :: '/' :: cs => some ([], cs)
  | outer + 1, '*' :: '/' :: cs => (readBlock outer cs).map fun r => ('*' :: '/' :: r.1, r.2)
  | outer, c :: cs => (readBlock outer cs).map fun r => (c :: r.1, r.2)
  | _, [] => none

def hasBareReturn : List Char → Bool
  | '\r' :: '\n' :: cs => hasBareReturn cs
  | '\r' :: _ => true
  | _ :: cs => hasBareReturn cs
  | [] => false

/-- A documentation comment: whether it documents what encloses it, its text, and what follows. -/
def readDocumentation (cs : List Char) : Option (Bool × List Char × List Char) := do
  let (inner, content, rest) ← match cs with
    | '/' :: '/' :: '!' :: cs => some (true, readLine cs)
    | '/' :: '/' :: '/' :: '/' :: _ => none
    | '/' :: '/' :: '/' :: cs => some (false, readLine cs)
    | '/' :: '*' :: '!' :: cs => (readBlock 0 cs).map (true, ·)
    | '/' :: '*' :: '*' :: '*' :: _ => none
    | '/' :: '*' :: '*' :: cs => (readBlock 0 cs).map (false, ·)
    | _ => none
  if hasBareReturn content then none else return (inner, content, rest)

/-- The attribute that a documentation comment stands for. -/
def documentation (inner : Bool) (content : List Char) : Phrase :=
  [.punct '#' false] ++ (if inner then [.punct '!' false] else [])
    ++ Phrase.grouped .bracket
      [.word "doc", .punct '=' false, .literal (String.ofList (quote content))]

/-- A plain identifier, without a raw mark. -/
def readName : List Char → Option (List Char × List Char)
  | c :: cs =>
    if startsIdentifier c then
      let (tail, rest) := cs.span identifierContinue.contains
      some (c :: tail, rest)
    else none
  | [] => none

/-- Names that may not be raw. -/
def pathKeywords : List String := ["super", "self", "Self", "crate"]

/-- An identifier, plain or raw. -/
def readWord : List Char → Option (List Char × List Char)
  | 'r' :: '#' :: cs => do
    let (name, rest) ← readName cs
    if name == ['_'] || pathKeywords.contains (String.ofList name) then none
    else return ('r' :: '#' :: name, rest)
  | cs => readName cs

/-- A literal may be followed by a suffix. -/
def dropSuffix (cs : List Char) : List Char :=
  match readName cs with
  | some (_, rest) => rest
  | none => cs

/-- The rest of a code point escape after its opening brace. -/
def skipCode (value digits : Nat) : List Char → Option (List Char)
  | '\x7d' :: cs => if 0 < digits ∧ value.isValidChar then some cs else none
  | '_' :: cs => if digits = 0 then none else skipCode value digits cs
  | c :: cs =>
    match hexValue? c with
    | some d => if digits = 6 then none else skipCode (16 * value + d) (digits + 1) cs
    | none => none
  | [] => none

/-- A quoted character after its opening quote. -/
def skipCharacter : List Char → Option (List Char)
  | '\\' :: 'x' :: a :: b :: cs => do
    let _ ← pairEscape? .text a b
    return cs
  | '\\' :: 'u' :: '\x7b' :: cs => skipCode 0 0 cs
  | '\\' :: e :: cs => do
    let _ ← letterEscape? .text e
    return cs
  | '\\' :: [] => none
  | _ :: cs => some cs
  | [] => none

/-- A quoted byte after its opening quote. -/
def skipByte : List Char → Option (List Char)
  | '\\' :: 'x' :: a :: b :: cs => do
    let _ ← pairEscape? .bytes a b
    return cs
  | '\\' :: e :: cs => do
    let _ ← letterEscape? .bytes e
    return cs
  | '\\' :: [] => none
  | c :: cs => if c.toNat < 128 then some cs else none
  | [] => none

def closeQuote : List Char → Option (List Char)
  | '\'' :: cs => some cs
  | _ => none

/-- Text, byte and character literals, before their suffix. -/
def skipQuoted : List Char → Option (List Char)
  | '"' :: cs => (readBody .text .between cs).map (·.2)
  | 'b' :: '"' :: cs => (readBody .bytes .between cs).map (·.2)
  | 'c' :: '"' :: cs => (readBody .nulFree .between cs).map (·.2)
  | 'b' :: 'r' :: cs => (readRaw .bytes cs).map (·.2)
  | 'c' :: 'r' :: cs => (readRaw .nulFree cs).map (·.2)
  | 'r' :: cs => (readRaw .text cs).map (·.2)
  | 'b' :: '\'' :: cs => (skipByte cs).bind closeQuote
  | '\'' :: cs => (skipCharacter cs).bind closeQuote
  | _ => none

def isDigitOrMark (c : Char) : Bool := c.isDigit || c == '_'

/-- The exponent of a float after its letter; `signed` and `valued` tell what was read. -/
def skipExponent (signed valued : Bool) : List Char → Option (List Char)
  | [] => if valued then some [] else none
  | c :: cs =>
    if c == '+' || c == '-' then
      if valued then some (c :: cs) else if signed then none else skipExponent true valued cs
    else if c.isDigit then skipExponent signed true cs
    else if c == '_' then skipExponent signed valued cs
    else if valued then some (c :: cs) else none

/-- A float before its suffix: digits with a point, an exponent, or both. After a point an
incomplete exponent is left for the suffix. -/
def skipFloat (cs : List Char) : Option (List Char) :=
  match cs with
  | [] => none
  | c :: _ =>
    if !c.isDigit then none
    else
      let exponent (dotted : Bool) (cs : List Char) : Option (List Char) :=
        match cs with
        | e :: rest =>
          if e == 'e' || e == 'E' then
            (skipExponent false false rest).orElse fun _ => if dotted then some cs else none
          else if dotted then some cs else none
        | [] => if dotted then some [] else none
      match cs.dropWhile isDigitOrMark with
      | '.' :: rest =>
        if rest.head?.any fun c => c == '.' || startsIdentifier c then none
        else exponent true (rest.dropWhile isDigitOrMark)
      | rest => exponent false rest

/-- The digits of an integer in a base; `empty` holds until the first one. -/
def skipDigits (base : Nat) (empty : Bool) : List Char → Option (List Char)
  | [] => if empty then none else some []
  | c :: cs =>
    if c.isDigit then
      if c.toNat - '0'.toNat < base then skipDigits base false cs else none
    else if c == '_' then
      if empty && base == 10 then none else skipDigits base empty cs
    else if (hexValue? c).any (· < base) then skipDigits base false cs
    else if empty then none else some (c :: cs)

def skipInteger : List Char → Option (List Char)
  | '0' :: 'x' :: cs => skipDigits 16 true cs
  | '0' :: 'o' :: cs => skipDigits 8 true cs
  | '0' :: 'b' :: cs => skipDigits 2 true cs
  | cs => skipDigits 10 true cs

/-- A number ends where no identifier can go on. -/
def endNumber (cs : List Char) : Option (List Char) :=
  let rest := dropSuffix cs
  if rest.head?.any identifierContinue.contains then none else some rest

/-- What follows a literal. -/
def skipLiteral (cs : List Char) : Option (List Char) :=
  (((skipQuoted cs).map dropSuffix).orElse fun _ => (skipFloat cs).bind endNumber).orElse
    fun _ => (skipInteger cs).bind endNumber

/-- Whether the text starts with a punctuation character; a comment does not. -/
def startsPunct : List Char → Bool
  | '/' :: '/' :: _ => false
  | '/' :: '*' :: _ => false
  | c :: _ => "~!@#$%^&*-=+|;:,<.>/?'".toList.contains c
  | [] => false

/-- A punctuation character. An apostrophe must begin a lifetime, which another apostrophe does
not close. -/
def readPunct : List Char → Option (Lexeme × List Char)
  | '\'' :: cs => do
    let (_, rest) ← readWord cs
    if rest.head? == some '\'' then none
    else if rest.head? == some '#' && !(cs.take 2 == ['r', '#']) then none
    else return (.punct '\'' true, cs)
  | c :: cs => if startsPunct (c :: cs) then some (.punct c (startsPunct cs), cs) else none
  | [] => none

/-- Beginnings of literals, which are no identifiers even when the literal is broken. -/
def literalPrefixes : List String :=
  ["r\"", "r#\"", "r##", "b\"", "b'", "br\"", "br#", "c\"", "cr\"", "cr#"]

def readLeaf (cs : List Char) : Option (Lexeme × List Char) :=
  match skipLiteral cs with
  | some rest => some (.literal (String.ofList (cs.take (cs.length - rest.length))), rest)
  | none =>
    (readPunct cs).orElse fun _ =>
      if literalPrefixes.any fun p => p.toList.isPrefixOf cs then none
      else (readWord cs).map fun (name, rest) => (.word (String.ofList name), rest)

def delimiterOpenedBy? : Char → Option Delimiter
  | '(' => some .paren
  | '[' => some .bracket
  | '\x7b' => some .brace
  | _ => none

def delimiterClosedBy? : Char → Option Delimiter
  | ')' => some .paren
  | ']' => some .bracket
  | '\x7d' => some .brace
  | _ => none

/-- Scans the rest `cs` of a text of `size` characters inside the groups of `stack`. Every round
takes a character, so the length of the text is fuel enough. -/
def scanFrom (size : Nat) : Nat → List Delimiter → List Char → Option (List Token)
  | 0, _, _ => none
  | fuel + 1, stack, cs => do
    let cs ← skipBlanks .between cs
    let token (lexeme : Lexeme) (rest : List Char) : Token :=
      ⟨lexeme, ⟨size - cs.length, size - rest.length⟩⟩
    match readDocumentation cs with
    | some (inner, content, rest) =>
      let tokens := (documentation inner content).map fun lexeme => token lexeme rest
      return tokens ++ (← scanFrom size fuel stack rest)
    | none =>
      match cs with
      | [] => if stack.isEmpty then return [] else none
      | c :: rest =>
        match delimiterOpenedBy? c, delimiterClosedBy? c with
        | some d, _ =>
          return token (.opening d) rest :: (← scanFrom size fuel (d :: stack) rest)
        | none, some d =>
          match stack with
          | [] => none
          | top :: stack =>
            if top = d then return token (.closing d) rest :: (← scanFrom size fuel stack rest)
            else none
        | none, none =>
          let (lexeme, rest) ← readLeaf cs
          return token lexeme rest :: (← scanFrom size fuel stack rest)

/-- A byte order mark may begin a text. -/
def dropByteOrderMark : List Char → List Char
  | '\ufeff' :: cs => cs
  | cs => cs

/-- The tokens of a text, if its groups are balanced and all of it can be read. -/
def scan? (source : String) : Option (List Token) :=
  let cs := source.toList
  scanFrom cs.length (cs.length + 1) [] (dropByteOrderMark cs)

end RecordRows.Source
