import RecordRows.Text.VisibleTable

/-!
String literals of the declaration language: writing a text as a literal, and reading a literal
back. Writing shows visible characters as they are and escapes the others; reading knows more
escapes than writing uses, line continuations among them.
-/
namespace RecordRows.Text

def isOctal (c : Char) : Bool := '0' ≤ c && c ≤ '7'

/-- The escape that names a character by its code point. -/
def codeEscape (c : Char) : List Char := "\\u\x7b".toList ++ Nat.toDigits 16 c.toNat ++ ['\x7d']

/-- One character inside a literal, given the characters that follow: a NUL before an octal digit
is written at full length, so that the digit is not taken for a part of it. -/
def escape (c : Char) (next : List Char) : List Char :=
  if c = '\x00' then
    if next.head?.any isOctal then "\\x00".toList else "\\0".toList
  else if c = '\t' then "\\t".toList
  else if c = '\n' then "\\n".toList
  else if c = '\r' then "\\r".toList
  else if c = '"' then "\\\"".toList
  else if c = '\\' then "\\\\".toList
  else if attaching.contains c || hidden.contains c then codeEscape c
  else [c]

def escapeAll : List Char → List Char
  | [] => []
  | c :: cs => escape c cs ++ escapeAll cs

/-- The literal of a text, with its quotes. -/
def quote (s : List Char) : List Char := '"' :: escapeAll s ++ ['"']

/-- What a literal holds: text, bytes, or text without NUL. -/
inductive LiteralKind where
  | text | bytes | nulFree
deriving DecidableEq, Repr

/-- A part of a literal's body: a character as written, an escaped one, or the end of a line that
is continued after the blanks of the next one. -/
inductive Piece where
  | plain (c : Char)
  | escaped (c : Char)
  | continued
deriving DecidableEq, Repr

def hexValue? (c : Char) : Option Nat :=
  if '0' ≤ c && c ≤ '9' then some (c.toNat - '0'.toNat)
  else if 'a' ≤ c && c ≤ 'f' then some (c.toNat - 'a'.toNat + 10)
  else if 'A' ≤ c && c ≤ 'F' then some (c.toNat - 'A'.toNat + 10)
  else none

/-- The character of a two-digit escape: ASCII in text, any byte in bytes, and not NUL where NUL
is excluded. -/
def pairEscape? (kind : LiteralKind) (a b : Char) : Option Char := do
  let n := (← hexValue? a) * 16 + (← hexValue? b)
  match kind with
  | .text => if n < 128 then some (Char.ofNat n) else none
  | .bytes => some (Char.ofNat n)
  | .nulFree => if n = 0 then none else some (Char.ofNat n)

/-- The character of a one-letter escape. -/
def letterEscape? (kind : LiteralKind) : Char → Option Char
  | 'n' => some '\n'
  | 'r' => some '\r'
  | 't' => some '\t'
  | '\\' => some '\\'
  | '\'' => some '\''
  | '"' => some '"'
  | '0' => if kind = .nulFree then none else some '\x00'
  | _ => none

/-- Whether a character may stand in a body unescaped. -/
def admits (kind : LiteralKind) (c : Char) : Bool :=
  match kind with
  | .text => true
  | .bytes => c.toNat < 128
  | .nulFree => c != '\x00'

/-- Where the reading of a body is: between pieces, or inside the braces of a code point escape
with its value and number of digits so far. -/
inductive BodyState where
  | between
  | code (value digits : Nat)

/-- The pieces of a body up to its closing quote, and what follows the quote. -/
def readBody (kind : LiteralKind) : BodyState → List Char → Option (List Piece × List Char)
  | _, [] => none
  | .between, '"' :: cs => some ([], cs)
  | .between, '\r' :: '\n' :: cs => (readBody kind .between cs).map fun r => (.plain '\n' :: r.1, r.2)
  | .between, '\r' :: _ => none
  | .between, '\\' :: '\n' :: cs => (readBody kind .between cs).map fun r => (.continued :: r.1, r.2)
  | .between, '\\' :: '\r' :: '\n' :: cs =>
    (readBody kind .between cs).map fun r => (.continued :: r.1, r.2)
  | .between, '\\' :: 'x' :: a :: b :: cs => do
    let c ← pairEscape? kind a b
    let r ← readBody kind .between cs
    return (.escaped c :: r.1, r.2)
  | .between, '\\' :: 'u' :: '\x7b' :: cs =>
    if kind = .bytes then none else readBody kind (.code 0 0) cs
  | .between, '\\' :: e :: cs => do
    let c ← letterEscape? kind e
    let r ← readBody kind .between cs
    return (.escaped c :: r.1, r.2)
  | .between, c :: cs =>
    if admits kind c && c != '\\' then
      (readBody kind .between cs).map fun r => (.plain c :: r.1, r.2)
    else none
  | .code value digits, '\x7d' :: cs =>
    if 0 < digits ∧ value.isValidChar ∧ (value ≠ 0 ∨ kind ≠ .nulFree) then
      (readBody kind .between cs).map fun r => (.escaped (Char.ofNat value) :: r.1, r.2)
    else none
  | .code value digits, '_' :: cs =>
    if digits = 0 then none else readBody kind (.code value digits) cs
  | .code value digits, c :: cs =>
    match hexValue? c with
    | some d => if digits = 6 then none else readBody kind (.code (16 * value + d) (digits + 1)) cs
    | none => none

/-- Blanks that a continued line starts with. -/
def isLeadingBlank (c : Char) : Bool := c == ' ' || c == '\t' || c == '\n' || c == '\r'

/-- The text of a body; `skipping` holds after a continued line. -/
def settle (skipping : Bool) : List Piece → List Char
  | [] => []
  | .continued :: ps => settle true ps
  | .escaped c :: ps => c :: settle false ps
  | .plain c :: ps =>
    if skipping && isLeadingBlank c then settle true ps else c :: settle false ps

/-- The number of hash signs before the quote of a raw literal, and what follows the quote. -/
def rawOpening? : List Char → Option (Nat × List Char)
  | '"' :: cs => some (0, cs)
  | '#' :: cs => (rawOpening? cs).map fun r => (r.1 + 1, r.2)
  | _ => none

/-- A raw body up to a quote followed by as many hash signs as opened it. -/
def readRawBody (kind : LiteralKind) (hashes : Nat) : List Char → Option (List Char × List Char)
  | [] => none
  | '\r' :: '\n' :: cs => (readRawBody kind hashes cs).map fun r => ('\r' :: '\n' :: r.1, r.2)
  | '\r' :: _ => none
  | c :: cs =>
    if c = '"' ∧ cs.take hashes = List.replicate hashes '#' then some ([], cs.drop hashes)
    else if admits kind c then (readRawBody kind hashes cs).map fun r => (c :: r.1, r.2)
    else none

/-- A raw literal after its letters; at most 255 hash signs are allowed. -/
def readRaw (kind : LiteralKind) (cs : List Char) : Option (List Char × List Char) := do
  let (hashes, cs) ← rawOpening? cs
  if 255 < hashes then none else readRawBody kind hashes cs

/-- The text of a string literal, and the suffix behind it. -/
def unquote? : List Char → Option (List Char × List Char)
  | '"' :: cs => (readBody .text .between cs).map fun r => (settle false r.1, r.2)
  | 'r' :: cs => readRaw .text cs
  | _ => none

end RecordRows.Text
