import RecordRows.Json.Basic

/-!
Reading JSON: the grammar is strict (no leading zeros, no trailing commas, no raw control
characters), blanks may stand between tokens, and the whole text must be one value.
-/
namespace RecordRows.Json

open Binary

def isBlank (c : Char) : Bool := c == ' ' || c == '\n' || c == '\t' || c == '\r'

def skipBlanks (cs : List Char) : List Char := cs.dropWhile isBlank

def hexValue? (c : Char) : Option Nat :=
  if '0' ≤ c && c ≤ '9' then some (c.toNat - '0'.toNat)
  else if 'a' ≤ c && c ≤ 'f' then some (c.toNat - 'a'.toNat + 10)
  else if 'A' ≤ c && c ≤ 'F' then some (c.toNat - 'A'.toNat + 10)
  else none

/-- The 16-bit unit spelled by four hexadecimal digits. -/
def unit? (a b c d : Char) : Option Nat := do
  return ((← hexValue? a) * 16 + (← hexValue? b)) * 256 + (← hexValue? c) * 16 + (← hexValue? d)

/-- The character of an escape letter. -/
def unescape? : Char → Option Char
  | '"' => some '"'
  | '\\' => some '\\'
  | '/' => some '/'
  | 'b' => some '\x08'
  | 'f' => some '\x0c'
  | 'n' => some '\n'
  | 'r' => some '\r'
  | 't' => some '\t'
  | _ => none

/-- The content of a string up to its closing quote. A high surrogate must be followed by a low
one, and a low one may not stand alone. -/
def readString : List Char → Option (List Char × List Char)
  | [] => none
  | '"' :: rest => some ([], rest)
  | '\\' :: 'u' :: a :: b :: c :: d :: '\\' :: 'u' :: e :: f :: g :: h :: rest => do
    let high ← unit? a b c d
    if 0xD800 ≤ high ∧ high < 0xDC00 then
      let low ← unit? e f g h
      if 0xDC00 ≤ low ∧ low < 0xE000 then
        let (s, rest) ← readString rest
        return (Char.ofNat (0x10000 + (high - 0xD800) * 0x400 + (low - 0xDC00)) :: s, rest)
      else none
    else if 0xDC00 ≤ high ∧ high < 0xE000 then none
    else
      let (s, rest) ← readString ('\\' :: 'u' :: e :: f :: g :: h :: rest)
      return (Char.ofNat high :: s, rest)
  | '\\' :: 'u' :: a :: b :: c :: d :: rest => do
    let code ← unit? a b c d
    if 0xD800 ≤ code ∧ code < 0xE000 then none
    else
      let (s, rest) ← readString rest
      return (Char.ofNat code :: s, rest)
  | '\\' :: c :: rest => do
    let c ← unescape? c
    let (s, rest) ← readString rest
    return (c :: s, rest)
  | c :: rest => do
    if c.toNat < 0x20 then none
    else
      let (s, rest) ← readString rest
      return (c :: s, rest)

/-- Digits before the first other character. -/
def readDigits (cs : List Char) : List Char × List Char := cs.span Char.isDigit

def readExponent (cs : List Char) : Option (Option Exponent × List Char) :=
  let body (sign : ExponentSign) (cs : List Char) : Option (Option Exponent × List Char) :=
    match readDigits cs with
    | ([], _) => none
    | (ds, rest) => some (some ⟨sign, ds⟩, rest)
  match cs with
  | 'e' :: '+' :: rest | 'E' :: '+' :: rest => body .plus rest
  | 'e' :: '-' :: rest | 'E' :: '-' :: rest => body .minus rest
  | 'e' :: rest | 'E' :: rest => body .none rest
  | cs => some (none, cs)

/-- A number without its sign; a leading zero stands alone. -/
def readMagnitude (negative : Bool) (cs : List Char) : Option (Numeral × List Char) := do
  let (whole, rest) := readDigits cs
  let valid := match whole with
    | [] => false
    | '0' :: _ :: _ => false
    | _ => true
  if !valid then none
  else
    let (fraction, rest) ← match rest with
      | '.' :: rest =>
        match readDigits rest with
        | ([], _) => none
        | found => some found
      | rest => some ([], rest)
    let (exponent, rest) ← readExponent rest
    return (⟨negative, whole, fraction, exponent⟩, rest)

def readNumber : List Char → Option (Numeral × List Char)
  | '-' :: rest => readMagnitude true rest
  | cs => readMagnitude false cs

mutual

/-- A value, after blanks. The fuel bounds the depth and length of the reading; the length of the
text is always enough. -/
def readValue : Nat → List Char → Option (Json × List Char)
  | 0, _ => none
  | fuel + 1, cs =>
    match skipBlanks cs with
    | 'n' :: 'u' :: 'l' :: 'l' :: rest => some (.null, rest)
    | 't' :: 'r' :: 'u' :: 'e' :: rest => some (.bool true, rest)
    | 'f' :: 'a' :: 'l' :: 's' :: 'e' :: rest => some (.bool false, rest)
    | '"' :: rest => (readString rest).map fun (s, rest) => (.string s, rest)
    | '[' :: rest =>
      match skipBlanks rest with
      | ']' :: rest => some (.array [], rest)
      | rest => (readItems fuel rest).map fun (items, rest) => (.array items, rest)
    | '{' :: rest =>
      match skipBlanks rest with
      | '}' :: rest => some (.object [], rest)
      | rest => (readMembers fuel rest).map fun (members, rest) => (.object members, rest)
    | cs => (readNumber cs).map fun (n, rest) => (.number n, rest)

/-- One or more values, up to the closing bracket. -/
def readItems : Nat → List Char → Option (List Json × List Char)
  | 0, _ => none
  | fuel + 1, cs => do
    let (item, rest) ← readValue fuel cs
    match skipBlanks rest with
    | ']' :: rest => return ([item], rest)
    | ',' :: rest =>
      let (items, rest) ← readItems fuel rest
      return (item :: items, rest)
    | _ => none

/-- One or more members, up to the closing brace. -/
def readMembers : Nat → List Char → Option (List (List Char × Json) × List Char)
  | 0, _ => none
  | fuel + 1, cs => do
    match skipBlanks cs with
    | '"' :: rest =>
      let (key, rest) ← readString rest
      match skipBlanks rest with
      | ':' :: rest =>
        let (value, rest) ← readValue fuel rest
        match skipBlanks rest with
        | '}' :: rest => return ([(key, value)], rest)
        | ',' :: rest =>
          let (members, rest) ← readMembers fuel rest
          return ((key, value) :: members, rest)
        | _ => none
      | _ => none
    | _ => none

end

def parse? (text : String) : Option Json := do
  let cs := text.toList
  let (value, rest) ← readValue (2 * cs.length + 1) cs
  if (skipBlanks rest).isEmpty then return value else none

end RecordRows.Json
