import RecordRows.Binary.Numeral

/-!
JSON texts: a tree of values, and its compact writing. Numbers are kept as they are spelled.
-/
namespace RecordRows

open Binary

inductive Json where
  | null
  | bool (b : Bool)
  | number (n : Numeral)
  | string (s : List Char)
  | array (items : List Json)
  | object (members : List (List Char × Json))
deriving Repr

namespace Json

def hexDigit (n : Nat) : Char := (Nat.digitChar n)

/-- Quotes, backslashes and control characters are escaped, all else is written as it is. -/
def escape (c : Char) : List Char :=
  if c = '"' then ['\\', '"']
  else if c = '\\' then ['\\', '\\']
  else if c = '\n' then ['\\', 'n']
  else if c = '\r' then ['\\', 'r']
  else if c = '\t' then ['\\', 't']
  else if c = '\x08' then ['\\', 'b']
  else if c = '\x0c' then ['\\', 'f']
  else if c.toNat < 0x20 then
    ['\\', 'u', '0', '0', hexDigit (c.toNat / 16), hexDigit (c.toNat % 16)]
  else [c]

def quote (s : List Char) : List Char := '"' :: s.flatMap escape ++ ['"']

/-- Puts commas between the parts. -/
def separated : List (List Char) → List Char
  | [] => []
  | [x] => x
  | x :: xs => x ++ ',' :: separated xs

mutual

/-- The compact text of a tree. -/
def chars : Json → List Char
  | .null => ['n', 'u', 'l', 'l']
  | .bool true => ['t', 'r', 'u', 'e']
  | .bool false => ['f', 'a', 'l', 's', 'e']
  | .number n => n.chars
  | .string s => quote s
  | .array items => '[' :: separated (itemChars items) ++ [']']
  | .object members => '{' :: separated (memberChars members) ++ ['}']

def itemChars : List Json → List (List Char)
  | [] => []
  | j :: js => j.chars :: itemChars js

def memberChars : List (List Char × Json) → List (List Char)
  | [] => []
  | (key, j) :: ms => (quote key ++ ':' :: j.chars) :: memberChars ms

end

def text (j : Json) : String := String.ofList j.chars

end Json

end RecordRows
