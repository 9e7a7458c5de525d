import RecordRows.Source.Literal
import RecordRows.Source.Nested

/-!
Attributes: a path, followed by a group of tokens, by a value, or by nothing. The entries of an
attribute's list are literals and items of this kind again.
-/
namespace RecordRows.Source

open Rule

/-- What follows the path of an item. -/
inductive MetaArgument where
  | none
  | list (content : List Token)
  | value (form : ExpressionForm) (place? : Option Span)
deriving DecidableEq, Repr

structure MetaItem where
  rooted : Bool
  words : List String
  argument : MetaArgument
  place? : Option Span
deriving DecidableEq, Repr

inductive ListEntry where
  | literal (place? : Option Span)
  | item (m : MetaItem)
deriving DecidableEq, Repr

/-- Words joined by double colons; each has to pass a test. -/
def pathWordsFor (mayStart : List Token → Bool) : Nat → Rule (List String)
  | 0 => return []
  | fuel + 1 => do
    unless ← sees mayStart do fail (.expected "identifier")
    let w ← anyWord
    if ← operator? "::" then
      unless ← sees mayStart do fail (.expected "path segment after `::`")
      return w :: (← pathWordsFor mayStart fuel)
    else return [w]

def pathWords (mayStart : List Token → Bool) : Rule (List String) := do
  pathWordsFor mayStart ((← ahead).length + 1)

/-- The words of a path that names a module. -/
def isModuleWord (ts : List Token) : Bool :=
  Ahead.isIdentifier ts || ["super", "self", "Self", "crate"].any (Ahead.isWord · ts)

/-- A path without arguments. -/
def modulePath : Rule PathForm := do
  let rooted ← operator? "::"
  return { rooted, words := ← pathWords isModuleWord }

/-- The literal at this place, with its minus sign, and what follows it. -/
def literalAhead? : List Token → Option (String × List Token)
  | ⟨.literal t, _⟩ :: ts => some (t, ts)
  | ⟨.word w, _⟩ :: ts => if w == "true" || w == "false" then some (w, ts) else none
  | ⟨.punct '-' _, _⟩ :: ⟨.literal t, _⟩ :: ts =>
    if LiteralForm.ofText t = .int || LiteralForm.ofText t = .float then some ("-" ++ t, ts) else none
  | _ => none

/-- A literal, with its minus sign printed apart. -/
def literal? : Rule (Option String) := do
  let ts ← ahead
  match literalAhead? ts with
  | some (t, rest) =>
    if Ahead.isOperator "-" ts then operator "-"
    takeMany (consumed (← ahead) rest).length
    return some t
  | none => return none

def stringLiteral? : Rule Bool := do
  match ← ahead with
  | ⟨.literal t, _⟩ :: _ =>
    if LiteralForm.ofText t = .string then
      take
      return true
    else return false
  | _ => return false

/-- The value of an item; a literal counts as one, sign included, when nothing follows it. -/
def metaValue (n : Nested) : Rule ExpressionForm := do
  let ts ← ahead
  if (literalAhead? ts).any fun r => Ahead.isEnd r.2 then
    return .literal ((← literal?).getD "")
  else if Ahead.isOperator "#" ts && Ahead.isGroup .bracket (Ahead.next ts) then fail .nestedAttribute
  else n.expression true

def metaArgument (n : Nested) : Rule MetaArgument := do
  let ts ← ahead
  if Ahead.isAnyGroup ts then
    takeTree
    return .list ((consumed ts (← ahead)).drop 1).dropLast
  else if ← operator? "=" then
    let (form, place?) ← spanned (metaValue n)
    return .value form place?
  else return .none

/-- The item inside the brackets of an attribute. -/
def attributeItem (n : Nested) : Rule MetaItem := do
  let ((path, argument), place?) ← spanned do
    let path ← if ← word? "unsafe" then pure ⟨false, ["unsafe"], false, false⟩ else modulePath
    return (path, ← metaArgument n)
  return ⟨path.rooted, path.words, argument, place?⟩

def outerAttributes (n : Nested) : Rule (List MetaItem) := collect do
  if ← operator? "#" then return some (← group .bracket (attributeItem n)) else return none

def innerAttributes (n : Nested) : Rule Unit := loop do
  let ts ← ahead
  if Ahead.isOperator "#" ts && Ahead.isOperator "!" (Ahead.next ts) then
    operator "#"
    operator "!"
    let _ ← group .bracket (attributeItem n)
    return true
  else return false

/-- An entry of an attribute's list. Its path may use keywords, and a truth value before an equals
sign is a path. -/
def listEntry (n : Nested) : Rule ListEntry := do
  let ts ← ahead
  let isKey := Ahead.isAnyWord ts && Ahead.isOperator "=" (Ahead.next ts)
  if (literalAhead? ts).isSome && !isKey then
    let (_, place?) ← spanned literal?
    return .literal place?
  else if Ahead.isAnyWord ts then
    let ((words, argument), place?) ← spanned do
      let words ← pathWords Ahead.isAnyWord
      return (words, ← metaArgument n)
    return .item ⟨false, words, argument, place?⟩
  else fail (.expected "identifier or literal")

def listEntries (n : Nested) : Rule (List ListEntry) := commaList (listEntry n)

end RecordRows.Source
