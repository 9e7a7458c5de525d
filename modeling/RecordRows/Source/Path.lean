import RecordRows.Source.Attribute

/-!
Paths with arguments, and the bounds that are made of them. In lists of parameters and arguments
lifetimes are printed first, whatever their place.
-/
namespace RecordRows.Source

open Rule

/-! ## Lists of parameters and arguments -/

/-- An item of a list, with the comma that followed it. -/
structure Listed where
  isLifetime : Bool
  phrase : Phrase
  comma : Bool
deriving Repr

namespace Listed

def text (i : Listed) : Phrase := i.phrase ++ if i.comma then Phrase.operator "," else []

/-- Prints items after others, with a comma where the one before lacks it. -/
def printAfter (missing : Bool) : List Listed → Phrase
  | [] => []
  | i :: rest => (if missing then Phrase.operator "," else []) ++ i.text ++ printAfter (!i.comma) rest

/-- Lifetimes first, then the others, each with its own comma and with one more where it is
missing. -/
def lifetimesFirst (items : List Listed) : Phrase :=
  let lifetimes := items.filter (·.isLifetime)
  lifetimes.flatMap text
    ++ printAfter (lifetimes.getLast?.any fun i => !i.comma) (items.filter fun i => !i.isLifetime)

end Listed

/-- Items in angles; a rule for one tells whether it is a lifetime. -/
def angled (item : Rule Bool) : Rule Unit := do
  operator "<"
  let (items, _) ← captured do
    collect do
      if ← seesOperator ">" then return none
      let (isLifetime, phrase) ← captured item
      if ← seesOperator ">" then return some (Listed.mk isLifetime phrase false)
      operator ","
      return some (Listed.mk isLifetime phrase true)
  print (Listed.lifetimesFirst items)
  operator ">"

/-- A colon that is not a part of a double one. -/
def isLoneColon (ts : List Token) : Bool := Ahead.isOperator ":" ts && !Ahead.isOperator "::" ts

/-- Bounds up to the place where `stops` holds; there may be none. -/
def boundsUntil {α : Type} (stops : List Token → Bool) (bound : Rule α) : Rule Unit := do
  unless ← sees stops do
    let _ ← sum "+" (sees fun ts => !stops ts) bound

/-! ## Generic parameters -/

inductive ParameterKind where
  | lifetime | type | const
deriving DecidableEq, Repr

/-- A generic parameter. The constraint starts with its colon and the default with its equals sign;
both are empty when absent. -/
structure Parameter where
  kind : ParameterKind
  attributes : Phrase
  name : Phrase
  constraint : Phrase
  fallback : Phrase
deriving Repr

namespace Parameter

/-- Without the default. -/
def bounded (p : Parameter) : Phrase :=
  p.attributes ++ (if p.kind = .const then [.word "const"] else []) ++ p.name ++ p.constraint

/-- As declared. -/
def declared (p : Parameter) : Phrase := p.bounded ++ p.fallback

end Parameter

/-- A literal, a block or a name. -/
def constArgument (n : Nested) : Rule Unit := do
  if (← literal?).isSome then return
  else if ← seesGroup .brace then n.block
  else
    let _ ← identifier

/-- What stands behind a colon, with the colon; nothing when there is nothing behind it. -/
def constraint (bounds : Rule Unit) : Rule Phrase := do
  let (found, colon) ← captured (operator? ":")
  if found then
    let (_, phrase) ← captured bounds
    return if phrase.isEmpty then [] else colon ++ phrase
  else return []

/-- What stands behind an equals sign, with the sign. -/
def fallback (value : Rule Unit) : Rule Phrase := do
  let (_, phrase) ← captured do
    if ← operator? "=" then value
  return phrase

/-- A generic parameter; it is not printed. -/
def parameter (n : Nested) : Rule Parameter := do
  let (_, attributes) ← captured (outerAttributes n)
  let ts ← ahead
  if Ahead.isLifetime ts then
    let (_, name) ← captured lifetime
    let stops (ts : List Token) : Bool := Ahead.isOperator "," ts || Ahead.isOperator ">" ts
    let bounds ← constraint (boundsUntil stops lifetime)
    return ⟨.lifetime, attributes, name, bounds, []⟩
  else if Ahead.isIdentifier ts then
    let (_, name) ← captured identifier
    let stops (ts : List Token) : Bool :=
      Ahead.isOperator "," ts || Ahead.isOperator ">" ts || Ahead.isOperator "=" ts
    let bounds ← constraint (boundsUntil stops (n.bound {}))
    let value ← fallback do
      let _ ← n.type true
    return ⟨.type, attributes, name, bounds, value⟩
  else if Ahead.isWord "const" ts then
    let _ ← captured (word "const")
    let (_, name) ← captured identifier
    let (_, type) ← captured do
      operator ":"
      let _ ← n.type true
    let value ← fallback (constArgument n)
    return ⟨.const, attributes, name, type, value⟩
  else fail (.expected "identifier or lifetime or `const`")

/-- Generic parameters before a closing angle, each with its comma; they are not printed. -/
def parameters (n : Nested) : Rule (List (Parameter × Bool)) := collect do
  if ← seesOperator ">" then return none
  let p ← if ← seesWord "_" then
      let (_, name) ← captured anyWord
      pure ⟨.type, [], name, [], []⟩
    else parameter n
  if ← seesOperator ">" then return some (p, false)
  let _ ← captured (operator ",")
  return some (p, true)

/-- The parameters that a bound or a function type introduces. -/
def binder? (n : Nested) : Rule Bool := do
  if ← word? "for" then
    operator "<"
    let ps ← parameters n
    print (ps.flatMap fun (p, comma) => p.declared ++ if comma then Phrase.operator "," else [])
    operator ">"
    return true
  else return false

/-! ## Generic arguments -/

/-- An argument; the answer tells whether it is a lifetime. -/
def genericArgument (n : Nested) : Rule Bool := do
  let ts ← ahead
  if Ahead.isLifetime ts && !Ahead.isOperator "+" (Ahead.next ts) then
    lifetime
    return true
  else if (literalAhead? ts).isSome || Ahead.isGroup .brace ts then
    constArgument n
    return false
  else
    match ← n.type true with
    | .path ⟨false, [_], _, _⟩ =>
      if ← operator? "=" then
        let ts ← ahead
        if (literalAhead? ts).isSome || Ahead.isGroup .brace ts then constArgument n
        else
          let _ ← n.type true
      else if ← operator? ":" then
        boundsUntil (fun ts => Ahead.isOperator "," ts || Ahead.isOperator ">" ts) (n.bound {})
      return false
    | _ => return false

/-- Arguments in angles, after a double colon or without it. -/
def genericArguments (n : Nested) : Rule Unit := do
  let _ ← operator? "::"
  angled (genericArgument n)

/-! ## Paths -/

/-- A word of a path, and whether it has arguments. Where `turbofish` holds, arguments need a double
colon before them. -/
def pathWord (n : Nested) (turbofish : Bool) : Rule (String × Bool) := do
  let ts ← ahead
  if ["super", "self", "crate", "try"].any (Ahead.isWord · ts) then
    return (← anyWord, false)
  else
    let w ← if Ahead.isWord "Self" ts then anyWord else identifier
    let ts ← ahead
    if !turbofish && Ahead.isOperator "<" ts && !Ahead.isOperator "<=" ts
        || Ahead.isOperator "::" ts && Ahead.isOperator "<" (ts.drop 2) then
      genericArguments n
      return (w, true)
    else return (w, false)

/-- A double colon that goes on to a further word, and not to arguments in parentheses. -/
def goesOnToWord (ts : List Token) : Bool :=
  Ahead.isOperator "::" ts && !Ahead.isGroup .paren (ts.drop 2)

def path (n : Nested) (turbofish : Bool) : Rule PathForm := do
  let rooted ← operator? "::"
  let first ← pathWord n turbofish
  let rest ← collect do
    if ← sees goesOnToWord then
      operator "::"
      return some (← pathWord n turbofish)
    else return none
  let words := first :: rest
  return ⟨rooted, words.map (·.1), words.any (·.2), (rest.getLastD first).2⟩

/-- A path that may start with a self type, for which the answer is `none`. -/
def qualifiedPath (n : Nested) (turbofish : Bool) : Rule (Option PathForm) := do
  if ← operator? "<" then
    let _ ← n.type true
    if ← word? "as" then
      let _ ← path n false
    operator ">"
    operator "::"
    let _ ← sum "::" (return true) (pathWord n turbofish)
    return none
  else return some (← path n turbofish)

/-- The group of tokens behind the exclamation mark of an invocation; whether it is in braces. -/
def invocation : Rule Bool := do
  operator "!"
  let ts ← ahead
  unless Ahead.isAnyGroup ts do fail (.expected "delimiter")
  takeTree
  return Ahead.isGroup .brace ts

/-- Whether an invocation follows a path of this form. -/
def seesInvocation (form : PathForm) : Rule Bool := do
  if form.hasArguments then return false
  else sees fun ts => Ahead.isOperator "!" ts && !Ahead.isOperator "!=" ts

/-! ## Bounds -/

/-- The result type of a function, which takes no plus sign. -/
def resultType (n : Nested) : Rule Unit := do
  if ← operator? "->" then
    let _ ← n.type false

/-- Whether arguments in parentheses follow. -/
def seesParenthesised (ts : List Token) : Bool :=
  Ahead.isGroup .paren ts || Ahead.isOperator "::" ts && Ahead.isGroup .paren (ts.drop 2)

/-- A trait, with the parameters it introduces, its modifiers, and its arguments, which may be in
parentheses. -/
def trait (n : Nested) (constants : Bool) : Rule Unit := do
  let bindsFirst ← binder? n
  if ← seesGroup .bracket then
    group .bracket (word "const")
    unless constants do fail (.excluded "constant bound is not allowed here")
  else if ← word? "const" then
    unless constants do fail (.excluded "constant bound is not allowed here")
  let optional ← operator? "?"
  let bindsLater ← if optional && !bindsFirst then binder? n else pure false
  let form ← path n false
  if !form.endsInArguments && seesParenthesised (← ahead) then
    let _ ← operator? "::"
    let _ ← group .paren (commaList (n.type true))
    resultType n
  if optional && (bindsFirst || bindsLater) then fail (.excluded "binder is not allowed here")

/-- A word that a list of captures may hold. -/
def capturedName : Rule Bool := do
  if ← sees Ahead.isLifetime then
    lifetime
    return true
  else
    let _ ← if ← seesWord "Self" then anyWord else identifier
    return false

def bound (n : Nested) (place : BoundPlace) : Rule BoundForm := do
  let ts ← ahead
  if Ahead.isLifetime ts then
    lifetime
    return .lifetime
  else if Ahead.isWord "use" ts then
    word "use"
    angled capturedName
    unless place.captures do fail (.excluded "capture is not allowed here")
    return .capture
  else
    if Ahead.isGroup .paren ts then group .paren (trait n place.constants)
    else trait n place.constants
    return .trait

/-- Whether a bound can start here. -/
def startsBound (place : BoundPlace) (ts : List Token) : Bool :=
  Ahead.isAnyWord ts || Ahead.isOperator "::" ts || Ahead.isOperator "?" ts || Ahead.isLifetime ts
    || Ahead.isGroup .paren ts || place.constants && Ahead.isGroup .bracket ts

/-- The bounds of a type, of which one at least is a trait; a single one where `sums` is false. The
answer tells whether there is exactly one and no sign after it. -/
def typeBounds (n : Nested) (sums : Bool) (place : BoundPlace) : Rule Bool := do
  let (bounds, trailing) ←
    if sums then sum "+" (sees (startsBound place)) (bound n place)
    else pure ([← bound n place], false)
  unless bounds.any (· = .trait) do fail (.excluded "at least one trait is required")
  return bounds.length = 1 && !trailing

end RecordRows.Source
