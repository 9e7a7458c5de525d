import RecordRows.Row.Codec
import RecordRows.Text.AlphanumericTable

/-!
Log records and the filter that selects them. A filter is a list of directives; of those that apply
to a record, the one with the longest target decides.
-/
namespace RecordRows

/-- A record of the log; its fields follow the message. -/
structure LogRecord where
  level : Level
  target : String
  message : String
  fields : List (String × String)
deriving DecidableEq, Repr

namespace LogRecord

def text (r : LogRecord) : String :=
  r.fields.foldl (fun line (name, value) => line ++ s!" {name}={value}")
    s!"{r.level.name} {r.target}: {r.message}"

/-- Where the events of rows are reported. -/
def rowTarget : String := "rowbind_core::row"

def ofRowEvent (e : RowEvent) : LogRecord :=
  ⟨e.level, rowTarget, e.message, e.numbers.map fun (name, n) => (name, toString n)⟩

end LogRecord

/-- A least severity, or nothing at all. -/
abbrev LevelFilter := Option Level

namespace LevelFilter

def names : List (String × LevelFilter) :=
  [("off", none), ("error", some .error), ("warn", some .warn), ("info", some .info),
    ("debug", some .debug), ("trace", some .trace)]

/-- The number that `0` to `5` and longer spellings of them stand for. -/
def number? (cs : List Char) : Option Nat :=
  let digits := match cs with
    | '+' :: ds => ds
    | ds => ds
  if digits.isEmpty || !digits.all Char.isDigit then none
  else some (digits.foldl (fun n c => 10 * n + (c.toNat - '0'.toNat)) 0)

/-- A level by its name, in which letter case does not matter, or by its number. -/
def ofChars? (cs : List Char) : Option LevelFilter :=
  match number? cs with
  | some n => names[n]?.map (·.2)
  | none => (names.find? fun (name, _) => name.toList == cs.map Char.toLower).map (·.2)

def admits (f : LevelFilter) (level : Level) : Bool := f.any fun most => level.rank ≤ most.rank

end LevelFilter

/-- A directive lets records through up to a level, all of them or those with a target. One that
asks for a span applies to no record. -/
structure Directive where
  target? : Option (List Char) := none
  inSpan : Bool := false
  level : LevelFilter := some .trace
deriving DecidableEq, Repr

namespace Directive

/-- Where the reading of a directive is. -/
inductive ReadState where
  | start
  | levelOrTarget
  | span
  | field
  | afterFields
  | afterSpan
  | level (start : Nat)
deriving DecidableEq, Repr

/-- What a directive may start with, an opening bracket apart. -/
def startsDirective (c : Char) : Bool :=
  c == '-' || c == ':' || c == '_' || Text.alphanumeric.contains c

/-- A lone level or a lone target. -/
def ofLevelOrTarget (cs : List Char) : Directive :=
  match LevelFilter.ofChars? cs with
  | some level => { level }
  | none => { target? := some cs }

/-- Reads the characters from position `i` on. Targets and levels are cut out of `whole`, the text
before its blank ends are removed, at the positions found without them. -/
def readFrom (whole : List Char) (d : Directive) : ReadState → Nat → List Char → Option Directive
  | .levelOrTarget, _, [] => some (ofLevelOrTarget whole)
  | .level start, _, [] =>
    match whole.drop start with
    | [] => some d
    | cs => (LevelFilter.ofChars? cs).map fun level => { d with level }
  | .afterSpan, _, [] => some d
  | .start, _, [] | .span, _, [] | .field, _, [] | .afterFields, _, [] => none
  | .start, i, c :: cs =>
    if c = '[' then readFrom whole { d with inSpan := true } .span (i + 1) cs
    else if startsDirective c then readFrom whole d .levelOrTarget (i + 1) cs
    else none
  | .levelOrTarget, i, c :: cs =>
    let d' := { d with target? := some (whole.take i) }
    if c = '=' then readFrom whole d' (.level (i + 1)) (i + 1) cs
    else if c = '[' then readFrom whole { d' with inSpan := true } .span (i + 1) cs
    else readFrom whole d .levelOrTarget (i + 1) cs
  | .span, i, c :: cs =>
    if c = ']' then readFrom whole d .afterSpan (i + 1) cs
    else if c = '\x7b' then readFrom whole d .field (i + 1) cs
    else readFrom whole d .span (i + 1) cs
  | .field, i, c :: cs =>
    readFrom whole d (if c = '\x7d' then .afterFields else .field) (i + 1) cs
  | .afterFields, i, c :: cs => if c = ']' then readFrom whole d .afterSpan (i + 1) cs else none
  | .afterSpan, i, c :: cs => if c = '=' then readFrom whole d (.level (i + 1)) (i + 1) cs else none
  | .level start, i, _ :: cs => readFrom whole d (.level start) (i + 1) cs

/-- Without blanks at both ends. -/
def trimmed (cs : List Char) : List Char :=
  ((cs.dropWhile isBlank).reverse.dropWhile isBlank).reverse
where
  isBlank (c : Char) : Bool :=
    let n := c.toNat
    n == 0x20 || (0x09 ≤ n && n ≤ 0x0d) || n == 0x85 || n == 0xa0 || n == 0x1680
      || (0x2000 ≤ n && n ≤ 0x200a) || n == 0x2028 || n == 0x2029 || n == 0x202f || n == 0x205f
      || n == 0x3000

def ofChars? (cs : List Char) : Option Directive := readFrom cs {} .start 0 (trimmed cs)

/-- Whether a directive applies to a target: targets match by their beginning. -/
def appliesTo (d : Directive) (target : List Char) : Bool :=
  !d.inSpan && (d.target?.getD []).isPrefixOf target

/-- The length that decides between directives; a lone level comes last. -/
def weight (d : Directive) : Nat :=
  match d.target? with
  | none => 0
  | some target => target.length + 1

end Directive

/-- Directives in the order in which they were given. -/
abbrev LogFilter := List Directive

namespace LogFilter

/-- Splits at commas. -/
def parts : List Char → List (List Char)
  | [] => [[]]
  | c :: cs =>
    if c = ',' then [] :: parts cs
    else
      match parts cs with
      | [] => [[c]]
      | p :: ps => (c :: p) :: ps

/-- A filter without directives lets errors through. -/
def ofText? (text : String) : Option LogFilter := do
  let ds ← ((parts text.toList).filter fun p => !p.isEmpty).mapM Directive.ofChars?
  return if ds.isEmpty then [{ level := some .error }] else ds

/-- The directive that decides about a target: one with the longest text, of these the last one. -/
def decisive? (f : LogFilter) (target : List Char) : Option Directive :=
  (f.filter (·.appliesTo target)).foldl
    (fun best? d =>
      match best? with
      | none => some d
      | some best => if best.weight ≤ d.weight then some d else some best) none

def admits (f : LogFilter) (r : LogRecord) : Bool :=
  (f.decisive? r.target.toList).any fun d => d.level.admits r.level

end LogFilter

end RecordRows
