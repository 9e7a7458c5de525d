import RecordRows.Text.Words

/-!
Case rules for table and column names. Two rules map the whole name; the others rewrite each word
and join the words again.
-/
namespace RecordRows

open Text

inductive CaseRule where
  | snake | camel | pascal | screamingSnake | kebab | lower | upper | title | train | cobol
deriving DecidableEq, Repr

namespace CaseRule

/-- How a rule is written, in lower case. -/
def spelling : CaseRule → String
  | .snake => "snake_case"
  | .camel => "camelcase"
  | .pascal => "pascalcase"
  | .screamingSnake => "screaming_snake_case"
  | .kebab => "kebab-case"
  | .lower => "lowercase"
  | .upper => "uppercase"
  | .title => "title case"
  | .train => "train-case"
  | .cobol => "cobol-case"

def all : List CaseRule :=
  [.snake, .camel, .pascal, .screamingSnake, .kebab, .lower, .upper, .title, .train, .cobol]

/-- Letter case does not matter in the name of a rule. -/
def ofName? (name : String) : Option CaseRule :=
  all.find? fun r => r.spelling.toList == Text.lower name.toList

/-- The words of a name, each rewritten, with a separator between them. -/
def delimited (separator : List Char) (word : List Char → List Char) (name : List Char) : List Char :=
  joinWith separator ((words name).map word)

def convertChars : CaseRule → List Char → List Char
  | .snake, name => delimited ['_'] Text.lower name
  | .screamingSnake, name => delimited ['_'] Text.upper name
  | .kebab, name => delimited ['-'] Text.lower name
  | .cobol, name => delimited ['-'] Text.upper name
  | .title, name => delimited [' '] capital name
  | .train, name => delimited ['-'] capital name
  | .pascal, name => delimited [] capital name
  | .camel, name =>
    match words name with
    | [] => []
    | w :: ws => Text.lower w ++ joinWith [] (ws.map capital)
  | .lower, name => Text.lower name
  | .upper, name => Text.upper name

def convert (r : CaseRule) (name : String) : String := String.ofList (r.convertChars name.toList)

end CaseRule

end RecordRows
