import RecordRows.Catalogue.Record

/-!
A catalogue of records of all kinds: named and positional, generic, with optional fields, with
identifiers of other records, and with all ways of naming.
-/
namespace RecordRows

open Source

namespace Catalogue

/-- Named fields in their braces. -/
def braced (fields : String) : String := "\x7b" ++ fields ++ "\x7d"

/-- The functions that records of the catalogue name tables and columns with. -/
def call (path : Phrase) (name : String) : String :=
  let function := path.text
  if function == "crate :: records :: naming :: quoted" then "\"" ++ name ++ "\""
  else if function == "naming :: plural" then String.ofList (Text.lower name.toList) ++ "s"
  else if function == "naming :: prefixed" then "c_" ++ name
  else if function == "naming :: fixed" then "fixed"
  else name

/-- The name of an entity, its options, and its fields. -/
structure EntityText where
  name : String
  options : String
  fields : String

def entities : List EntityText := [
  ⟨"Record", "", "e_field: String, e_field2: i32, e_field3: bool"⟩,
  ⟨"Person",
    "table_naming = \"snake_case\", id_type = \"i64\", id_derive(Eq, Ord, Debug, Clone, Copy)",
    "name: String, age: i32"⟩,
  ⟨"UserAccount",
    "table_naming = \"snake_case\", id_type = \"i64\", "
      ++ "id_derive(Eq, Ord, Hash, Debug, Clone, Copy, Display)",
    "id: i64, name: String, email: Option<String>, active: bool"⟩,
  ⟨"AuditLog",
    "table_naming = \"crate::records::naming::quoted\", column_naming = \"kebab-case\"",
    "created_at: i64, actor_name: String"⟩,
  ⟨"OrderItem",
    "table_naming = \"Train-Case\", column_naming = \"SCREAMING_SNAKE_CASE\", id_type = \"u8\", "
      ++ "id_derive(Hash, Eq, Default, Display)",
    "sku: String, unit_price: i64"⟩,
  ⟨"Invoice",
    "table_naming = \"naming::plural\", column_naming = \"naming::prefixed\", "
      ++ "id_name = \"InvoiceKey\", id_derive(Display, Default)",
    "total: BigInt, r#type: String"⟩,
  ⟨"Sample",
    "table_naming = \"naming::fixed\", id_type = \"f64\", "
      ++ "id_derive(PartialEq, PartialOrd, Clone, Copy)",
    "reading: f32"⟩,
  ⟨"Code", "id_type = \"String\", column_naming = \"Title Case\", id_derive(Ord, Display)",
    "r#match: Value, createdAt2: Option<Option<u8>>, ID: PersonId, refersTo: Option<RecordId>"⟩]

/-- The name of a record that is no entity, and its body. -/
def plainRecords : List (String × String) := [
  ("Reading", "(u16, Option<String>, Vec<u8>);"),
  ("Measurement", "(String, f64, Option<i64>);"),
  ("Everything", braced
    ("a: bool, b: i8, c: i16, d: i32, e: i64, f: u8, g: u16, h: u32, i: f32, j: f64, k: String, "
      ++ "l: Vec<u8>, m: BigInt, n: Value, o: Option<i8>"))]

def addEntity (c : Catalogue) (e : EntityText) : Catalogue :=
  c.add e.name [] true (s!"#[entity({e.options})] struct {e.name} " ++ braced e.fields)

def addPlain (c : Catalogue) (r : String × String) : Catalogue :=
  c.add r.1 [] false (s!"struct {r.1} " ++ r.2)

/-- Adds the labelled record at a type. -/
def addLabeled (c : Catalogue) (argument : String) : Catalogue :=
  match c.type? argument with
  | none => c
  | some t =>
    c.add s!"Labeled<{argument}>" [("T", t)] false
      ("struct Labeled<T> " ++ braced "label: String, value: T")

def standard : Catalogue :=
  ["i64", "bool", "Option<String>", "PersonId"].foldl addLabeled
    (plainRecords.foldl addPlain (entities.foldl addEntity {}))

end Catalogue

end RecordRows
