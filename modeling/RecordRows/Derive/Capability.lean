import RecordRows.Source.Token

/-!
Capabilities of identifier types. A set of them implies traits, which are closed under what the
traits require of one another; one capability is implemented instead of derived.
-/
namespace RecordRows

open Source

inductive Capability where
  | partialEq | eq | partialOrd | ord | hash | debug | clone | copy | default | display
deriving DecidableEq, Repr

namespace Capability

def name : Capability → String
  | .partialEq => "PartialEq"
  | .eq => "Eq"
  | .partialOrd => "PartialOrd"
  | .ord => "Ord"
  | .hash => "Hash"
  | .debug => "Debug"
  | .clone => "Clone"
  | .copy => "Copy"
  | .default => "Default"
  | .display => "Display"

def all : List Capability :=
  [.partialEq, .eq, .partialOrd, .ord, .hash, .debug, .clone, .copy, .default, .display]

def ofName? (s : String) : Option Capability := all.find? (·.name == s)

end Capability

/-- Traits that can be derived. -/
inductive DerivedTrait where
  | debug | clone | copy | default | partialEq | eq | partialOrd | ord | hash
deriving DecidableEq, Repr

namespace DerivedTrait

/-- All traits in the order in which they are written. -/
def all : List DerivedTrait :=
  [.debug, .clone, .copy, .default, .partialEq, .eq, .partialOrd, .ord, .hash]

def phrase : DerivedTrait → Phrase
  | .debug => Phrase.spelled ":: core :: fmt :: Debug"
  | .clone => Phrase.spelled ":: core :: clone :: Clone"
  | .copy => Phrase.spelled ":: core :: marker :: Copy"
  | .default => Phrase.spelled ":: core :: default :: Default"
  | .partialEq => Phrase.spelled ":: core :: cmp :: PartialEq"
  | .eq => Phrase.spelled ":: core :: cmp :: Eq"
  | .partialOrd => Phrase.spelled ":: core :: cmp :: PartialOrd"
  | .ord => Phrase.spelled ":: core :: cmp :: Ord"
  | .hash => Phrase.spelled ":: core :: hash :: Hash"

end DerivedTrait

/-- The traits a capability needs, with those they require. -/
def Capability.derived : Capability → List DerivedTrait
  | .partialEq => [.partialEq]
  | .eq => [.partialEq, .eq]
  | .partialOrd => [.partialEq, .partialOrd]
  | .ord => [.partialEq, .eq, .partialOrd, .ord]
  | .hash => [.hash]
  | .debug => [.debug]
  | .clone => [.clone]
  | .copy => [.clone, .copy]
  | .default => [.default]
  | .display => []

/-- A set of capabilities. -/
structure Capabilities where
  contains : Capability → Bool

namespace Capabilities

def ofList (cs : List Capability) : Capabilities := ⟨cs.contains⟩

/-- Equality, order and debug printing. -/
def standard : Capabilities := .ofList [.eq, .ord, .debug]

/-- The members in their own order. -/
def toList (s : Capabilities) : List Capability := Capability.all.filter s.contains

def equal (s t : Capabilities) : Bool := s.toList == t.toList

/-- The traits to derive, each once. -/
def derived (s : Capabilities) : List DerivedTrait :=
  DerivedTrait.all.filter fun t => s.toList.any fun c => c.derived.contains t

end Capabilities

end RecordRows
