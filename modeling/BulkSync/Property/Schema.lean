import BulkSync.Fault

/-!
# Schemas of node properties

A schema declares properties in order, each with a key, a kind and whether it is part of the result of
a computation. Declaring a key a second time is refused; a schema that was read from a text may
nevertheless declare one key several times.
-/

namespace BulkSync

/-- Whether a property is part of the result. -/
inductive Visibility where
  | exposed
  | internal
  deriving DecidableEq, Repr, Inhabited

/-- The word for a visibility in texts. -/
def Visibility.name : Visibility → String
  | .exposed => "Public"
  | .internal => "Private"

/-- The declaration of a property. -/
structure Property where
  key : String
  kind : PropertyKind
  visibility : Visibility := .exposed
  deriving DecidableEq, Repr

/-- The declarations of properties, in order. -/
structure Schema where
  properties : List Property
  deriving DecidableEq, Repr

namespace Schema

/-- The schema without properties. -/
def empty : Schema := ⟨[]⟩

/-- The number of declarations. -/
def size (s : Schema) : Nat := s.properties.length

/-- The first declaration of a key. -/
def get? (s : Schema) (key : String) : Option Property := s.properties.find? (·.key == key)

/-- Declares a property behind the others; refused if its key is declared already. -/
def add (s : Schema) (p : Property) : Except Fault Schema :=
  if (s.get? p.key).isSome then .error (.declaredTwice p.key)
  else .ok ⟨s.properties ++ [p]⟩

/-- Declares properties one after the other. -/
def addAll (s : Schema) (ps : List Property) : Except Fault Schema := ps.foldlM add s

/-- The schema that declares these properties. -/
def ofList (ps : List Property) : Except Fault Schema := empty.addAll ps

/-- The properties that are part of the result. -/
def exposed (s : Schema) : List Property := s.properties.filter (·.visibility == .exposed)

end Schema
end BulkSync
