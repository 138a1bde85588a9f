import ResourceLint.Ty.Match

/-!
# Schemas

The fields of a resource: what values they take, and who may set them.
-/

namespace ResourceLint

structure SchemaField where
  expected : Expectation
  /-- Neither optional nor required: users cannot configure the field. -/
  readOnly : Bool
  deriving DecidableEq, Repr, Inhabited

/-- Fields by name. -/
abbrev Schema := Table SchemaField

namespace Schema

/-- Names of the fields that users can configure. -/
def arguments (s : Schema) : List String :=
  (s.entries.filter fun entry => !entry.2.readOnly).map Prod.fst

/-- Names of all fields. -/
def attributes (s : Schema) : List String :=
  s.keys

end Schema

end ResourceLint
