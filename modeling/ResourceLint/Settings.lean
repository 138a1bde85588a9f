import ResourceLint.Ty.Match

/-!
# Settings

What a run takes as resource definitions and how it reads their schemas. A settings file may
leave everything out.
-/

namespace ResourceLint

structure Settings where
  /-- The path under which files import the package that defines resources. -/
  schemaPath : String
  /-- The entries of a resource definition that name its lifecycle functions. -/
  lifecycleKeys : List String
  /-- Categories by the names that schemas use for the types of fields. -/
  categories : Table Category
  overrides : Overrides
  deriving DecidableEq, Repr

namespace Settings

def defaultSchemaPath : String :=
  "github.com/hashicorp/terraform-plugin-sdk/v2/helper/schema"

/-- The type `Set` of the package that defines resources counts as a list. -/
def defaultOverrides (schemaPath : String) : Overrides :=
  Table.ofList [(schemaPath ++ ".Set", .array)]

protected def default : Settings where
  schemaPath := defaultSchemaPath
  lifecycleKeys := ["CreateContext", "Create", "ReadContext", "Read", "UpdateContext", "Update"]
  categories := Table.ofList
    [("TypeString", .string), ("TypeInt", .int), ("TypeList", .array), ("TypeSet", .array),
      ("TypeMap", .map), ("TypeBool", .bool), ("TypeFloat", .float)]
  overrides := defaultOverrides defaultSchemaPath

instance : Inhabited Settings := ⟨Settings.default⟩

def isLifecycleKey (s : Settings) (key : String) : Bool :=
  s.lifecycleKeys.contains key

/-- What values a field declared with that type takes. Names that are no category stand for
themselves. -/
def expectation (s : Settings) (typeName : String) : Expectation :=
  match s.categories.find? typeName with
  | some c => .category c
  | none => .named typeName

end Settings

/-- The contents of a settings file. -/
structure SettingsFile where
  schemaPath : Option String
  lifecycleKeys : Option (List String)
  categories : Option (Table Category)
  overrides : Option Overrides
  deriving DecidableEq, Repr, Inhabited

/-- Settings left out have their default values; the default overrides follow the path of the
schema package. -/
def Settings.ofFile (f : SettingsFile) : Settings :=
  let schemaPath := f.schemaPath.getD Settings.default.schemaPath
  { schemaPath
    lifecycleKeys := f.lifecycleKeys.getD Settings.default.lifecycleKeys
    categories := f.categories.getD Settings.default.categories
    overrides := f.overrides.getD (defaultOverrides schemaPath) }

end ResourceLint
