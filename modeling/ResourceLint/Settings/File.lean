import ResourceLint.Settings
import ResourceLint.Text.Contents
import ResourceLint.Toml.Document

/-!
# Settings files

A settings file is a TOML document with four keys, each of which may be left out. Any other key
makes the file invalid, and so does a value of the wrong form.
-/

namespace ResourceLint

namespace Toml.Value

def text? : Value → Option String
  | .text s => some s
  | _ => none

def texts? : Value → Option (List String)
  | .list items => items.mapM text?
  | _ => none

/-- A category by its name. The name may also be the only key of a table, with an empty table or
an empty list as its value. -/
def category? : Value → Option Category
  | .text s => Category.ofText? s
  | .table _ ⟨[(name, .table _ ⟨[]⟩)]⟩ | .table _ ⟨[(name, .list [])]⟩ => Category.ofText? name
  | _ => none

def categories? : Value → Option (Table Category)
  | .table _ t => do
      let entries ← t.entries.mapM fun entry => (category? entry.2).map fun c => (entry.1, c)
      return Table.ofList entries
  | _ => none

end Toml.Value

namespace SettingsFile

def keys : List String :=
  ["schema_import_path", "operating_functions", "type_mapping", "wrapper_overrides"]

/-- The value of a key that may be left out but has to have the right form if it is there. -/
def optional {α : Type} (t : Table Toml.Value) (key : String)
    (read : Toml.Value → Option α) : Option (Option α) :=
  match t.find? key with
  | none => some none
  | some value => (read value).map some

def ofTable? (t : Table Toml.Value) : Option SettingsFile := do
  guard (t.keys.all fun key => keys.contains key)
  return {
    schemaPath := ← optional t "schema_import_path" Toml.Value.text?
    lifecycleKeys := ← optional t "operating_functions" Toml.Value.texts?
    categories := ← optional t "type_mapping" Toml.Value.categories?
    overrides := ← optional t "wrapper_overrides" Toml.Value.categories? }

def ofText? (text : String) : Option SettingsFile := do
  ofTable? (← Toml.document? text)

end SettingsFile

/-- Why settings cannot be taken from a file. -/
inductive SettingsError where
  /-- The file is missing or holds no text. -/
  | unreadable
  /-- The text is no valid settings file. -/
  | invalid
  deriving DecidableEq, Repr, Inhabited

namespace Settings

def ofText (text : String) : Except SettingsError Settings :=
  match SettingsFile.ofText? text with
  | some file => .ok (ofFile file)
  | none => .error .invalid

def ofContents (contents : Option ByteArray) : Except SettingsError Settings :=
  match Text.ofContents? contents with
  | some text => ofText text
  | none => .error .unreadable

end Settings

end ResourceLint
