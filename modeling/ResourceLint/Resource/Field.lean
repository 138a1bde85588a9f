import ResourceLint.Program.Import
import ResourceLint.Resource.Composite
import ResourceLint.Schema
import ResourceLint.Settings

/-!
# Declared fields

How the schema of a resource is read from the map that declares it. The last entry that says
something about a field counts, and so does the last declaration of a field.
-/

namespace ResourceLint

/-- What the declaration of a field says so far. -/
structure FieldDraft where
  typeName : String
  readOnly : Bool
  deriving DecidableEq, Repr, Inhabited

namespace FieldDraft

/-- Without entries nothing is said of the type, and users cannot set the field. -/
def initial : FieldDraft :=
  ⟨"", true⟩

/-- One entry of a field's declaration. -/
def addEntry (field : String) (shape : FieldDraft) (entry : Expr) : Except LoadError FieldDraft :=
  match entry.node with
  | .keyValue key value =>
      match key.identName? with
      | none => .error (.unsupportedField field)
      | some "Type" =>
          match value.node with
          | .selector _ sel => .ok { shape with typeName := sel }
          | _ => .error (.invalidTypeField field)
      | some "Optional" | some "Required" =>
          if value.identName? = some "false" then .ok shape
          else .ok { shape with readOnly := false }
      | some _ => .ok shape
  | _ => .error (.unsupportedField field)

def ofEntries (field : String) (entries : List Expr) : Except LoadError FieldDraft :=
  entries.foldlM (addEntry field) initial

end FieldDraft

/-- The function that a call of `fn` calls to build a field, in this module or an imported one. -/
def Program.fieldBuilder (p : Program) (m : Module) (fn : Expr) :
    Except LoadError (Option FuncDecl) :=
  match fn.node with
  | .ident _ (some (.func f)) => .ok (some f)
  | .ident name _ => .ok (m.plainFunction? name)
  | .selector x sel =>
      match x.identName? with
      | none => .ok none
      | some qualifier => do
          let path ← (p.qualifierTarget qualifier x.span.file m).mapError .infer
          let target ← (p.reach m path).mapError .infer
          match target.plainFunction? sel with
          | some f => return some f
          | none => throw (.infer (.unknownFunction sel target.id))
  | _ => .ok none

/-- The shape of a field declared by a composite literal or by calling a function that returns
one. There is none when the function or its return statement cannot be found. -/
def Program.fieldDraft (p : Program) (m : Module) (field : String) (value : Expr) :
    Except LoadError (Option FieldDraft) :=
  match value.compositeElements? with
  | some entries => (FieldDraft.ofEntries field entries).map some
  | none =>
      match value.node with
      | .call fn _ => do
          match ← p.fieldBuilder m fn with
          | none => return none
          | some f =>
              match ← f.returnedElements with
              | none => return none
              | some entries => (FieldDraft.ofEntries field entries).map some
      | _ => .error (.unsupportedField field)

/-- Add the field that an element of the schema's map declares. -/
def Program.addField (p : Program) (m : Module) (settings : Settings) (schema : Schema)
    (element : Expr × Nat) : Except LoadError Schema :=
  match element.1.node with
  | .keyValue key value =>
      match key.stringText? with
      | none => .error (.nonStringKey element.2)
      | some name => do
          match ← p.fieldDraft m name value with
          | none => return schema
          | some shape =>
              return schema.insert name ⟨settings.expectation shape.typeName, shape.readOnly⟩
  | _ => .error (.notKeyValue element.2)

/-- The schema that the elements of a map declare. -/
def Program.readSchema (p : Program) (m : Module) (settings : Settings) (elements : List Expr) :
    Except LoadError Schema :=
  elements.zipIdx.foldlM (p.addField m settings) ∅

end ResourceLint
