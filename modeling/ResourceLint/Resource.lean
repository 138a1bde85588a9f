import ResourceLint.Resource.Field
import ResourceLint.Resource.Generator

/-!
# Resource definitions

The definition that a generator returns: the schema of the resource and its lifecycle functions.
-/

namespace ResourceLint

structure ResourceDef where
  name : String
  module : String
  schema : Schema
  lifecycle : List FuncDecl
  deriving Inhabited

namespace ResourceDef

/-- The function named by a lifecycle entry. Without a binding it is declared in another file of
the module. -/
def lifecycleFunction? (m : Module) (value : Expr) : Option FuncDecl :=
  match value.node with
  | .ident _ (some (.func f)) => some f
  | .ident name none => m.plainFunction? name
  | _ => none

/-- Take over one element of the composite literal that defines the resource. -/
def addElement (p : Program) (m : Module) (settings : Settings) (d : ResourceDef)
    (element : Expr) : Except LoadError ResourceDef :=
  match element.node with
  | .keyValue ⟨_, .ident key _⟩ value =>
      if settings.isLifecycleKey key then
        .ok { d with lifecycle := d.lifecycle ++ (lifecycleFunction? m value).toList }
      else if key = "Schema" then
        match value.node with
        | .composite _ elements => do
            return { d with schema := ← p.readSchema m settings elements }
        | _ => .error .invalidSchema
      else .ok d
  | _ => .ok d

/-- The definition that a generator of module `m` returns. -/
def load (p : Program) (m : Module) (f : FuncDecl) (settings : Settings) :
    Except LoadError ResourceDef := do
  match ← f.returnedElements with
  | none => throw (.noReturn f.name)
  | some elements => elements.foldlM (addElement p m settings) ⟨f.name, m.id, ∅, []⟩

end ResourceDef

end ResourceLint
