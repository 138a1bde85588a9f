import ResourceLint.Program

/-!
# Imports

Which module a qualifier such as `schema` in `schema.Resource` refers to. Qualifiers belong to
files: the imports of the file come first, then the dependencies of the whole module.
-/

namespace ResourceLint

def Import.lastPart (i : Import) : String :=
  QualifiedName.lastPart i.path

/-- The name an import is visible under: the one its file gives it, else the short name of the
imported module, else the end of its path. -/
def Import.visibleName (p : Program) (i : Import) : String :=
  match i.localName with
  | some name => name
  | none =>
      match p.module? i.path with
      | some m => m.name
      | none => i.lastPart

namespace Program

/-- The first import of the file that is visible under the qualifier. -/
def visibleImport? (p : Program) (qualifier : String) (file : Nat) (m : Module) :
    Option Import :=
  (m.file? file).bind fun f => f.imports.find? fun i => i.visibleName p = qualifier

/-- The path or module id that a qualifier used in a file of `m` stands for. -/
def qualifierTarget (p : Program) (qualifier : String) (file : Nat) (m : Module) :
    Except InferError String :=
  if qualifier = m.id then .ok m.id
  else
    match p.visibleImport? qualifier file m with
    | some i => .ok i.path
    | none =>
        match m.dependencies.find? qualifier with
        | some id => .ok id
        | none => .error (.unknownImport qualifier m.id)

/-- The module that `m` reaches under a name: itself, a dependency, or any loaded module. -/
def reach (p : Program) (m : Module) (name : String) : Except InferError Module :=
  let id := if name = m.id then name else (m.dependencies.find? name).getD name
  match p.module? id with
  | some target => .ok target
  | none => .error (.unknownModule name)

end Program

end ResourceLint
