import ResourceLint.Program.Import
import ResourceLint.Settings

/-!
# Generators

A generator is a function that builds a resource: its only result is a pointer to `Resource` of
the schema package, under the name that the function's file has for that package.
-/

namespace ResourceLint

/-- The name under which a file uses the package at `path`. -/
def SourceFile.nameOfPackage? (f : SourceFile) (path : String) : Option String :=
  (f.imports.find? fun i => i.path = path).map fun i => i.localName.getD i.lastPart

/-- Whether an expression is `*package.Resource`. -/
def Expr.isResourcePointer (e : Expr) (package : String) : Bool :=
  match e.node with
  | .star ⟨_, .selector x sel⟩ => sel = "Resource" && x.identName? = some package
  | _ => false

/-- A function without receiver and with a pointer to a resource as its only result. -/
def FuncDecl.isGenerator (f : FuncDecl) (package : String) : Bool :=
  f.receiver.isNone &&
    match f.results with
    | [result] => result.names.length ≤ 1 && result.type.isResourcePointer package
    | _ => false

namespace Module

def isGenerator (m : Module) (settings : Settings) (f : FuncDecl) : Bool :=
  match (m.file? f.span.file).bind fun file => file.nameOfPackage? settings.schemaPath with
  | some package => f.isGenerator package
  | none => false

/-- The generators of a module in declaration order. -/
def generators (m : Module) (settings : Settings) : List FuncDecl :=
  m.functions.filter (m.isGenerator settings)

end Module

/-- All generators with their modules, in ascending order of module ids. -/
def Program.generators (p : Program) (settings : Settings) : List (Module × FuncDecl) :=
  p.modules.flatMap fun m => (m.generators settings).map fun f => (m, f)

end ResourceLint
