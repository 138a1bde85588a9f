import ResourceLint.Finding
import ResourceLint.Inference
import ResourceLint.Resource
import ResourceLint.SyntaxTree.Traversal

/-!
# Checking setters

Lifecycle functions store values with calls `d.Set(key, value)` on the resource data they are
given. Each such call is checked against the schema of the resource: the key has to be a field
and the value has to fit what the field takes.
-/

namespace ResourceLint

/-- The parameter that holds the resource data. -/
inductive DataParam where
  | named (name : String)
  /-- The parameter has no name, so nothing can be set on it. -/
  | unnamed
  /-- The function has too few or too many parameters to be a lifecycle function. -/
  | unsupported (arity : Nat)
  deriving DecidableEq, Repr, Inhabited

def DataParam.ofName : Option String → DataParam
  | some name => .named name
  | none => .unnamed

/-- The second parameter of `(ctx, d, meta)`, the first of `(d, meta)`. -/
def FuncDecl.dataParam (f : FuncDecl) : DataParam :=
  match f.parameters with
  | [_, holder, _] => .ofName holder
  | [holder, _] => .ofName holder
  | names => .unsupported names.length

/-- Whether a callee is `holder.Set`. -/
def Expr.isSetter (holder : String) (fn : Expr) : Bool :=
  match fn.node with
  | .selector x sel => sel = "Set" && x.identName? = some holder
  | _ => false

def Expr.isSetterCall (holder : String) (e : Expr) : Bool :=
  match e.node with
  | .call fn _ => fn.isSetter holder
  | _ => false

/-- A call of `Set` with a literal key. -/
structure Setter where
  span : Span
  key : String
  value : Expr

/-- Calls with computed keys, or with another number of arguments, cannot be checked. -/
def Expr.setter? (e : Expr) : Option Setter :=
  match e.node with
  | .call _ [key, value] => key.stringText?.map fun text => ⟨e.span, text, value⟩
  | _ => none

/-- The setters on `holder` in a function's body, in source order. Calls inside the arguments of
another setter are not looked at. -/
def FuncDecl.setters (f : FuncDecl) (holder : String) : List Setter :=
  ((Stmt.walkAll (Expr.isSetterCall holder) f.body).filter (Expr.isSetterCall holder)).filterMap
    Expr.setter?

namespace Check

open InferM

/-- Whether a value of type `t` fits a field; structs as a whole fit nothing. -/
def fitsField (p : Program) (ask : Ask) (settings : Settings) (t : Ty) (field : SchemaField) :
    InferM Bool := do
  match ← attempt (Inference.fits p ask t field.expected settings.overrides) with
  | .ok fits => return fits
  | .error _ => return false

/-- At most one finding for each setter. -/
def ofSetter (p : Program) (ask : Ask) (settings : Settings) (target : ResourceDef)
    (s : Setter) : InferM (Option Finding) := do
  let location := p.sources.location s.span
  match target.schema.find? s.key with
  | none => return some (.missingField location s.key target.name)
  | some field =>
      match ← attempt (ask (.expr s.value) target.module) with
      | .error cause => return some (.unresolved location s.key cause)
      | .ok .stub => return some (.undetermined location s.key)
      | .ok t =>
          if ← fitsField p ask settings t field then return none
          else
            return some (.typeMismatch location s.key t.qualifiedName field.expected.text)

variable (p : Program) (depth : Nat) (settings : Settings)

def ofSetters (target : ResourceDef) : List Setter → InferM Report
  | [] => return []
  | s :: rest => do
      let finding ← ofSetter p (infer p depth) settings target s
      return finding.toList ++ (← ofSetters target rest)

def ofFunction (target : ResourceDef) (f : FuncDecl) : InferM Report :=
  match f.dataParam with
  | .named holder => ofSetters p depth settings target (f.setters holder)
  | .unnamed => return []
  | .unsupported arity =>
      return [.unsupportedSignature (p.sources.location f.span) f.name arity]

def ofFunctions (target : ResourceDef) : List FuncDecl → InferM Report
  | [] => return []
  | f :: rest => do
      let findings ← ofFunction p depth settings target f
      return findings ++ (← ofFunctions target rest)

/-- The findings about the lifecycle functions of a resource. -/
def ofResource (target : ResourceDef) : InferM Report :=
  ofFunctions p depth settings target target.lifecycle

/-- The findings about the resource that a generator of `m` defines. -/
def ofGenerator (m : Module) (f : FuncDecl) : InferM Report :=
  match ResourceDef.load p m f settings with
  | .ok target => ofResource p depth settings target
  | .error cause => return [.definition (p.sources.location f.span) f.name cause]

def ofGenerators (m : Module) : List FuncDecl → InferM Report
  | [] => return []
  | f :: rest => do
      let findings ← ofGenerator p depth settings m f
      return findings ++ (← ofGenerators m rest)

/-- Modules without generators are left alone. -/
def ofModule (m : Module) : InferM Report := do
  match m.generators settings with
  | [] => return []
  | fs =>
      match ← attempt (scope p m.id) with
      | .error cause => return [.scope m.id cause]
      | .ok _ => ofGenerators p depth settings m fs

def ofModules : List Module → InferM Report
  | [] => return []
  | m :: rest => do
      let findings ← ofModule p depth settings m
      return findings ++ (← ofModules rest)

end Check

/-- The findings about all resources of a program, made within one session. There is no report
when an inference is deeper than `depth`. -/
def Program.lint (p : Program) (depth : Nat) (settings : Settings) : Option Report :=
  match Check.ofModules p depth settings p.modules Session.new with
  | some (.ok report, _) => some report
  | _ => none

end ResourceLint
