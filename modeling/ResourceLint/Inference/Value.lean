import ResourceLint.Inference.Member
import ResourceLint.Program.Import
import ResourceLint.Ty.Match

/-!
# Types of expressions and declarations

One step of inference for every form of expression and for declared types. Only as much is told
as is needed to classify a value, so expressions that stand for no value have the stub type
instead of failing.
-/

namespace ResourceLint.Inference

open InferM

def typeOfLiteral : LiteralKind → Except InferError Ty
  | .string => .ok (.predeclared "string")
  | .int => .ok (.predeclared "int")
  | .float => .ok (.predeclared "float")
  | .map => .ok (.predeclared "map")
  | .char => .error (.unsupportedLiteral "Char")
  | .imag => .error (.unsupportedLiteral "Imag")

/-- The item type of an array or the value type of a map. -/
def elementType (t : Ty) : Except InferError Ty :=
  match t.unwrap with
  | .array item => .ok item
  | .map _ value => .ok value
  | other => .error (.invalidIndex other.qualifiedName)

/-- The item type of an array. -/
def rangeType (t : Ty) : Except InferError Ty :=
  match t.unwrap with
  | .array item => .ok item
  | other => .error (.invalidRange other.qualifiedName)

/-- The type of the result at a position. -/
def resultAt (sig : Signature) (position : Nat) : Except InferError Ty :=
  match sig.results[position]? with
  | some t => .ok t
  | none => .error (.missingResult sig.name position)

/-- The result of calling a predeclared function. -/
def predeclaredResult (ask : Ask) (name : String) (args : List Expr) (home : String) :
    InferM Ty :=
  match name with
  | "make" | "new" | "append" =>
      match args with
      | arg :: _ => ask (.expr arg) home
      | [] => return .stub
  | "len" | "cap" | "copy" => return .predeclared "int"
  | "real" | "imag" => return .predeclared "float"
  | _ => return .stub

/-- The name of a predeclared function that an expression calls by its bare name. -/
def predeclaredCallee? (fn : Expr) : Option String :=
  match fn.node with
  | .ident name none => if Predeclared.isFunction name then some name else none
  | _ => none

/-- Calling a value of type `t`. A call of a type is a conversion, whose only result is the type
itself. -/
def calleeSignature (t : Ty) (home : String) : Except InferError Signature :=
  match t with
  | .func sig => .ok sig
  | .simple _ | .wrapper .. => .ok ⟨t.name, t.owner?.getD home, none, [], [t]⟩
  | other => .error (.notCallable other.qualifiedName)

/-- The signature of whatever a call calls. -/
def calledSignature (ask : Ask) (fn : Expr) (args : List Expr) (home : String) :
    InferM Signature :=
  match predeclaredCallee? fn with
  | some name => do
      let result ← predeclaredResult ask name args home
      return ⟨name, home, none, [], [result]⟩
  | none => do ofExcept (calleeSignature (← ask (.expr fn) home) home)

/-- The type of the value that an assignment gives to its target at a position. -/
def assignedType (ask : Ask) (name : String) (position : Nat) (values : List Expr)
    (home : String) : InferM Ty :=
  match values with
  | [value] =>
      match value.node with
      | .call fn args => do ofExcept (resultAt (← calledSignature ask fn args home) position)
      | _ => ask (.expr value) home
  | _ => fail (.tooComplexAssignment name values.length)

/-- The position of the first target that is the identifier `name`. -/
def targetPosition? (stmt : Assignment) (name : String) : Option Nat :=
  stmt.targets.findIdx? fun target => target.identName? = some name

/-- The type an identifier has by the declaration it is bound to. -/
def boundType (p : Program) (ask : Ask) (name : String) (home : String) : Binding → InferM Ty
  | .assign stmt =>
      match targetPosition? stmt name with
      | some position => assignedType ask name position stmt.values home
      | none => fail (.missingAssignmentTarget name)
  | .type d => ask (.decl d) home
  | .field g => ask (.expr g.type) home
  | .value spec =>
      match spec.type with
      | some type => ask (.expr type) home
      | none =>
          match spec.names.idxOf? name with
          | some position => assignedType ask name position spec.values home
          | none => fail (.missingAssignmentTarget name)
  | .func f => return .func (← declaredSignature p ask f home)

/-- The type of an identifier without a binding. -/
def unboundType (name home : String) : Ty :=
  if Predeclared.contains name then .predeclared name else .reference name (some home)

/-- The type of a name at the top level of a module. -/
def topLevelType (p : Program) (ask : Ask) (name home : String) : InferM Ty := do
  let symbols := (← scope p home).symbols
  if symbols.functions.contains name then
    return .func (← namedSignature p ask name home)
  else
    match symbols.types.find? name with
    | some d => ask (.decl d) home
    | none =>
        match symbols.values.find? name with
        | some spec =>
            match spec.type with
            | some type => ask (.expr type) home
            | none => assignedType ask name ((spec.names.idxOf? name).getD 0) spec.values home
        | none => return unboundType name home

/-- The type of `qualifier.sel` for a qualifier without a binding: a member of an imported
module, or else a member of a top-level name of this module. -/
def qualifiedType (p : Program) (ask : Ask) (qualifier : String) (file : Nat)
    (sel home : String) : InferM Ty := do
  let current ← ofExcept (p.require home)
  match p.qualifierTarget qualifier file current with
  | .ok path =>
      let target ← ofExcept (p.reach current path)
      topLevelType p ask sel target.id
  | .error e =>
      if (← scope p home).symbols.declares qualifier then
        let t ← topLevelType p ask qualifier home
        typeOfMember p ask t sel home
      else fail e

def selectorType (p : Program) (ask : Ask) (x : Expr) (sel home : String) : InferM Ty :=
  match x.node with
  | .ident qualifier none => qualifiedType p ask qualifier x.span.file sel home
  | _ => do
      let t ← ask (.expr x) home
      typeOfMember p ask t sel home

def unaryType (ask : Ask) (op : UnaryOp) (x : Expr) (home : String) : InferM Ty :=
  match op with
  | .addr | .recv | .neg | .plus | .xor => ask (.expr x) home
  | .not => return .predeclared "bool"
  | .range => do ofExcept (rangeType (← ask (.expr x) home))

/-- The type of an expression. -/
def exprType (p : Program) (ask : Ask) (e : Expr) (home : String) : InferM Ty :=
  match e.node with
  | .ident name none => return unboundType name home
  | .ident name (some binding) => boundType p ask name home binding
  | .literal kind _ => ofExcept (typeOfLiteral kind)
  | .selector x sel => selectorType p ask x sel home
  | .call fn args => do ofExcept (resultAt (← calledSignature ask fn args home) 0)
  | .index x _ => do ofExcept (elementType (← ask (.expr x) home))
  | .slice x | .star x | .paren x => ask (.expr x) home
  | .unary op x => unaryType ask op x home
  | .binary op x _ => if op.isTruthValued then return .predeclared "bool" else ask (.expr x) home
  | .typeAssert _ (some type) => ask (.expr type) home
  | .typeAssert x none => ask (.expr x) home
  | .composite (some type) _ => ask (.expr type) home
  | .composite none _ => return .stub
  | .funcLit params results _ | .funcType params results =>
      inPlaceFunc p ask params results e.span home
  | .arrayType elem | .ellipsis (some elem) => return .array (← ask (.expr elem) home)
  | .mapType key value => do
      let value ← ask (.expr value) home
      let key ← ask (.expr key) home
      ofExcept (Ty.mkMap key value)
  | .chanType .send _ => fail .sendOnlyChannel
  | .chanType .recv value | .chanType .both value => ask (.expr value) home
  | .structType fields => inPlaceStruct p ask fields e.span home
  | .interfaceType => return .interface
  | .keyValue .. | .ellipsis none | .bad => return .stub

/-- What a declaration declares its name to be. -/
def declaredBody (p : Program) (ask : Ask) (d : TypeDecl) (home : String) : InferM Ty :=
  match d.structGroups? with
  | some groups => return .struct d.name home (← fieldTable p ask groups home)
  | none => ask (.expr d.type) home

/-- The type a declaration declares: a wrapper of its body, remembered under its name. The name
is taken for a simple type while the body is looked into, so that a declaration may refer to
itself; if the body fails, nothing is remembered. -/
def declaredType (p : Program) (ask : Ask) (d : TypeDecl) (home : String) : InferM Ty := do
  match (← scope p home).types.find? d.name with
  | some known => return known
  | none =>
      updateScope home (·.setType d.name (.reference d.name (some home)))
      match ← attempt (declaredBody p ask d home) with
      | .error e =>
          updateScope home (·.dropType d.name)
          fail e
      | .ok body =>
          let t := Ty.wrapper d.name home body
          updateScope home (·.setType d.name t)
          return t

/-- The type of a name that a type or a function of the module has. -/
def localType (p : Program) (ask : Ask) (name home : String) : InferM Ty := do
  let symbols := (← scope p home).symbols
  match symbols.types.find? name with
  | some d => ask (.decl d) home
  | none =>
      if symbols.functions.contains name then
        return .func (← namedSignature p ask name home)
      else fail (.unknownDeclaration name home)

/-- Whether a type fits, either as it is or by the declaration of its name. -/
def fits (p : Program) (ask : Ask) (t : Ty) (expected : Expectation) (overrides : Overrides) :
    InferM Bool := do
  if ← ofExcept (t.fits expected overrides) then return true
  else
    match t.owner? with
    | none => return false
    | some owner =>
        match ← attempt (localType p ask t.name owner) with
        | .ok declared => ofExcept (declared.fits expected overrides)
        | .error _ => return false

end ResourceLint.Inference
