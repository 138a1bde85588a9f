import ResourceLint.Inference.Value

/-!
# Inference

`infer` answers every question by one step whose own questions are answered the same way, at
most `depth` questions deep. A program whose values are defined in a circle can ask on for ever,
so there is a `depth` for each inference that ends, and no outcome at any depth for one that does
not.
-/

namespace ResourceLint

/-- The type of a subject as seen from module `home`. -/
def infer (p : Program) : Nat → Ask
  | 0, _, _ => InferM.unfinished
  | depth + 1, .expr e, home => Inference.exprType p (infer p depth) e home
  | depth + 1, .decl d, home => Inference.declaredType p (infer p depth) d home

namespace Program

open Inference InferM

variable (p : Program) (depth : Nat)

/-- The type of an expression. -/
def typeOf (e : Expr) (home : String) : InferM Ty :=
  infer p depth (.expr e) home

/-- The type that a declaration declares. -/
def declaredType (d : TypeDecl) (home : String) : InferM Ty :=
  infer p depth (.decl d) home

/-- The type of a name at the top level of a module. -/
def topLevelType (name home : String) : InferM Ty :=
  Inference.topLevelType p (infer p depth) name home

/-- The type of a name that a type or a function of the module has. -/
def localType (name home : String) : InferM Ty :=
  Inference.localType p (infer p depth) name home

def declaredSignature (f : FuncDecl) (home : String) : InferM Signature :=
  Inference.declaredSignature p (infer p depth) f home

/-- The signature of the function that a module knows by that name. -/
def namedSignature (name home : String) : InferM Signature :=
  Inference.namedSignature p (infer p depth) name home

/-- The signature of a method of a named type. -/
def methodSignature (method receiver home : String) : InferM Signature :=
  Inference.methodSignature p (infer p depth) method receiver home

/-- The type of a member of a value of type `t`. -/
def typeOfMember (t : Ty) (member home : String) : InferM Ty :=
  Inference.typeOfMember p (infer p depth) t member home

/-- The fields of a declared struct type. -/
def declaredFields (name home : String) : InferM (Table Ty) :=
  Inference.declaredFields p (infer p depth) name home

/-- Whether a type fits, either as it is or by the declaration of its name. -/
def fits (t : Ty) (expected : Expectation) (overrides : Overrides) : InferM Bool :=
  Inference.fits p (infer p depth) t expected overrides

end Program

end ResourceLint
