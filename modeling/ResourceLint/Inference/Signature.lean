import ResourceLint.Session

/-!
# Signatures

The types of functions. `ask` stands for an inference about a smaller subject or about a
declaration found by name; tying it to itself is left to the end.
-/

namespace ResourceLint

/-- What an inference is about: the type of an expression, or the type a declaration declares. -/
inductive Subject where
  | expr (e : Expr)
  | decl (d : TypeDecl)

/-- Answers questions about subjects as they are seen from a module. -/
abbrev Ask := Subject → String → InferM Ty

namespace Inference

open InferM

/-- The type of a group's parameters, or a stub when it cannot be told: parameters take no part
in matching, so they never make a signature fail. -/
def paramType (ask : Ask) (home : String) (g : FieldGroup) : InferM Ty := do
  match ← attempt (ask (.expr g.type) home) with
  | .ok t => return t
  | .error _ => return .stub

def resultType (ask : Ask) (home : String) (g : FieldGroup) : InferM Ty :=
  ask (.expr g.type) home

/-- One type for each name of each group, and one for a group without names. -/
def flatten (typeOf : FieldGroup → InferM Ty) : List FieldGroup → InferM (List Ty)
  | [] => return []
  | g :: groups => do
      let t ← typeOf g
      let rest ← flatten typeOf groups
      return List.replicate g.arity t ++ rest

/-- The signature of a function with these parameters and results. -/
def signature (ask : Ask) (name home : String) (receiver : Option String)
    (params results : List FieldGroup) : InferM Signature := do
  let args ← flatten (paramType ask home) params
  let results ← flatten (resultType ask home) results
  return { name, owner := home, receiver, args, results }

/-- The signature of a declared function. It is inferred once and then remembered. -/
def declaredSignature (p : Program) (ask : Ask) (f : FuncDecl) (home : String) :
    InferM Signature :=
  match f.receiverType? with
  | none => fail (.malformedReceiver f.name home)
  | some receiver => do
      let key := QualifiedName.method receiver f.name
      match (← scope p home).signatures.find? key with
      | some known => return known
      | none =>
          let sig ← signature ask key home receiver f.params f.results
          updateScope home (·.setSignature key sig)
          return sig

/-- The signature of the function that a module knows by that name. -/
def namedSignature (p : Program) (ask : Ask) (key home : String) : InferM Signature := do
  let s ← scope p home
  match s.signatures.find? key with
  | some known => return known
  | none =>
      match s.symbols.functions.find? key with
      | some f => declaredSignature p ask f home
      | none => fail (.unknownFunction key home)

/-- The name of a type written in place, and whether it had one already. -/
def inPlaceName (p : Program) (span : Span) (kind : InPlaceKind) (home : String) :
    InferM (String × Bool) := do
  match (← scope p home).inPlaceName? span kind with
  | some name => return (name, true)
  | none =>
      let name ← draw kind
      updateScope home (·.addInPlace span kind name)
      return (name, false)

/-- The type of a function written in place. -/
def inPlaceFunc (p : Program) (ask : Ask) (params results : List FieldGroup) (span : Span)
    (home : String) : InferM Ty := do
  let (name, known) ← inPlaceName p span .func home
  match (← scope p home).signatures.find? name, known with
  | some sig, true => return .func sig
  | _, _ =>
      let sig ← signature ask name home none params results
      updateScope home (·.setSignature name sig)
      return .func sig

end Inference

end ResourceLint
