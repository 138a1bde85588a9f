import ResourceLint.InferError
import ResourceLint.SyntaxTree

/-!
# Returned composite literals

Resources and the fields of their schemas are declared by composite literals, which functions
return directly or through a variable.
-/

namespace ResourceLint

/-- Why a resource definition cannot be read. -/
inductive LoadError where
  | noReturn (function : String)
  | multipleReturns (function : String)
  | unsupportedReturn (function : String)
  | tooComplexAssignment (name : String)
  | invalidSchema
  | notKeyValue (index : Nat)
  | nonStringKey (index : Nat)
  | invalidTypeField (field : String)
  | unsupportedField (field : String)
  | infer (cause : InferError)
  deriving DecidableEq, Repr, Inhabited

def LoadError.message : LoadError → String
  | .noReturn f => s!"function `{f}` has no return statement"
  | .multipleReturns f => s!"number of returns is more than 1 in `{f}`"
  | .unsupportedReturn f => s!"unknown kind of return in `{f}`"
  | .tooComplexAssignment n => s!"too complex assignment of `{n}`"
  | .invalidSchema => "can't find schema definition in a `Schema` field"
  | .notKeyValue i => s!"the element #{i} is not a key-value element"
  | .nonStringKey i => s!"the key of element #{i} is not a string literal"
  | .invalidTypeField f => s!"invalid `Type` field of `{f}`"
  | .unsupportedField f => s!"invalid declaration of field `{f}`"
  | .infer cause => cause.message

/-- The elements of a composite literal, under any number of `&` and parentheses. -/
def Expr.compositeElements? : Expr → Option (List Expr)
  | ⟨_, .composite _ elements⟩ => some elements
  | ⟨_, .unary .addr x⟩ | ⟨_, .paren x⟩ => x.compositeElements?
  | _ => none

def Stmt.returned? : Stmt → Option (List Expr)
  | .ret results => some results
  | _ => none

/-- The elements of the composite literal that a result is, itself or as the variable it was
assigned to. -/
def Expr.definitionElements (result : Expr) (function : String) :
    Except LoadError (List Expr) :=
  match result.compositeElements? with
  | some elements => .ok elements
  | none =>
      match result.node with
      | .ident name (some (.assign stmt)) =>
          match stmt.values with
          | [value] =>
              match value.compositeElements? with
              | some elements => .ok elements
              | none => .error (.unsupportedReturn function)
          | _ => .error (.tooComplexAssignment name)
      | _ => .error (.unsupportedReturn function)

/-- The elements of the composite literal that the first return statement at the top of the body
returns. A function without such a statement has none. -/
def FuncDecl.returnedElements (f : FuncDecl) : Except LoadError (Option (List Expr)) :=
  match f.body.findSome? Stmt.returned? with
  | none => .ok none
  | some [result] => (result.definitionElements f.name).map some
  | some _ => .error (.multipleReturns f.name)

end ResourceLint
