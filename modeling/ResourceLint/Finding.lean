import ResourceLint.Resource.Composite
import ResourceLint.Source

/-!
# Findings

What a run has to say about a program, and the report of a whole run.
-/

namespace ResourceLint

inductive Finding where
  | missingField (location : Location) (key resource : String)
  | typeMismatch (location : Location) (key found expected : String)
  | undetermined (location : Location) (key : String)
  | unresolved (location : Location) (key : String) (cause : InferError)
  | unsupportedSignature (location : Location) (function : String) (arity : Nat)
  | definition (location : Location) (resource : String) (cause : LoadError)
  | scope (module : String) (cause : InferError)
  deriving DecidableEq, Repr, Inhabited

namespace Finding

/-- The schema key a finding is about. -/
def key? : Finding → Option String
  | .missingField _ key _ | .typeMismatch _ key _ _ | .undetermined _ key
  | .unresolved _ key _ => some key
  | .unsupportedSignature .. | .definition .. | .scope .. => none

/-- The wording of the error that led to the finding. -/
def cause? : Finding → Option String
  | .unresolved _ _ cause | .scope _ cause => some cause.message
  | .definition _ _ cause => some cause.message
  | .missingField .. | .typeMismatch .. | .undetermined .. | .unsupportedSignature .. => none

def code : Finding → String
  | .missingField .. => "setter_lint::missing_field"
  | .typeMismatch .. => "setter_lint::type_mismatch"
  | .undetermined .. | .unresolved .. => "setter_lint::unresolved"
  | .unsupportedSignature .. => "setter_lint::signature"
  | .definition .. => "setter_lint::definition"
  | .scope .. => "setter_lint::scope"

def help? : Finding → Option String
  | .unsupportedSignature .. => some "lifecycle functions take `(ctx, d, meta)` or `(d, meta)`"
  | _ => none

def message : Finding → String
  | .missingField loc key resource =>
      loc.show ++ s!" - broken setter for field `{key}`: field missing in the schema " ++
        s!"defined in `{resource}`"
  | .typeMismatch loc key found expected =>
      loc.show ++ s!" - field `{key}` has invalid type `{found}`, expected `{expected}`"
  | .undetermined loc key =>
      loc.show ++ s!" - can't determine expression type for field `{key}`"
  | .unresolved loc key cause =>
      loc.show ++ s!" - error getting `{key}` value type: " ++ cause.message
  | .unsupportedSignature loc function arity =>
      loc.show ++ s!" - function `{function}` has {arity} parameters"
  | .definition loc resource cause =>
      loc.show ++ s!" - broken resource definition `{resource}`: " ++ cause.message
  | .scope module cause =>
      s!"can't build scope of module `{module}`: " ++ cause.message

end Finding

/-- The findings of a run, in the order in which they were made. -/
abbrev Report := List Finding

namespace Report

def passes (r : Report) : Bool :=
  r.isEmpty

def code : String :=
  "setter_lint::report"

def summary (r : Report) : String :=
  s!"found {r.length} broken setter(s)"

/-- One line for each finding. -/
def plain (r : Report) : String :=
  String.join (r.map fun finding => finding.message ++ "\n")

end Report

end ResourceLint
