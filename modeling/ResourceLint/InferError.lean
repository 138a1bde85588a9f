/-!
# Why a type cannot be told

The causes for which inference gives up, and their wording.
-/

namespace ResourceLint

inductive InferError where
  | unknownModule (module : String)
  | unknownImport (qualifier module : String)
  | malformedReceiver (function module : String)
  | missingAssignmentTarget (name : String)
  | tooComplexAssignment (name : String) (count : Nat)
  | unknownDeclaration (name module : String)
  | unknownFunction (name module : String)
  | unknownStruct (name module : String)
  | missingMethod (method receiver : String)
  | arrayMember (member : String)
  | noMembers (type : String)
  | nonSimpleMapKey (key : String)
  | notCallable (type : String)
  | missingResult (function : String) (position : Nat)
  | invalidRange (type : String)
  | invalidIndex (type : String)
  | unsupportedLiteral (kind : String)
  | sendOnlyChannel
  | structCategory (name expected : String)
  deriving DecidableEq, Repr, Inhabited

namespace InferError

def message : InferError → String
  | .unknownModule m => s!"module `{m}` is not loaded"
  | .unknownImport q m => s!"can't resolve import `{q}` used in `{m}`"
  | .malformedReceiver f m => s!"malformed receiver of function `{f}` in `{m}`"
  | .missingAssignmentTarget n => s!"can't find `{n}` on the left side of its assignment"
  | .tooComplexAssignment n c => s!"too complex assignment of `{n}`: {c} values on the right side"
  | .unknownDeclaration n m => s!"can't find declaration `{n}` in `{m}`"
  | .unknownFunction n m => s!"can't find function declaration `{n}` in `{m}`"
  | .unknownStruct n m => s!"no struct with name `{n}` is found in `{m}`"
  | .missingMethod x r => s!"can't find method `{x}` of `{r}`"
  | .arrayMember x => s!"array values have no member `{x}`"
  | .noMembers t => s!"type `{t}` has no members"
  | .nonSimpleMapKey k => s!"can't use non-simple type `{k}` as a map key"
  | .notCallable t => s!"can't use non-callable type `{t}` in a call"
  | .missingResult f i => s!"function `{f}` has no result at position {i}"
  | .invalidRange t => s!"invalid range expression type `{t}`"
  | .invalidIndex t => s!"can't index a value of type `{t}`"
  | .unsupportedLiteral k => s!"unresolved basic literal type: {k}"
  | .sendOnlyChannel => "channel is send-only, no data can be received from it"
  | .structCategory n e => s!"struct `{n}` can't be matched against `{e}` as a whole"

end InferError

end ResourceLint
