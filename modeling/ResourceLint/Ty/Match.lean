import ResourceLint.Ty

/-!
# Matching types against expectations

A schema expects of a field one of six categories, or a type by its exact name. Structs have no
category of their own: a value of struct type has to be taken apart before it can be matched.
-/

namespace ResourceLint

inductive Category where
  | string | int | float | bool | array | map
  deriving DecidableEq, Repr, Inhabited

namespace Category

def all : List Category :=
  [.string, .int, .float, .bool, .array, .map]

def text : Category → String
  | .string => "string"
  | .int => "int"
  | .float => "float"
  | .bool => "bool"
  | .array => "array"
  | .map => "map"

def ofText? (text : String) : Option Category :=
  all.find? fun c => c.text = text

@[simp] theorem ofText?_text (c : Category) : ofText? c.text = some c := by
  cases c <;> rfl

end Category

/-- What the schema says about the values of a field. -/
inductive Expectation where
  | category (c : Category)
  | named (name : String)
  deriving DecidableEq, Repr, Inhabited

def Expectation.text : Expectation → String
  | .category c => c.text
  | .named name => name

/-- The category that a declared type counts as, by qualified name. -/
abbrev Overrides := Table Category

/-- A basic type matches its category, any other name matches itself. -/
def SimpleTy.fits (s : SimpleTy) (expected : Expectation) : Bool :=
  match Predeclared.canonical? s.name with
  | some canonical => canonical = expected.text
  | none => s.qualifiedName = expected.text

mutual

/-- Wrappers match as the type they wrap unless they are overridden, functions as their first
result. -/
def Ty.fits (expected : Expectation) (overrides : Overrides) : Ty → Except InferError Bool
  | .simple s => .ok (s.fits expected)
  | .array _ => .ok (expected = .category .array)
  | .map .. => .ok (expected = .category .map)
  | .wrapper name owner wrapped =>
      match overrides.find? (QualifiedName.qualify owner name) with
      | some c => .ok (c.text = expected.text)
      | none => Ty.fits expected overrides wrapped
  | .func signature => Signature.fits expected overrides signature
  | .interface => .ok true
  | .stub => .ok false
  | .struct name owner _ =>
      .error (.structCategory (QualifiedName.qualify owner name) expected.text)

def Signature.fits (expected : Expectation) (overrides : Overrides) :
    Signature → Except InferError Bool
  | ⟨_, _, _, _, results⟩ => Ty.headFits expected overrides results

/-- Nothing matches where there is no first type. -/
def Ty.headFits (expected : Expectation) (overrides : Overrides) :
    List Ty → Except InferError Bool
  | [] => .ok false
  | t :: _ => Ty.fits expected overrides t

end

end ResourceLint
