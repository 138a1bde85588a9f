import ResourceLint.Program
import ResourceLint.Ty

/-!
# Scopes

What the top level of a module declares, and what has been inferred in the module so far.
-/

namespace ResourceLint

/-- The top-level declarations of a module by name. Methods go by `Receiver.Name`. Of several
declarations of one name the last one counts. -/
structure Symbols where
  functions : Table FuncDecl
  types : Table TypeDecl
  values : Table ValueSpec
  deriving Inhabited

namespace Symbols

def addFunction (home : String) (functions : Table FuncDecl) (f : FuncDecl) :
    Except InferError (Table FuncDecl) :=
  match f.receiverType? with
  | some receiver => .ok (functions.insert (QualifiedName.method receiver f.name) f)
  | none => .error (.malformedReceiver f.name home)

/-- Fails at the first method whose receiver has no type name. -/
def ofModule (m : Module) : Except InferError Symbols := do
  let functions ← m.functions.foldlM (addFunction m.id) ∅
  return {
    functions
    types := Table.ofList (m.types.map fun d => (d.name, d))
    values := Table.ofList (m.values.flatMap fun s => s.names.map fun name => (name, s)) }

def declares (s : Symbols) (name : String) : Bool :=
  s.functions.contains name || s.types.contains name || s.values.contains name

/-- The declaration of a struct type. -/
def structDecl? (s : Symbols) (name : String) : Option TypeDecl :=
  (s.types.find? name).filter fun d => d.structGroups?.isSome

/-- The name of a type embedded as `T` or `*T`. -/
def embeddedName? (g : FieldGroup) : Option String :=
  match g.type.node with
  | .ident name _ => some name
  | .star x => x.identName?
  | _ => none

/-- Names of the types that a declared struct embeds directly, in declaration order. -/
def embeddedNames (s : Symbols) (name : String) : List String :=
  match (s.types.find? name).bind TypeDecl.structGroups? with
  | some groups => (groups.filter FieldGroup.isUnnamed).filterMap embeddedName?
  | none => []

end Symbols

/-- Types that are written in place and never declared. -/
inductive InPlaceKind where
  | struct | func
  deriving DecidableEq, Repr, Inhabited

def InPlaceKind.text : InPlaceKind → String
  | .struct => "struct"
  | .func => "func"

structure Scope where
  id : String
  symbols : Symbols
  /-- Signatures inferred so far, by the name of the function. -/
  signatures : Table Signature
  /-- Types inferred so far, by name. A simple type stands for one whose declaration is still
  being looked into. -/
  types : Table Ty
  /-- The names drawn for types written in place. -/
  inPlace : List ((Span × InPlaceKind) × String)
  deriving Inhabited

namespace Scope

/-- The scope of a module in which nothing has been inferred yet. -/
def ofModule (m : Module) : Except InferError Scope := do
  let symbols ← Symbols.ofModule m
  return { id := m.id, symbols, signatures := ∅, types := ∅, inPlace := [] }

def setType (s : Scope) (name : String) (t : Ty) : Scope :=
  { s with types := s.types.insert name t }

def dropType (s : Scope) (name : String) : Scope :=
  { s with types := s.types.erase name }

def setSignature (s : Scope) (name : String) (f : Signature) : Scope :=
  { s with signatures := s.signatures.insert name f }

def inPlaceName? (s : Scope) (span : Span) (kind : InPlaceKind) : Option String :=
  s.inPlace.lookup (span, kind)

def addInPlace (s : Scope) (span : Span) (kind : InPlaceKind) (name : String) : Scope :=
  { s with inPlace := ((span, kind), name) :: s.inPlace }

end Scope

end ResourceLint
