import ResourceLint.Inference.Signature

/-!
# Members

Fields and methods of types. A struct has its own fields and the fields that the types it embeds
promote: an own field hides promoted ones, and of two promoted fields of one name the one embedded
first counts. Methods are looked up on a type and then on the types it embeds directly.
-/

namespace ResourceLint.Inference

open InferM

/-- The fields of the struct type declared under that name. A declaration that is still being
looked into has no fields yet. -/
def declaredFields (p : Program) (ask : Ask) (name home : String) : InferM (Table Ty) := do
  let (name, home) := QualifiedName.split name home
  match (← scope p home).symbols.structDecl? name with
  | none => fail (.unknownStruct name home)
  | some d =>
      match (← ask (.decl d) home).unwrap with
      | .struct _ _ fields => return fields
      | _ => return ∅

/-- As `declaredFields`, with no fields for a name that no struct type has. -/
def declaredFieldsIfAny (p : Program) (ask : Ask) (name home : String) : InferM (Table Ty) := do
  match ← attempt (declaredFields p ask name home) with
  | .ok fields => return fields
  | .error (.unknownStruct ..) => return ∅
  | .error e => fail e

/-- The fields that an embedded type promotes. -/
def promotedFields (p : Program) (ask : Ask) (t : Ty) : InferM (Table Ty) :=
  match t.unwrap with
  | .struct _ _ fields => return fields
  | .simple ⟨name, some owner⟩ => declaredFieldsIfAny p ask name owner
  | _ => return ∅

/-- Fields collected from a list of groups: declared here, and promoted. -/
structure FieldLayers where
  own : Table Ty
  promoted : Table Ty

namespace FieldLayers

def declare (layers : FieldLayers) (names : List String) (t : Ty) : FieldLayers :=
  { layers with own := names.foldl (fun own name => own.insert name t) layers.own }

def embed (layers : FieldLayers) (base : String) (t : Ty) (fields : Table Ty) : FieldLayers :=
  ⟨layers.own.insert base t, layers.promoted.orElse fields⟩

/-- Own fields hide promoted ones. -/
def merge (layers : FieldLayers) : Table Ty :=
  layers.own.orElse layers.promoted

end FieldLayers

/-- Add the fields of one group. An embedded type without a name adds nothing. -/
def addGroup (p : Program) (ask : Ask) (home : String) (layers : FieldLayers) (g : FieldGroup) :
    InferM FieldLayers := do
  let t ← ask (.expr g.type) home
  if g.isUnnamed then
    match g.type.typeName? with
    | none => return layers
    | some name => return layers.embed (QualifiedName.base name) t (← promotedFields p ask t)
  else return layers.declare g.names t

/-- Add the fields of all groups, in order. -/
def addGroups (p : Program) (ask : Ask) (home : String) :
    FieldLayers → List FieldGroup → InferM FieldLayers
  | layers, [] => return layers
  | layers, g :: groups => do addGroups p ask home (← addGroup p ask home layers g) groups

/-- The fields of a struct with these groups. -/
def fieldTable (p : Program) (ask : Ask) (groups : List FieldGroup) (home : String) :
    InferM (Table Ty) := do
  let layers ← addGroups p ask home ⟨∅, ∅⟩ groups
  return layers.merge

/-- The type of a struct written in place. -/
def inPlaceStruct (p : Program) (ask : Ask) (groups : List FieldGroup) (span : Span)
    (home : String) : InferM Ty := do
  let (name, known) ← inPlaceName p span .struct home
  match (← scope p home).types.find? name, known with
  | some t, true => return t
  | _, _ =>
      updateScope home (·.setType name (.reference name (some home)))
      match ← attempt (fieldTable p ask groups home) with
      | .error e =>
          updateScope home (·.dropType name)
          fail e
      | .ok fields =>
          let t := Ty.struct name home fields
          updateScope home (·.setType name t)
          return t

/-- The types whose methods a value of type `receiver` has: itself and its direct embeds. -/
def methodOwners (s : Symbols) (receiver : String) : List String :=
  receiver :: s.embeddedNames receiver

/-- A method found on the receiver, or else on the first type it embeds that has it. -/
def methodSignature (p : Program) (ask : Ask) (method receiver home : String) :
    InferM Signature := do
  let (receiver, home) := QualifiedName.split receiver home
  let symbols := (← scope p home).symbols
  let hasMethod (owner : String) : Bool :=
    symbols.functions.contains (QualifiedName.method (some owner) method)
  match (methodOwners symbols receiver).find? hasMethod with
  | none => fail (.missingMethod method receiver)
  | some owner =>
      let sig ← namedSignature p ask (QualifiedName.method (some owner) method) home
      return { sig with receiver := some owner }

/-- A field if there is one, else a method. -/
def fieldOrMethod (p : Program) (ask : Ask) (fields : Table Ty) (member name owner : String) :
    InferM Ty :=
  match fields.find? member with
  | some t => return t
  | none => return .func (← methodSignature p ask member name owner)

/-- The type of `x.member` for an `x` of type `t`. -/
def typeOfMember (p : Program) (ask : Ask) (t : Ty) (member home : String) : InferM Ty :=
  match t with
  | .array _ => fail (.arrayMember member)
  | .struct name owner fields => fieldOrMethod p ask fields member name owner
  | .wrapper name owner wrapped =>
      match wrapped.unwrap with
      | .struct _ _ fields => fieldOrMethod p ask fields member name owner
      | _ => fieldOrMethod p ask ∅ member name owner
  | .simple ⟨name, owner⟩ => do
      let owner := owner.getD home
      let fields ← declaredFieldsIfAny p ask name owner
      fieldOrMethod p ask fields member name owner
  | .map .. | .func _ | .interface | .stub => fail (.noMembers t.qualifiedName)

end ResourceLint.Inference
