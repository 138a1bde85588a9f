import ResourceLint.InferError
import ResourceLint.Predeclared
import ResourceLint.QualifiedName
import ResourceLint.Table

/-!
# Inferred types

The types that inference gives to expressions, their names and their equality. A simple type is
known by its name only; a wrapper is a declared type together with the type it is declared as.
-/

namespace ResourceLint

/-- A type known by name, with the module that declares it. Predeclared types have no owner. -/
structure SimpleTy where
  name : String
  owner : Option String
  deriving DecidableEq, Repr, Inhabited

def SimpleTy.qualifiedName (s : SimpleTy) : String :=
  QualifiedName.qualify (s.owner.getD "") s.name

mutual

inductive Ty where
  | simple (s : SimpleTy)
  | array (item : Ty)
  | map (key : SimpleTy) (value : Ty)
  | struct (name owner : String) (fields : Table Ty)
  | func (signature : Signature)
  | wrapper (name owner : String) (wrapped : Ty)
  | interface
  /-- Nothing is known about the value. -/
  | stub

structure Signature where
  name : String
  owner : String
  receiver : Option String
  args : List Ty
  results : List Ty

end

instance : Inhabited Ty := ⟨.stub⟩

namespace Ty

/-- A reference to a name, not yet looked up. -/
def reference (name : String) (owner : Option String) : Ty :=
  .simple ⟨name, owner⟩

/-- A predeclared type under its canonical name. -/
def predeclared (name : String) : Ty :=
  reference ((Predeclared.canonical? name).getD name) none

/-- The name as declared, without its owner. -/
def name : Ty → String
  | .simple s => s.name
  | .array item => "array:" ++ item.name
  | .map key value => "map[" ++ key.name ++ "]" ++ value.name
  | .struct name _ _ => name
  | .func signature => signature.name
  | .wrapper name _ _ => name
  | .interface => "interface\x7b\x7d"
  | .stub => "stub"

/-- The module that declares the type; an array belongs to the owner of its items. -/
def owner? : Ty → Option String
  | .simple s => s.owner
  | .array item => item.owner?
  | .struct _ owner _ => some owner
  | .func signature => some signature.owner
  | .wrapper _ owner _ => some owner
  | .map .. | .interface | .stub => none

def qualifiedName : Ty → String
  | .simple s => s.qualifiedName
  | .array item => "array:" ++ item.qualifiedName
  | .map key value => "map[" ++ key.qualifiedName ++ "]" ++ value.qualifiedName
  | .struct name owner _ => QualifiedName.qualify owner name
  | .func signature => QualifiedName.qualify signature.owner signature.name
  | .wrapper name owner _ => QualifiedName.qualify owner name
  | t@(.interface) | t@(.stub) => t.name

def isStub : Ty → Bool
  | .stub => true
  | _ => false

/-- Maps are keyed by simple types only. -/
def mkMap (key value : Ty) : Except InferError Ty :=
  match key with
  | .simple s => .ok (.map s value)
  | other => .error (.nonSimpleMapKey other.qualifiedName)

/-- What a type is declared as, through all wrappers. -/
def unwrap : Ty → Ty
  | .wrapper _ _ wrapped => wrapped.unwrap
  | t => t

end Ty

section Equality

mutual

def Ty.same : Ty → Ty → Bool
  | .simple a, .simple b => a = b
  | .array a, .array b => Ty.same a b
  | .map k a, .map l b => k = l && Ty.same a b
  | .struct n o ⟨a⟩, .struct m p ⟨b⟩ => n = m && o = p && Ty.sameFields a b
  | .func a, .func b => Signature.same a b
  | .wrapper n o a, .wrapper m p b => n = m && o = p && Ty.same a b
  | .interface, .interface => true
  | .stub, .stub => true
  | _, _ => false

def Signature.same : Signature → Signature → Bool
  | ⟨n, o, r, as, rs⟩, ⟨m, p, s, bs, ss⟩ =>
      n = m && o = p && r = s && Ty.sameList as bs && Ty.sameList rs ss

def Ty.sameList : List Ty → List Ty → Bool
  | [], [] => true
  | a :: as, b :: bs => Ty.same a b && Ty.sameList as bs
  | _, _ => false

def Ty.sameFields : List (String × Ty) → List (String × Ty) → Bool
  | [], [] => true
  | (k, a) :: as, (l, b) :: bs => k = l && Ty.same a b && Ty.sameFields as bs
  | _, _ => false

end

mutual

theorem Ty.same_iff (a b : Ty) : Ty.same a b = true ↔ a = b := by
  cases a with
  | simple s => cases b <;> simp [Ty.same]
  | array a => cases b <;> simp [Ty.same, Ty.same_iff a]
  | map k a => cases b <;> simp [Ty.same, Ty.same_iff a]
  | struct n o fields =>
      obtain ⟨entries⟩ := fields
      cases b with
      | struct m p fields' =>
          obtain ⟨entries'⟩ := fields'
          simp [Ty.same, Ty.sameFields_iff entries, and_assoc]
      | _ => simp [Ty.same]
  | func f => cases b <;> simp [Ty.same, Signature.same_iff f]
  | wrapper n o a => cases b <;> simp [Ty.same, Ty.same_iff a, and_assoc]
  | interface => cases b <;> simp [Ty.same]
  | stub => cases b <;> simp [Ty.same]

theorem Signature.same_iff (a b : Signature) : Signature.same a b = true ↔ a = b := by
  obtain ⟨n, o, r, as, rs⟩ := a
  obtain ⟨m, p, s, bs, ss⟩ := b
  simp [Signature.same, Ty.sameList_iff as, Ty.sameList_iff rs, and_assoc]

theorem Ty.sameList_iff (as bs : List Ty) : Ty.sameList as bs = true ↔ as = bs := by
  cases as with
  | nil => cases bs <;> simp [Ty.sameList]
  | cons a as => cases bs <;> simp [Ty.sameList, Ty.same_iff a, Ty.sameList_iff as]

theorem Ty.sameFields_iff (as bs : List (String × Ty)) :
    Ty.sameFields as bs = true ↔ as = bs := by
  cases as with
  | nil => cases bs <;> simp [Ty.sameFields]
  | cons a as =>
      obtain ⟨k, t⟩ := a
      cases bs with
      | nil => simp [Ty.sameFields]
      | cons b bs =>
          obtain ⟨l, u⟩ := b
          simp [Ty.sameFields, Ty.same_iff t, Ty.sameFields_iff as]

end

instance : DecidableEq Ty := fun a b => decidable_of_iff _ (Ty.same_iff a b)

instance : DecidableEq Signature := fun a b => decidable_of_iff _ (Signature.same_iff a b)

end Equality

end ResourceLint
