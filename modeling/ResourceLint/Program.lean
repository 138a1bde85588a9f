import ResourceLint.InferError
import ResourceLint.SyntaxTree
import ResourceLint.Table.Lemmas

/-!
# Programs

A program is a set of modules under their ids. A module's files matter only for what they
import; its declarations are those of all its files together.
-/

namespace ResourceLint

structure Import where
  path : String
  /-- The name given to the import in its file, if any. -/
  localName : Option String
  deriving DecidableEq, Repr, Inhabited

structure SourceFile where
  id : Nat
  imports : List Import
  deriving DecidableEq, Repr, Inhabited

structure Module where
  id : String
  /-- The short name that files importing the module use by default. -/
  name : String
  files : List SourceFile
  functions : List FuncDecl
  types : List TypeDecl
  values : List ValueSpec
  /-- Module ids by the identifiers under which dependencies are imported. -/
  dependencies : Table String
  deriving Inhabited

namespace Module

def file? (m : Module) (id : Nat) : Option SourceFile :=
  m.files.find? fun file => file.id = id

/-- The first function of that name without a receiver. -/
def plainFunction? (m : Module) (name : String) : Option FuncDecl :=
  m.functions.find? fun f => f.receiver.isNone && f.name = name

end Module

/-- Modules under their ids, in ascending order of the ids. -/
structure Program where
  sources : SourcePaths
  table : Table Module
  sorted : table.Sorted
  id_eq : ∀ {id m}, table.find? id = some m → m.id = id

namespace Program

def empty (sources : SourcePaths) : Program where
  sources := sources
  table := ∅
  sorted := Table.sorted_empty
  id_eq := by simp

instance : Inhabited Program := ⟨empty []⟩

/-- A module replaces an earlier one with the same id. -/
def add (p : Program) (m : Module) : Program where
  sources := p.sources
  table := p.table.insert m.id m
  sorted := p.sorted.insert m.id m
  id_eq := by
    intro id m' h
    rw [Table.find?_insert] at h
    split at h
    · next hid =>
        cases h
        exact hid.symm
    · exact p.id_eq h

def module? (p : Program) (id : String) : Option Module :=
  p.table.find? id

/-- All modules in ascending order of their ids. -/
def modules (p : Program) : List Module :=
  p.table.values

/-- The module of that id, which has to be loaded. -/
def require (p : Program) (id : String) : Except InferError Module :=
  match p.module? id with
  | some m => .ok m
  | none => .error (.unknownModule id)

end Program

end ResourceLint
