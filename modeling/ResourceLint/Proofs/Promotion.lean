import Mathlib.Data.List.Basic
import ResourceLint.Inference
import ResourceLint.Proofs.Recall

/-!
# Promotion of fields

The fields of a struct are collected in one pass over its groups, in two tables that are filled with
opposite precedence. What comes out can be told from the groups one by one: a name stands for the
last group that declares it, and only if there is none for the first embedded type that promotes it
(`fieldTable_promotion`).
-/

namespace ResourceLint

@[simp] theorem Table.orElse_empty {α : Type} (t : Table α) : t.orElse ∅ = t := rfl

/-- The base name of a type: what follows the last dot, or the whole name if there is none. -/
def QualifiedName.IsBase (name base : String) : Prop :=
  '.' ∉ base.toList ∧ (name = base ∨ ∃ owner, name = owner ++ "." ++ base)

theorem QualifiedName.base_eq_iff {name b : String} :
    QualifiedName.base name = b ↔ QualifiedName.IsBase name b :=
  Text.afterLast_eq_iff

namespace FieldGroup

/-- A group declares a field of that name: it names the field so, or it embeds a type with that base
name. -/
def Declares (g : FieldGroup) (name : String) : Prop :=
  name ∈ g.names ∨
    g.names = [] ∧ ∃ type, g.type.typeName? = some type ∧ QualifiedName.IsBase type name

/-- All names that a group declares. -/
def fieldNames (g : FieldGroup) : List String :=
  if g.isUnnamed then (g.type.typeName?.map QualifiedName.base).toList else g.names

theorem mem_fieldNames {g : FieldGroup} {name : String} :
    name ∈ g.fieldNames ↔ g.Declares name := by
  obtain ⟨names, type, span⟩ := g
  cases names with
  | nil =>
      simp only [fieldNames, Declares, isUnnamed, List.isEmpty_nil, if_true, Option.mem_toList,
        Option.map_eq_some_iff, QualifiedName.base_eq_iff, List.not_mem_nil, false_or, true_and]
  | cons first rest => simp [fieldNames, Declares, isUnnamed]

instance (g : FieldGroup) (name : String) : Decidable (g.Declares name) :=
  decidable_of_iff (name ∈ g.fieldNames) mem_fieldNames

end FieldGroup

/-- What a group of fields is found to be. -/
structure FieldPart where
  group : FieldGroup
  type : Ty
  promoted : Table Ty

namespace FieldPart

/-- The type of the last part that declares a name. -/
def declared? (parts : List FieldPart) (name : String) : Option Ty :=
  (parts.reverse.find? fun part => part.group.Declares name).map type

/-- The member of that name of the first part that promotes one. -/
def promoted? (parts : List FieldPart) (name : String) : Option Ty :=
  parts.findSome? fun part => part.promoted.find? name

theorem declared?_cons (part : FieldPart) (parts : List FieldPart) (name : String) :
    declared? (part :: parts) name =
      (declared? parts name).or (if part.group.Declares name then some part.type else none) := by
  simp only [declared?, List.reverse_cons, List.find?_append, Option.map_or]
  by_cases h : part.group.Declares name <;> simp [h]

theorem promoted?_cons (part : FieldPart) (parts : List FieldPart) (name : String) :
    promoted? (part :: parts) name = (part.promoted.find? name).or (promoted? parts name) := by
  simp only [promoted?, List.findSome?_cons]
  cases part.promoted.find? name <;> rfl

theorem isSome_declared? {parts : List FieldPart} {part : FieldPart} (hpart : part ∈ parts)
    {name : String} (hname : part.group.Declares name) :
    (declared? parts name).isSome = true := by
  rw [declared?, Option.isSome_map, List.find?_isSome]
  exact ⟨part, List.mem_reverse.mpr hpart, by simpa using hname⟩

end FieldPart

namespace Inference

open InferM

/-- Look into a group. Only an embedded type that has a name promotes its fields. -/
def fieldPart (p : Program) (ask : Ask) (home : String) (g : FieldGroup) : InferM FieldPart := do
  let t ← ask (.expr g.type) home
  if g.isUnnamed && g.type.typeName?.isSome then
    return ⟨g, t, ← promotedFields p ask t⟩
  else return ⟨g, t, ∅⟩

/-- Look into all groups, in order. -/
def fieldParts (p : Program) (ask : Ask) (home : String) (groups : List FieldGroup) :
    InferM (List FieldPart) :=
  groups.mapM (fieldPart p ask home)

namespace FieldLayers

def add (layers : FieldLayers) (part : FieldPart) : FieldLayers :=
  ⟨part.group.fieldNames.foldl (fun own name => own.insert name part.type) layers.own,
    layers.promoted.orElse part.promoted⟩

theorem find?_foldl_insert (names : List String) (t : Ty) (own : Table Ty) (name : String) :
    (names.foldl (fun own name => own.insert name t) own).find? name =
      if name ∈ names then some t else own.find? name := by
  induction names generalizing own with
  | nil => simp
  | cons first rest ih =>
      rw [List.foldl_cons, ih, Table.find?_insert]
      by_cases hrest : name ∈ rest
      · simp [hrest]
      · by_cases hfirst : name = first <;> simp [hfirst, hrest]

theorem find?_own (parts : List FieldPart) (layers : FieldLayers) (name : String) :
    (parts.foldl add layers).own.find? name =
      (FieldPart.declared? parts name).or (layers.own.find? name) := by
  induction parts generalizing layers with
  | nil => rfl
  | cons part rest ih =>
      rw [List.foldl_cons, ih, FieldPart.declared?_cons, add, find?_foldl_insert, Option.or_assoc]
      simp only [FieldGroup.mem_fieldNames]
      by_cases h : part.group.Declares name <;> simp [h]

theorem find?_promoted (parts : List FieldPart) (layers : FieldLayers) (name : String) :
    (parts.foldl add layers).promoted.find? name =
      (layers.promoted.find? name).or (FieldPart.promoted? parts name) := by
  induction parts generalizing layers with
  | nil => simp [FieldPart.promoted?]
  | cons part rest ih =>
      rw [List.foldl_cons, ih, FieldPart.promoted?_cons, add, Table.find?_orElse, Option.or_assoc]

theorem find?_merge (parts : List FieldPart) (name : String) :
    (parts.foldl add ⟨∅, ∅⟩).merge.find? name =
      (FieldPart.declared? parts name).or (FieldPart.promoted? parts name) := by
  rw [merge, Table.find?_orElse, find?_own, find?_promoted, Table.find?_empty, Option.or_none,
    Option.none_or]

end FieldLayers

variable (p : Program) (ask : Ask) (home : String)

theorem addGroup_eq (layers : FieldLayers) (g : FieldGroup) :
    addGroup p ask home layers g = layers.add <$> fieldPart p ask home g := by
  unfold addGroup fieldPart
  rw [map_bind]
  refine bind_congr fun t => ?_
  by_cases hunnamed : g.isUnnamed = true
  · cases hname : g.type.typeName? with
    | none => simp [hunnamed, hname, FieldLayers.add, FieldGroup.fieldNames]
    | some name =>
        simp [hunnamed, hname, FieldLayers.add, FieldLayers.embed, FieldGroup.fieldNames]
  · simp [hunnamed, FieldLayers.add, FieldLayers.declare, FieldGroup.fieldNames]

theorem addGroups_eq (layers : FieldLayers) (groups : List FieldGroup) :
    addGroups p ask home layers groups =
      (·.foldl FieldLayers.add layers) <$> fieldParts p ask home groups := by
  unfold fieldParts
  induction groups generalizing layers with
  | nil => rfl
  | cons g rest ih =>
      simp only [addGroups, addGroup_eq, ih, List.mapM_cons, List.foldl_cons, map_eq_pure_bind,
        bind_assoc, pure_bind]

/-- The table of fields is determined by what the groups are found to be. -/
theorem fieldTable_eq (groups : List FieldGroup) :
    fieldTable p ask groups home =
      (fun parts => (parts.foldl FieldLayers.add ⟨∅, ∅⟩).merge) <$>
        fieldParts p ask home groups := by
  simp only [fieldTable, addGroups_eq, map_eq_pure_bind, bind_assoc, pure_bind]

variable {p ask home} {g : FieldGroup} {groups : List FieldGroup} {s s' : Session}

theorem fieldPart_group {part : FieldPart} (h : fieldPart p ask home g s = some (.ok part, s')) :
    part.group = g := by
  rcases bind_eq_some.mp h with ⟨t, s₁, _, h⟩ | ⟨_, _, he⟩
  · split at h
    · rcases bind_eq_some.mp h with ⟨fields, s₂, _, h⟩ | ⟨_, _, he⟩
      · cases h
        rfl
      · cases he
    · cases h
      rfl
  · cases he

theorem fieldParts_groups {parts : List FieldPart}
    (h : fieldParts p ask home groups s = some (.ok parts, s')) :
    parts.map FieldPart.group = groups := by
  unfold fieldParts at h
  induction groups generalizing s parts with
  | nil =>
      cases h
      rfl
  | cons g rest ih =>
      rw [List.mapM_cons] at h
      rcases bind_eq_some.mp h with ⟨part, s₁, hpart, h⟩ | ⟨_, _, he⟩
      · rcases bind_eq_some.mp h with ⟨parts', s₂, hparts, h⟩ | ⟨_, _, he⟩
        · cases h
          rw [List.map_cons, fieldPart_group hpart, ih hparts]
        · cases he
      · cases he

theorem fieldTable_ok {table : Table Ty}
    (h : fieldTable p ask groups home s = some (.ok table, s')) :
    ∃ parts, fieldParts p ask home groups s = some (.ok parts, s') ∧
      table = (parts.foldl FieldLayers.add ⟨∅, ∅⟩).merge := by
  rw [fieldTable_eq, map_apply] at h
  obtain ⟨⟨_ | parts, s₁⟩, hparts, heq⟩ := Option.map_eq_some_iff.mp h <;> cases heq
  exact ⟨parts, hparts, rfl⟩

/-- No name that a group declares is missing. -/
theorem contains_fieldTable {table : Table Ty}
    (h : fieldTable p ask groups home s = some (.ok table, s')) (hg : g ∈ groups) {name : String}
    (hname : g.Declares name) : table.contains name = true := by
  obtain ⟨parts, hparts, rfl⟩ := fieldTable_ok h
  obtain ⟨part, hpart, rfl⟩ : ∃ part ∈ parts, part.group = g := by
    rwa [← List.mem_map, fieldParts_groups hparts]
  rw [Table.contains_eq, FieldLayers.find?_merge, Option.isSome_or,
    FieldPart.isSome_declared? hpart hname, Bool.true_or]

end Inference

open Inference

/-- In the table of a struct's fields, a name has the type of the last group that declares it. If no
group does, it has the type of the member that the first embedded type promotes. There are no other
names. -/
theorem fieldTable_promotion {p : Program} {depth : Nat} {groups : List FieldGroup} {home : String}
    {s s' : Session} {table : Table Ty}
    (h : fieldTable p (infer p depth) groups home s = some (.ok table, s')) :
    ∃ parts, fieldParts p (infer p depth) home groups s = some (.ok parts, s') ∧
      parts.map FieldPart.group = groups ∧
      ∀ name, table.find? name =
        (FieldPart.declared? parts name).or (FieldPart.promoted? parts name) := by
  obtain ⟨parts, hparts, rfl⟩ := fieldTable_ok h
  exact ⟨parts, hparts, fieldParts_groups hparts, FieldLayers.find?_merge parts⟩

/-- `type Base struct { ID, Region string }` -/
def baseDecl : TypeDecl :=
  ⟨"Base", ⟨.zero, .structType [⟨["ID", "Region"], ⟨.zero, .ident "string" none⟩, .zero⟩]⟩, .zero⟩

/-- `type Zone struct { Region int; Name string }` -/
def zoneDecl : TypeDecl :=
  ⟨"Zone", ⟨.zero, .structType [⟨["Region"], ⟨.zero, .ident "int" none⟩, .zero⟩,
    ⟨["Name"], ⟨.zero, .ident "string" none⟩, .zero⟩]⟩, .zero⟩

/-- `type Disk struct { Size int; Region bool }` -/
def diskDecl : TypeDecl :=
  ⟨"Disk", ⟨.zero, .structType [⟨["Size"], ⟨.zero, .ident "int" none⟩, .zero⟩,
    ⟨["Region"], ⟨.zero, .ident "bool" none⟩, .zero⟩]⟩, .zero⟩

/-- A module with `Base` and `Zone`, and a module with `Disk` that it knows as `lib`. -/
def regions : Program :=
  ((Program.empty []).add ⟨"m", "m", [], [], [baseDecl, zoneDecl], [],
    Table.ofList [("lib", "lib.org/disks")]⟩).add
    ⟨"lib.org/disks", "disks", [], [], [diskDecl], [], ∅⟩

/-- `Base; Name bool; *Zone; *lib.Disk; ID int; Base float32` -/
def serverGroups : List FieldGroup :=
  [⟨[], ⟨.zero, .ident "Base" none⟩, .zero⟩, ⟨["Name"], ⟨.zero, .ident "bool" none⟩, .zero⟩,
    ⟨[], ⟨.zero, .star ⟨.zero, .ident "Zone" none⟩⟩, .zero⟩,
    ⟨[], ⟨.zero, .star ⟨.zero, .selector ⟨.zero, .ident "lib" none⟩ "Disk"⟩⟩, .zero⟩,
    ⟨["ID"], ⟨.zero, .ident "int" none⟩, .zero⟩, ⟨["Base"], ⟨.zero, .ident "float32" none⟩, .zero⟩]

/-- The fields of a struct with `serverGroups`. -/
def serverFields : Table Ty :=
  Table.ofList [("ID", .predeclared "int"), ("Region", .predeclared "string"),
    ("Name", .predeclared "bool"), ("Size", .predeclared "int"),
    ("Base", .predeclared "float32"), ("Zone", .reference "Zone" (some "m")),
    ("Disk", .wrapper "Disk" "lib.org/disks" (.struct "Disk" "lib.org/disks"
      (Table.ofList [("Size", .predeclared "int"), ("Region", .predeclared "bool")])))]

theorem serverGroups_promotion : ∃ table s' parts,
    fieldTable regions (infer regions 4) serverGroups "m" .new = some (.ok table, s') ∧
      fieldParts regions (infer regions 4) "m" serverGroups .new = some (.ok parts, s') ∧
      parts.map FieldPart.group = serverGroups ∧
      (∀ name, table.find? name =
        (FieldPart.declared? parts name).or (FieldPart.promoted? parts name)) ∧
      table = serverFields := by
  obtain ⟨table, s', h, htable⟩ : ∃ table s',
      fieldTable regions (infer regions 4) serverGroups "m" .new = some (.ok table, s') ∧
        table = serverFields :=
    ⟨_, _, rfl, by decide +kernel⟩
  obtain ⟨parts, hparts, hgroups, hfind⟩ := fieldTable_promotion h
  exact ⟨table, s', parts, h, hparts, hgroups, hfind, htable⟩

end ResourceLint
