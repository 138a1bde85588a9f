import ResourceLint.Proofs.ConfinedCheck
import ResourceLint.Proofs.Sharing

/-!
# Modules that nothing refers to

A module that is neither imported nor among the dependencies of another one can only be reached
through a type that says that it belongs there, or through a name that is qualified by it. Types
belong to modules that have been entered before, and names without a dot are not qualified. So in a
program whose names have no dots, a module that nothing refers to and that has no generators of its
own does not change what is found.
-/

namespace ResourceLint

/-- Put at its place, an entry with a new key leaves the others as they are. -/
theorem Table.place_new {α : Type} {entries : List (String × α)} {key : String}
    (h : entries.lookup key = none) (value : α) :
    ∃ before after, entries = before ++ after ∧
      place key value entries = before ++ (key, value) :: after := by
  induction entries with
  | nil => exact ⟨[], [], rfl, rfl⟩
  | cons entry rest ih =>
      obtain ⟨k, v⟩ := entry
      rw [lookup_entry] at h
      split at h
      · cases h
      · next hk =>
          by_cases hlt : key < k
          · exact ⟨[], (k, v) :: rest, rfl, by simp [place, hk, hlt]⟩
          · obtain ⟨before, after, rfl, hplace⟩ := ih h
            exact ⟨(k, v) :: before, after, rfl, by simp [place, hk, hlt, hplace]⟩

/-- The modules that a module refers to: the paths that its files import, and its dependencies with
the names under which they are known. -/
def Module.references (m : Module) : List String :=
  (m.files.flatMap fun file => file.imports.map Import.path) ++ m.dependencies.keys ++
    m.dependencies.values

namespace Program

variable {p : Program} {m u : Module}

theorem modules_add (hnew : p.module? u.id = none) :
    ∃ before after, p.modules = before ++ after ∧ (p.add u).modules = before ++ u :: after := by
  obtain ⟨before, after, heq, hplace⟩ := Table.place_new hnew u
  refine ⟨before.map Prod.snd, after.map Prod.snd, ?_, ?_⟩
  · rw [modules, Table.values, heq, List.map_append]
  · change (Table.place u.id u p.table.entries).map Prod.snd = _
    rw [hplace, List.map_append, List.map_cons]

theorem module?_add {id : String} (hid : id ≠ u.id) : (p.add u).module? id = p.module? id := by
  rw [module?, module?, add, Table.find?_insert, if_neg hid]

theorem mem_references_of_dependency {name id : String} (h : m.dependencies.find? name = some id) :
    id ∈ m.references := by
  obtain ⟨before, after, heq, _⟩ := List.lookup_eq_some_iff.mp h
  have hvalue : id ∈ m.dependencies.values := by simp [Table.values, heq]
  exact List.mem_append_right _ hvalue

theorem mem_references_of_import {id : Nat} {file : SourceFile} (hfile : m.file? id = some file)
    {i : Import} (hi : i ∈ file.imports) : i.path ∈ m.references := by
  refine List.mem_append_left _ (List.mem_append_left _ ?_)
  exact List.mem_flatMap.mpr ⟨file, List.mem_of_find?_eq_some hfile, List.mem_map_of_mem hi⟩

theorem mem_modules_of_reach {name : String} {target : Module} (h : p.reach m name = .ok target) :
    target ∈ p.modules := by
  unfold reach at h
  dsimp only at h
  split at h
  · next hfind =>
      cases h
      exact p.mem_modules hfind
  · cases h

theorem qualifierTarget_mem {qualifier path : String} {file : Nat}
    (h : p.qualifierTarget qualifier file m = .ok path) : path = m.id ∨ path ∈ m.references := by
  unfold qualifierTarget at h
  split at h
  · cases h
    exact .inl rfl
  · refine .inr ?_
    split at h
    · next i hi =>
        cases h
        obtain ⟨f, hfile, hi⟩ := Option.bind_eq_some_iff.mp hi
        exact mem_references_of_import hfile (List.mem_of_find?_eq_some hi)
    · split at h
      · next id hid =>
          cases h
          exact mem_references_of_dependency hid
      · cases h

section Bystander

variable (hlacks : u.id ∉ m.references)

include hlacks

theorem visibleImport?_add (qualifier : String) (file : Nat) :
    (p.add u).visibleImport? qualifier file m = p.visibleImport? qualifier file m := by
  unfold visibleImport?
  cases hfile : m.file? file with
  | none => rfl
  | some f =>
      have hname : ∀ i ∈ f.imports, i.visibleName (p.add u) = i.visibleName p := by
        intro i hi
        have hpath : i.path ≠ u.id := by
          rintro heq
          exact hlacks (heq ▸ mem_references_of_import hfile hi)
        rw [Import.visibleName, Import.visibleName, module?_add hpath]
      rw [Option.bind_some, Option.bind_some, ← List.head?_filter, ← List.head?_filter]
      exact congrArg List.head? (List.filter_congr fun i hi => by rw [hname i hi])

theorem qualifierTarget_add (qualifier : String) (file : Nat) :
    (p.add u).qualifierTarget qualifier file m = p.qualifierTarget qualifier file m := by
  rw [qualifierTarget, qualifierTarget, visibleImport?_add hlacks]

theorem reach_add {path : String} (hpath : path ≠ u.id) :
    (p.add u).reach m path = p.reach m path := by
  have hid : (if path = m.id then path else (m.dependencies.find? path).getD path) ≠ u.id := by
    split
    · exact hpath
    · cases hfind : m.dependencies.find? path with
      | none => exact hpath
      | some id =>
          rintro rfl
          exact hlacks (mem_references_of_dependency hfind)
  rw [reach, reach, module?_add hid]

end Bystander

variable (hnew : p.module? u.id = none) (hlacks : ∀ m ∈ p.modules, u.id ∉ m.references)

include hnew

theorem id_ne (hm : m ∈ p.modules) : m.id ≠ u.id := by
  intro heq
  have hfind := module?_of_mem hm
  rw [heq, hnew] at hfind
  cases hfind

include hlacks

/-- Nothing leads from a program to a module that it does not refer to. -/
theorem agreesOn_add : p.AgreesOn (· ≠ u.id) (p.add u) where
  module? hid := (module?_add hid).symm
  target _ hm _ _ := (qualifierTarget_add (hlacks _ (p.mem_modules hm)) _ _).symm
  reach {id m qualifier file path} _ hm htarget := by
    have hmem := p.mem_modules hm
    have hpath : path ≠ u.id := by
      rcases qualifierTarget_mem htarget with rfl | hpath
      · exact id_ne hnew hmem
      · exact fun heq => hlacks m hmem (heq ▸ hpath)
    exact (reach_add (hlacks m hmem) hpath).symm
  reached _ _ _ hreach := id_ne hnew (mem_modules_of_reach hreach)

end Program

/-- What can be reached in a program without dots in names, with the new module or without it. -/
def Confinement.unreferenced {p : Program} {u : Module}
    (hnames : ∀ m ∈ p.modules, ∀ w ∈ m.words, '.' ∉ w.toList) (hnew : p.module? u.id = none)
    (hlacks : ∀ m ∈ p.modules, u.id ∉ m.references) : Confinement p (p.add u) where
  word w := '.' ∉ w.toList
  enters id := id ≠ u.id
  basic := by decide
  drawn kind n := notMem_of_looksDrawn (looksDrawn_padded kind n)
  split hname hhome := by
    rw [QualifiedName.split_of_notMem hname]
    exact hhome
  agrees := Program.agreesOn_add hnew hlacks
  words _ hm := hnames _ (p.mem_modules hm)

theorem Check.ofModules_insert {p : Program} {depth : Nat} {settings : Settings} {u : Module}
    (h : u.generators settings = []) (before after : List Module) :
    ofModules p depth settings (before ++ u :: after) =
      ofModules p depth settings (before ++ after) := by
  induction before with
  | nil =>
      rw [List.nil_append, List.nil_append, ofModules, ofModule, h]
      simp
  | cons m before ih => rw [List.cons_append, List.cons_append, ofModules, ofModules, ih]

/-- A module that nothing refers to and that has no generators does not change what is found, in a
program without dots in names. -/
theorem lint_add_unreferenced {p : Program} {u : Module} {settings : Settings}
    (hnames : ∀ m ∈ p.modules, ∀ w ∈ m.words, '.' ∉ w.toList) (hnew : p.module? u.id = none)
    (hlacks : ∀ m ∈ p.modules, u.id ∉ m.references) (hgenerators : u.generators settings = [])
    (depth : Nat) : (p.add u).lint depth settings = p.lint depth settings := by
  obtain ⟨before, after, hmodules, hadd⟩ := Program.modules_add hnew
  have hsame : Check.ofModules p depth settings p.modules .new =
      Check.ofModules (p.add u) depth settings p.modules .new :=
    ((Confinement.unreferenced hnames hnew hlacks).ofModules rfl fun m hm =>
      ⟨Program.id_ne hnew hm, Program.module?_of_mem hm⟩).eq .new
  -- The check of `u` finds nothing and leaves the session as it is.
  rw [Program.lint, Program.lint, hsame, hadd, Check.ofModules_insert hgenerators, hmodules]

open Sharing

/-- A module that declares two functions of one name. It has types under the same names as
`configs`. -/
def bystander : Module :=
  ⟨"bystander", "provider", [⟨0, []⟩], [reader "read" "level" 10 [], reader "read" "level" 20 []],
    [⟨"Client", plainName "Logger", .zero⟩, ⟨"Logger", plainName "string", .zero⟩], [], ∅⟩

theorem configs_add_bystander :
    (∀ m ∈ configs.modules, ∀ w ∈ m.words, '.' ∉ w.toList) ∧
      configs.module? bystander.id = none ∧
      (∀ m ∈ configs.modules, bystander.id ∉ m.references) ∧
      bystander.generators .default = [] ∧
      (configs.add bystander).lint 9 .default = configs.lint 9 .default ∧
      configs.lint 9 .default =
        some [.typeMismatch ⟨"provider.go", 10⟩ "config" "provider.struct00000001" "map",
          .typeMismatch ⟨"provider.go", 20⟩ "level" "provider.struct00000002" "int",
          .typeMismatch ⟨"provider.go", 21⟩ "level" "provider.struct00000001" "int"] := by
  have hnames : ∀ m ∈ configs.modules, ∀ w ∈ m.words, '.' ∉ w.toList := by decide +kernel
  have hnew : configs.module? bystander.id = none := by decide +kernel
  have hlacks : ∀ m ∈ configs.modules, bystander.id ∉ m.references := by decide +kernel
  have hgenerators : bystander.generators .default = [] := by decide +kernel
  exact ⟨hnames, hnew, hlacks, hgenerators, lint_add_unreferenced hnames hnew hlacks hgenerators 9,
    by decide +kernel⟩

end ResourceLint
