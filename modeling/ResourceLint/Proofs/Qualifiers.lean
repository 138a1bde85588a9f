import Mathlib.Data.List.Basic
import ResourceLint.Program.Import

/-!
# What a qualifier leads to

The module that is meant by a qualifier such as `schema` in `schema.Resource` is found in two
steps: the file and the dependencies of the module say which path or module id the qualifier stands
for, and the dependencies say which module is reached by that. The imports of the file come first,
and only without a fitting one the qualifier is looked for among the dependencies
(`qualifier_leads_to`). Both steps consult the dependencies. So an id that was found among them is
looked up there again, and what is imported goes by the short name of the module at its path even if
the dependencies lead to another module (`dependencies_can_mislead`).
-/

namespace ResourceLint

/-- The module id that a name stands for in a module: its own id for itself, and any other name for
the dependency of that name, or else for the module of that id. -/
def Module.redirect (m : Module) (name : String) : String :=
  if name = m.id then name else (m.dependencies.find? name).getD name

/-- The import is the first one of the file that is visible under the qualifier. -/
def SourceFile.FirstVisible (f : SourceFile) (p : Program) (qualifier : String) (i : Import) :
    Prop :=
  ∃ before after, f.imports = before ++ i :: after ∧ i.visibleName p = qualifier ∧
    ∀ j ∈ before, j.visibleName p ≠ qualifier

namespace Program

variable {p : Program} {m target : Module} {f : SourceFile} {file : Nat} {i : Import}
  {qualifier name path : String}

theorem reach_eq_ok_iff : p.reach m name = .ok target ↔
    target.id = m.redirect name ∧ p.module? target.id = some target := by
  have hreach : p.reach m name = .ok target ↔ p.module? (m.redirect name) = some target := by
    rw [reach, Module.redirect]
    split
    · next hfind => rw [hfind, Except.ok.injEq, Option.some.injEq]
    · next hfind => simp [hfind]
  rw [hreach]
  constructor
  · intro h
    have hid : target.id = m.redirect name := p.id_eq h
    exact ⟨hid, hid ▸ h⟩
  · rintro ⟨hid, h⟩
    rwa [← hid]

theorem visibleImport?_eq_some_iff (hfile : m.file? file = some f) :
    p.visibleImport? qualifier file m = some i ↔ f.FirstVisible p qualifier i := by
  rw [visibleImport?, hfile, Option.bind_some, List.find?_eq_some_iff_append]
  simp only [SourceFile.FirstVisible, decide_eq_true_eq, Bool.not_eq_true', decide_eq_false_iff_not]
  constructor
  · rintro ⟨hname, before, after, himports, hbefore⟩
    exact ⟨before, after, himports, hname, hbefore⟩
  · rintro ⟨before, after, himports, hname, hbefore⟩
    exact ⟨hname, before, after, himports, hbefore⟩

theorem visibleImport?_eq_none_iff (hfile : m.file? file = some f) :
    p.visibleImport? qualifier file m = none ↔ ∀ i ∈ f.imports, i.visibleName p ≠ qualifier := by
  rw [visibleImport?, hfile, Option.bind_some, List.find?_eq_none]
  simp only [decide_eq_true_eq, ne_eq]

/-- A qualifier other than the module's own id stands for the path of the first import that is
visible under it, or else for the dependency of that name. -/
theorem qualifierTarget_eq_ok_iff (hfile : m.file? file = some f) (hne : qualifier ≠ m.id) :
    p.qualifierTarget qualifier file m = .ok path ↔
      (∃ i, f.FirstVisible p qualifier i ∧ path = i.path) ∨
        (∀ i ∈ f.imports, i.visibleName p ≠ qualifier) ∧
          m.dependencies.find? qualifier = some path := by
  rw [qualifierTarget, if_neg hne]
  simp only [← visibleImport?_eq_some_iff hfile, ← visibleImport?_eq_none_iff hfile]
  cases hvisible : p.visibleImport? qualifier file m with
  | some i => simp [eq_comm]
  | none => cases m.dependencies.find? qualifier <;> simp

/-- An import without a name of its own goes by the name of the module at its path. -/
theorem visibleName_of_unnamed (hname : i.localName = none) :
    i.visibleName p = ((p.module? i.path).map Module.name).getD i.lastPart := by
  rw [Import.visibleName, hname]
  cases p.module? i.path <;> rfl

/-- How an import of `m` that leads to `target` comes to be visible under the qualifier. -/
theorem visibleName_cases (hvisible : i.visibleName p = qualifier)
    (hid : target.id = m.redirect i.path) (htarget : p.module? target.id = some target) :
    i.localName = some qualifier ∨ i.localName = none ∧
      (m.redirect i.path = i.path ∧ qualifier = target.name ∨
        m.redirect i.path ≠ i.path ∧
          qualifier = ((p.module? i.path).map Module.name).getD i.lastPart) := by
  cases hname : i.localName with
  | some name =>
      rw [Import.visibleName, hname] at hvisible
      exact .inl (congrArg some hvisible)
  | none =>
      rw [visibleName_of_unnamed hname] at hvisible
      refine .inr ⟨rfl, ?_⟩
      by_cases hpath : m.redirect i.path = i.path
      · rw [← hpath, ← hid, htarget] at hvisible
        exact .inl ⟨hpath, hvisible.symm⟩
      · exact .inr ⟨hpath, hvisible.symm⟩

/-- A qualifier leads to a module by the first import of its file that is visible under it, or else
by a dependency of that name; from there the dependencies lead on once more. An import is visible
under the name that its file gives it, or under the short name of the module that it leads to; but
if the dependencies lead its path elsewhere, under what is known of the path. -/
theorem qualifier_leads_to (hfile : m.file? file = some f) (hne : qualifier ≠ m.id) :
    p.qualifierTarget qualifier file m = .ok path ∧ p.reach m path = .ok target ↔
      target.id = m.redirect path ∧ p.module? target.id = some target ∧
        ((∃ i, f.FirstVisible p qualifier i ∧ path = i.path ∧
            (i.localName = some qualifier ∨ i.localName = none ∧
              (m.redirect i.path = i.path ∧ qualifier = target.name ∨
                m.redirect i.path ≠ i.path ∧
                  qualifier = ((p.module? i.path).map Module.name).getD i.lastPart))) ∨
          (∀ i ∈ f.imports, i.visibleName p ≠ qualifier) ∧
            m.dependencies.find? qualifier = some path) := by
  rw [qualifierTarget_eq_ok_iff hfile hne, reach_eq_ok_iff]
  constructor
  · rintro ⟨⟨i, hfirst, rfl⟩ | hdependency, hid, htarget⟩
    · obtain ⟨_, _, -, hvisible, -⟩ := id hfirst
      exact ⟨hid, htarget, .inl ⟨i, hfirst, rfl, visibleName_cases hvisible hid htarget⟩⟩
    · exact ⟨hid, htarget, .inr hdependency⟩
  · rintro ⟨hid, htarget, ⟨i, hfirst, hpath, -⟩ | hdependency⟩
    · exact ⟨.inl ⟨i, hfirst, hpath⟩, hid, htarget⟩
    · exact ⟨.inr hdependency, hid, htarget⟩

end Program

/-- A module without files and declarations. -/
def bareModule (id name : String) : Module :=
  ⟨id, name, [], [], [], [], ∅⟩

def clientFile : SourceFile :=
  ⟨0, [⟨"lib/sdk", none⟩, ⟨"lib/net", some "http"⟩]⟩

/-- Imports `lib/sdk` under the name of that module and `lib/net` as `http`, and has a dependency
`log`. What it imports as `lib/net` is the module `vendor/net`. -/
def client : Module :=
  { bareModule "client" "client" with
    files := [clientFile]
    dependencies := Table.ofList [("lib/net", "vendor/net"), ("log", "lib/log")] }

def clients : Program :=
  ((((Program.empty []).add client).add (bareModule "lib/sdk" "sdk")).add
    (bareModule "vendor/net" "net")).add (bareModule "lib/log" "log")

theorem client_leads_to :
    (clients.qualifierTarget "sdk" 0 client = .ok "lib/sdk" ∧
      clients.reach client "lib/sdk" = .ok (bareModule "lib/sdk" "sdk")) ∧
    (clients.qualifierTarget "http" 0 client = .ok "lib/net" ∧
      clients.reach client "lib/net" = .ok (bareModule "vendor/net" "net")) ∧
    clients.qualifierTarget "log" 0 client = .ok "lib/log" ∧
      clients.reach client "lib/log" = .ok (bareModule "lib/log" "log") := by
  have hfile : client.file? 0 = some clientFile := rfl
  refine ⟨(Program.qualifier_leads_to hfile (by decide)).mpr ⟨rfl, rfl, .inl ?_⟩,
    (Program.qualifier_leads_to hfile (by decide)).mpr ⟨rfl, rfl, .inl ?_⟩,
    (Program.qualifier_leads_to hfile (by decide)).mpr ⟨rfl, rfl, .inr ⟨by decide, rfl⟩⟩⟩
  · exact ⟨⟨"lib/sdk", none⟩, ⟨[], _, rfl, rfl, by simp⟩, rfl, .inr ⟨rfl, .inl ⟨rfl, rfl⟩⟩⟩
  · exact ⟨⟨"lib/net", some "http"⟩, ⟨[⟨"lib/sdk", none⟩], [], rfl, rfl, by decide⟩, rfl, .inl rfl⟩

def vendoredFile : SourceFile :=
  ⟨0, [⟨"lib/net", none⟩]⟩

/-- Has replacements for two of the modules that it uses. -/
def vendoredClient : Module :=
  { bareModule "client" "client" with
    files := [vendoredFile]
    dependencies := Table.ofList
      [("lib/net", "vendor/web"), ("log", "lib/log"), ("lib/log", "vendor/log")] }

def vendoredClients : Program :=
  (((((Program.empty []).add vendoredClient).add (bareModule "lib/net" "net")).add
    (bareModule "vendor/web" "web")).add (bareModule "lib/log" "log")).add
      (bareModule "vendor/log" "log")

/-- The dependency `log` is `lib/log`, but it leads to `vendor/log`. The import of `lib/net` leads
to `vendor/web` and has no name of its own, but it is visible as `net` and not as `web`. -/
theorem dependencies_can_mislead :
    vendoredClient.file? 0 = some vendoredFile ∧
    ((∀ i ∈ vendoredFile.imports, i.visibleName vendoredClients ≠ "log") ∧
      vendoredClient.dependencies.find? "log" = some "lib/log" ∧
      vendoredClients.qualifierTarget "log" 0 vendoredClient = .ok "lib/log" ∧
      ∃ target, vendoredClients.reach vendoredClient "lib/log" = .ok target ∧
        target.id = "vendor/log") ∧
    vendoredFile.FirstVisible vendoredClients "net" ⟨"lib/net", none⟩ ∧
      vendoredClients.qualifierTarget "net" 0 vendoredClient = .ok "lib/net" ∧
      (∃ target, vendoredClients.reach vendoredClient "lib/net" = .ok target ∧
        target.name = "web") ∧
      vendoredClients.qualifierTarget "web" 0 vendoredClient =
        .error (.unknownImport "web" "client") :=
  ⟨rfl, ⟨by decide, rfl, rfl, _, rfl, rfl⟩, ⟨[], [], rfl, rfl, by simp⟩, rfl, ⟨_, rfl, rfl⟩, rfl⟩

end ResourceLint
