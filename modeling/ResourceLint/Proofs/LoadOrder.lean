import ResourceLint.Proofs.ByteOrder
import ResourceLint.Proofs.Sharing

/-!
# The order of loading

Modules are loaded one after the other, and a module replaces an earlier one with its id. Only the
last module under each id counts, and the modules of a program stand in the order of their ids,
however they came in. So programs that were loaded in different orders are the same program
(`Program.load_eq_load`), and a run goes through the same generators and finds the same.
-/

namespace ResourceLint

/-- The module that came last under an id. -/
def lastLoaded? (ms : List Module) (id : String) : Option Module :=
  ms.reverse.find? fun m => m.id = id

theorem lastLoaded?_cons (m : Module) (ms : List Module) (id : String) :
    lastLoaded? (m :: ms) id = (lastLoaded? ms id).or (if m.id = id then some m else none) := by
  rw [lastLoaded?, lastLoaded?, List.reverse_cons, List.find?_append, List.find?_singleton]
  simp only [decide_eq_true_eq]

namespace Program

/-- The program with these modules, loaded in this order. -/
def load (sources : SourcePaths) (ms : List Module) : Program :=
  ms.foldl add (empty sources)

variable {p q : Program} {sources : SourcePaths} {ms ms' : List Module}

theorem module?_foldl_add (ms : List Module) (p : Program) (id : String) :
    (ms.foldl add p).module? id = (lastLoaded? ms id).or (p.module? id) := by
  induction ms generalizing p with
  | nil => rfl
  | cons m ms ih =>
      have hadd : (p.add m).module? id = if id = m.id then some m else p.module? id :=
        Table.find?_insert p.table m.id id m
      rw [List.foldl_cons, ih, hadd, lastLoaded?_cons, Option.or_assoc]
      by_cases hid : id = m.id
      · rw [if_pos hid, if_pos hid.symm, Option.some_or]
      · rw [if_neg hid, if_neg (Ne.symm hid), Option.none_or]

/-- Under each id there is the module that came last. -/
theorem module?_load (sources : SourcePaths) (ms : List Module) (id : String) :
    (load sources ms).module? id = lastLoaded? ms id := by
  have hempty : (empty sources).module? id = none := Table.find?_empty id
  rw [load, module?_foldl_add, hempty, Option.or_none]

theorem sources_foldl_add (ms : List Module) (p : Program) :
    (ms.foldl add p).sources = p.sources := by
  induction ms generalizing p with
  | nil => rfl
  | cons m ms ih =>
      rw [List.foldl_cons, ih]
      rfl

/-- A program is determined by its sources and by the modules under each id. -/
theorem eq_of_module?_eq (hsources : p.sources = q.sources)
    (h : ∀ id, p.module? id = q.module? id) : p = q := by
  have htable : p.table = q.table := Table.eq_of_find?_eq p.sorted q.sorted h
  cases p
  cases q
  cases hsources
  cases htable
  rfl

/-- Orders of loading in which the same modules come last under their ids make the same program. -/
theorem load_eq_load (h : ∀ id, lastLoaded? ms id = lastLoaded? ms' id) (sources : SourcePaths) :
    load sources ms = load sources ms' := by
  refine eq_of_module?_eq ?_ fun id => ?_
  · rw [load, load, sources_foldl_add, sources_foldl_add]
  · rw [module?_load, module?_load, h]

theorem mem_modules_iff (p : Program) (m : Module) :
    m ∈ p.modules ↔ p.module? m.id = some m :=
  ⟨module?_of_mem, p.mem_modules⟩

/-- The modules stand in the order of the bytes of their ids. -/
theorem modules_ascending (p : Program) :
    p.modules.Pairwise fun a b => Text.bytes a.id < Text.bytes b.id := by
  refine List.pairwise_map.mpr (p.sorted.imp_of_mem fun ha hb hlt => ?_)
  rw [p.id_eq (module?_of_mem_entries ha), p.id_eq (module?_of_mem_entries hb)]
  exact Text.bytes_lt_bytes hlt

end Program

/-- Modules that come in another order, or that replace other ones, make no difference as long as
the same ones come last under their ids: those modules stand in the order of the bytes of their ids,
the generators are theirs in the order of declaration, and the same is found. -/
theorem load_order {ms ms' : List Module} (h : ∀ id, lastLoaded? ms id = lastLoaded? ms' id)
    (sources : SourcePaths) :
    ∃ loaded : List Module,
      (∀ m, m ∈ loaded ↔ lastLoaded? ms m.id = some m) ∧
      (loaded.Pairwise fun a b => Text.bytes a.id < Text.bytes b.id) ∧
      ∀ settings : Settings,
        ((Program.load sources ms).generators settings = loaded.flatMap fun m =>
          (m.functions.filter (m.isGenerator settings)).map fun f => (m, f)) ∧
        (Program.load sources ms').generators settings =
          (Program.load sources ms).generators settings ∧
        ∀ depth, (Program.load sources ms').lint depth settings =
          (Program.load sources ms).lint depth settings := by
  have hsame := Program.load_eq_load h sources
  refine ⟨(Program.load sources ms).modules, fun m => ?_, Program.modules_ascending _,
    fun settings => ⟨rfl, ?_, fun depth => ?_⟩⟩
  · rw [Program.mem_modules_iff, Program.module?_load]
  · rw [hsame]
  · rw [hsame]

namespace LoadOrder

open Sharing

/-- A module with a resource whose field `size`, of the given type, is set to a struct that is
written in place. -/
def store (id type : String) : Module :=
  ⟨id, "store", [⟨0, [⟨Settings.defaultSchemaPath, some "schema"⟩]⟩],
    [generator "box" "readBox" "size" type, reader "readBox" "size" 10 [member "Box" "Size"]],
    [⟨"Box", ⟨.zero, .structType [⟨["Size"], ⟨⟨0, 1, 0, 0⟩, .structType []⟩, .zero⟩]⟩, .zero⟩],
    [], ∅⟩

def stores : List Module :=
  [store "～" "TypeInt", store "😀" "TypeMap"]

/-- The same stores the other way round, and one that is replaced. -/
def restocked : List Module :=
  [store "～" "TypeString", store "😀" "TypeMap", store "～" "TypeInt"]

theorem lastLoaded?_restocked (id : String) : lastLoaded? stores id = lastLoaded? restocked id := by
  simp only [stores, restocked, lastLoaded?_cons]
  by_cases h : id = "～"
  · subst h
    rfl
  · have hne : ∀ type, (store "～" type).id ≠ id := fun _ => Ne.symm h
    simp [hne, lastLoaded?]

end LoadOrder

open LoadOrder

theorem stores_restocked :
    (∃ loaded : List Module,
      (∀ m, m ∈ loaded ↔ lastLoaded? stores m.id = some m) ∧
      (loaded.Pairwise fun a b => Text.bytes a.id < Text.bytes b.id) ∧
      ∀ settings : Settings,
        ((Program.load ["store.go"] stores).generators settings = loaded.flatMap fun m =>
          (m.functions.filter (m.isGenerator settings)).map fun f => (m, f)) ∧
        (Program.load ["store.go"] restocked).generators settings =
          (Program.load ["store.go"] stores).generators settings ∧
        ∀ depth, (Program.load ["store.go"] restocked).lint depth settings =
          (Program.load ["store.go"] stores).lint depth settings) ∧
      (Program.load ["store.go"] stores).lint 9 .default =
        some [.typeMismatch ⟨"store.go", 10⟩ "size" "～.struct00000001" "int",
          .typeMismatch ⟨"store.go", 10⟩ "size" "😀.struct00000002" "map"] :=
  ⟨load_order lastLoaded?_restocked ["store.go"], by decide +kernel⟩

end ResourceLint
