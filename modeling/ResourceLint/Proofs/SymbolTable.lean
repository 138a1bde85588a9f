import ResourceLint.Proofs.QualifiedNames
import ResourceLint.Proofs.Recall

/-!
# Functions by their keys

The scope of a module keeps the functions under their keys, and of two functions with one key it
keeps the later one only. A key is made of the name of the receiver's type, which may have dots of
its own, and the name of the function. If the names of functions have no dots and receivers are not
left empty, the key tells both again. So in a module where no two functions share both, the scope
has every function under its key, and what it has under a name without a receiver is what the module
itself finds by that name (`scope_functions`).
-/

namespace ResourceLint

open QualifiedName

/-- No function has a dot in its name or a receiver whose type has the empty name, and no two
functions have the same receiver and the same name. -/
structure Module.WellNamed (m : Module) : Prop where
  undotted : ∀ f ∈ m.functions, '.' ∉ f.name.toList
  nonempty : ∀ f ∈ m.functions, f.receiverType? ≠ some (some "")
  distinct : m.functions.Pairwise fun f g => ¬ (f.receiverType? = g.receiverType? ∧ f.name = g.name)

variable {m : Module} {symbols : Symbols} {f g : FuncDecl}

namespace FuncDecl

theorem receiverType?_eq_some_none_iff : f.receiverType? = some none ↔ f.receiver = none := by
  unfold receiverType?
  cases f.receiver <;> simp

theorem key_of_plain (h : f.receiver = none) : f.key = f.name :=
  key_of_receiver (receiverType?_eq_some_none_iff.mpr h)

end FuncDecl

namespace Module.WellNamed

variable (hm : m.WellNamed)

include hm

theorem key_of_method (hf : f ∈ m.functions) {receiver : String}
    (h : f.receiverType? = some (some receiver)) : f.key = receiver ++ "." ++ f.name := by
  have hreceiver : receiver.isEmpty = false := by
    rw [String.isEmpty_eq_false_iff]
    rintro rfl
    exact hm.nonempty f hf h
  rw [f.key_of_receiver h, QualifiedName.method, qualify_of_notMem hreceiver (hm.undotted f hf)]

/-- Only methods have keys with a dot. -/
theorem receiver_eq_none (hf : f ∈ m.functions) {receiver : Option String}
    (h : f.receiverType? = some receiver) (hkey : '.' ∉ f.key.toList) : f.receiver = none := by
  cases receiver with
  | none => exact FuncDecl.receiverType?_eq_some_none_iff.mp h
  | some receiver =>
      rw [hm.key_of_method hf h] at hkey
      exact absurd (by simp) hkey

/-- A key is made in one way only: a method's is cut at its last dot into receiver and name. -/
theorem key_inj (hf : f ∈ m.functions) (hg : g ∈ m.functions) {receiver receiver' : Option String}
    (hfr : f.receiverType? = some receiver) (hgr : g.receiverType? = some receiver')
    (hkey : f.key = g.key) : receiver = receiver' ∧ f.name = g.name := by
  cases receiver with
  | none =>
      have hplain := f.key_of_plain (FuncDecl.receiverType?_eq_some_none_iff.mp hfr)
      have hgplain := hm.receiver_eq_none hg hgr (hkey ▸ hplain ▸ hm.undotted f hf)
      rw [FuncDecl.receiverType?_eq_some_none_iff.mpr hgplain] at hgr
      exact ⟨Option.some.inj hgr, hplain.symm.trans (hkey.trans (g.key_of_plain hgplain))⟩
  | some receiver =>
      rw [hm.key_of_method hf hfr] at hkey
      cases receiver' with
      | none =>
          have hplain := g.key_of_plain (FuncDecl.receiverType?_eq_some_none_iff.mp hgr)
          exact absurd (hplain ▸ hkey ▸ by simp) (hm.undotted g hg)
      | some receiver' =>
          rw [hm.key_of_method hg hgr] at hkey
          have hparts := (Text.append_mark_inj (hm.undotted f hf) (hm.undotted g hg)).mp hkey
          exact hparts.imp_left (congrArg some)

end Module.WellNamed

namespace Symbols

variable (hm : m.WellNamed) (h : ofModule m = .ok symbols)

include hm h

theorem keys_nodup : ((m.functions.map fun f => (f.key, f)).map Prod.fst).Nodup := by
  rw [List.map_map, List.nodup_iff_pairwise_ne, List.pairwise_map]
  refine hm.distinct.imp_of_mem fun {f g} hf hg hdistinct hkey => hdistinct ?_
  obtain ⟨receiver, hfr⟩ := receiverType?_isSome h hf
  obtain ⟨receiver', hgr⟩ := receiverType?_isSome h hg
  obtain ⟨rfl, hname⟩ := hm.key_inj hf hg hfr hgr hkey
  exact ⟨hfr.trans hgr.symm, hname⟩

theorem find?_key (hf : f ∈ m.functions) : symbols.functions.find? f.key = some f := by
  rw [functions_eq h]
  exact Table.find?_ofList_of_mem (keys_nodup hm h) (List.mem_map_of_mem hf)

/-- Under a name without dots there are only functions without a receiver. -/
theorem plain_of_find? {name : String} (hname : '.' ∉ name.toList)
    (hfind : symbols.functions.find? name = some f) :
    f ∈ m.functions ∧ f.receiver = none ∧ f.name = name := by
  obtain ⟨hf, receiver, hreceiver, hkey⟩ := function_of_find? h hfind
  rw [← f.key_of_receiver hreceiver] at hkey
  have hplain := hm.receiver_eq_none hf hreceiver (hkey ▸ hname)
  exact ⟨hf, hplain, (f.key_of_plain hplain).symm.trans hkey⟩

/-- The last function of a name in the table is the first one in the module. -/
theorem find?_eq_plainFunction? {name : String} (hname : '.' ∉ name.toList) :
    symbols.functions.find? name = m.plainFunction? name := by
  cases hplain : m.plainFunction? name with
  | some f =>
      have hf := List.mem_of_find?_eq_some hplain
      have hfound := List.find?_some hplain
      simp only [Bool.and_eq_true, Option.isNone_iff_eq_none, decide_eq_true_eq] at hfound
      rw [← hfound.2, ← f.key_of_plain hfound.1]
      exact find?_key hm h hf
  | none =>
      cases hfind : symbols.functions.find? name with
      | none => rfl
      | some f =>
          obtain ⟨hf, hreceiver, rfl⟩ := plain_of_find? hm h hname hfind
          have hmissed := List.find?_eq_none.mp hplain f hf
          simp [hreceiver] at hmissed

end Symbols

/-- A scope that can be built has one entry for each function of the module, every function under
the key for its receiver and its name. Under a name without dots there is no method, and what there
is is the function that the module itself finds by that name. -/
theorem scope_functions (hm : m.WellNamed) {sc : Scope} (h : Scope.ofModule m = .ok sc) :
    sc.symbols.functions.entries.Perm (m.functions.map fun f => (f.key, f)) ∧
    (∀ f ∈ m.functions, ∃ receiver, f.receiverType? = some receiver ∧
      sc.symbols.functions.find? (QualifiedName.method receiver f.name) = some f) ∧
    ∀ name, '.' ∉ name.toList →
      (∀ f, sc.symbols.functions.find? name = some f → f.receiver = none) ∧
      sc.symbols.functions.find? name = m.plainFunction? name := by
  have h := (Scope.ofModule_eq_ok h).1
  refine ⟨?_, fun f hf => ?_, fun name hname => ⟨fun f hf => ?_, ?_⟩⟩
  · rw [Symbols.functions_eq h]
    exact Table.ofList_perm (Symbols.keys_nodup hm h)
  · obtain ⟨receiver, hreceiver⟩ := Symbols.receiverType?_isSome h hf
    exact ⟨receiver, hreceiver, f.key_of_receiver hreceiver ▸ Symbols.find?_key hm h hf⟩
  · exact (Symbols.plain_of_find? hm h hname hf).2.1
  · exact Symbols.find?_eq_plainFunction? hm h hname

/-- `func name()`, with or without a receiver of that type. -/
def bareFunction (receiver : Option Node) (name : String) : FuncDecl :=
  ⟨name, receiver.map fun type => ⟨none, ⟨.zero, type⟩⟩, [], [], [], .zero⟩

/-- `func Get()`, `func (*Client) Get()`, `func (schema.Data) Get()` and `func (List[T]) Len()`. -/
def getters : Module :=
  ⟨"m", "m", [], [bareFunction none "Get",
    bareFunction (some (.star ⟨.zero, .ident "Client" none⟩)) "Get",
    bareFunction (some (.selector ⟨.zero, .ident "schema" none⟩ "Data")) "Get",
    bareFunction (some (.index ⟨.zero, .ident "List" none⟩ ⟨.zero, .ident "T" none⟩)) "Len"],
    [], [], ∅⟩

theorem getters_scope : ∃ sc, Scope.ofModule getters = .ok sc ∧
    sc.symbols.functions.size = 4 ∧
    sc.symbols.functions.find? "Get" = some (bareFunction none "Get") ∧
    sc.symbols.functions.find? "schema.Data.Get" =
      some (bareFunction (some (.selector ⟨.zero, .ident "schema" none⟩ "Data")) "Get") ∧
    sc.symbols.functions.find? "Len" = none := by
  have hgetters : getters.WellNamed := ⟨by decide, by decide, by decide⟩
  obtain ⟨sc, hsc⟩ : ∃ sc, Scope.ofModule getters = .ok sc := ⟨_, rfl⟩
  obtain ⟨hperm, hkeys, hplain⟩ := scope_functions hgetters hsc
  refine ⟨sc, hsc, hperm.length_eq, (hplain "Get" (by decide)).2, ?_,
    (hplain "Len" (by decide)).2⟩
  obtain ⟨receiver, hreceiver, hfind⟩ := hkeys _ (List.mem_cons_of_mem _
    (List.mem_cons_of_mem _ List.mem_cons_self))
  cases hreceiver
  exact hfind

end ResourceLint
