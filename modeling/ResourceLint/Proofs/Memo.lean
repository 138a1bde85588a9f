import ResourceLint.Inference.Signature

/-!
# What inferences remember

A session remembers the types of declarations, the signatures of functions and the types that are
written in place. `memos` lists everything of this kind that an inference about a piece of syntax
can come to remember while it stays within that syntax: bindings are followed, function bodies and
the values inside composite literals are not looked into.

The tables of a module lead to other pieces of syntax by name. They hold nothing but the
declarations of the module, each under its own name.
-/

namespace ResourceLint

/-- Something that is remembered once it has been inferred. -/
inductive Memo where
  | type (d : TypeDecl)
  | function (f : FuncDecl)
  /-- A struct type written in place. -/
  | struct (span : Span) (fields : List FieldGroup)
  /-- A function type written in place, or the type of a function literal. -/
  | func (span : Span) (params results : List FieldGroup)

mutual

def Expr.memos : Expr → List Memo
  | ⟨_, .ident _ (some binding)⟩ => Binding.memos binding
  | ⟨_, .selector x _⟩ | ⟨_, .index x _⟩ | ⟨_, .slice x⟩ | ⟨_, .star x⟩ | ⟨_, .unary _ x⟩
  | ⟨_, .binary _ x _⟩ | ⟨_, .paren x⟩ | ⟨_, .typeAssert x none⟩ => Expr.memos x
  | ⟨_, .call fn args⟩ => Expr.memos fn ++ Expr.memosAll args
  | ⟨_, .typeAssert _ (some type)⟩ | ⟨_, .composite (some type) _⟩ => Expr.memos type
  | ⟨span, .funcLit params results _⟩ | ⟨span, .funcType params results⟩ =>
      .func span params results ::
        (FieldGroup.memosAll params ++ FieldGroup.memosAll results)
  | ⟨_, .arrayType elem⟩ | ⟨_, .ellipsis (some elem)⟩ => Expr.memos elem
  | ⟨_, .mapType key value⟩ => Expr.memos key ++ Expr.memos value
  | ⟨_, .chanType _ value⟩ => Expr.memos value
  | ⟨span, .structType fields⟩ => .struct span fields :: FieldGroup.memosAll fields
  | _ => []

def Expr.memosAll : List Expr → List Memo
  | [] => []
  | e :: es => Expr.memos e ++ Expr.memosAll es

def Expr.memosOption : Option Expr → List Memo
  | none => []
  | some e => Expr.memos e

def Binding.memos : Binding → List Memo
  | .assign ⟨_, values, _, _⟩ => Expr.memosAll values
  | .type d => TypeDecl.memos d
  | .field g => FieldGroup.memos g
  | .value spec => ValueSpec.memos spec
  | .func f => FuncDecl.memos f

def FieldGroup.memos : FieldGroup → List Memo
  | ⟨_, type, _⟩ => Expr.memos type

def FieldGroup.memosAll : List FieldGroup → List Memo
  | [] => []
  | g :: gs => FieldGroup.memos g ++ FieldGroup.memosAll gs

/-- The struct of a struct declaration is not written in place. -/
def TypeDecl.memos : TypeDecl → List Memo
  | ⟨name, ⟨inner, .structType fields⟩, span⟩ =>
      .type ⟨name, ⟨inner, .structType fields⟩, span⟩ :: FieldGroup.memosAll fields
  | ⟨name, type, span⟩ => .type ⟨name, type, span⟩ :: Expr.memos type

def ValueSpec.memos : ValueSpec → List Memo
  | ⟨_, type, values, _⟩ => Expr.memosOption type ++ Expr.memosAll values

def FuncDecl.memos : FuncDecl → List Memo
  | ⟨name, receiver, params, results, body, span⟩ =>
      .function ⟨name, receiver, params, results, body, span⟩ ::
        (FieldGroup.memosAll params ++ FieldGroup.memosAll results)

end

def Subject.memos : Subject → List Memo
  | .expr e => e.memos
  | .decl d => d.memos

/-- What can be remembered on the way to something, and the thing itself. -/
def Memo.parts : Memo → List Memo
  | .type d => d.memos
  | .function f => f.memos
  | .struct span fields => Expr.memos ⟨span, .structType fields⟩
  | .func span params results => Expr.memos ⟨span, .funcType params results⟩

def Module.memos (m : Module) : List Memo :=
  m.types.flatMap TypeDecl.memos ++ m.functions.flatMap FuncDecl.memos ++
    m.values.flatMap ValueSpec.memos

theorem memos_subset_memosAll {g : FieldGroup} {groups : List FieldGroup} (h : g ∈ groups) :
    g.memos ⊆ FieldGroup.memosAll groups := by
  induction groups with
  | nil => cases h
  | cons first rest ih =>
      intro memo hmemo
      rw [FieldGroup.memosAll, List.mem_append]
      rcases List.mem_cons.mp h with rfl | h
      · exact Or.inl hmemo
      · exact Or.inr (ih h hmemo)

theorem FieldGroup.memos_eq (g : FieldGroup) : g.memos = g.type.memos := by
  cases g
  rw [FieldGroup.memos]

theorem FuncDecl.memos_eq (f : FuncDecl) :
    f.memos = .function f ::
      (FieldGroup.memosAll f.params ++ FieldGroup.memosAll f.results) := by
  cases f
  rw [FuncDecl.memos]

theorem TypeDecl.memos_of_struct {d : TypeDecl} {groups : List FieldGroup}
    (h : d.structGroups? = some groups) :
    d.memos = .type d :: FieldGroup.memosAll groups := by
  obtain ⟨name, ⟨inner, node⟩, span⟩ := d
  cases node <;> simp only [TypeDecl.structGroups?, reduceCtorEq, Option.some.injEq] at h
  rw [TypeDecl.memos, h]

theorem TypeDecl.memos_of_not_struct {d : TypeDecl} (h : d.structGroups? = none) :
    d.memos = .type d :: d.type.memos := by
  obtain ⟨name, ⟨inner, node⟩, span⟩ := d
  cases node <;> first | rfl | simp [TypeDecl.structGroups?] at h

theorem Memo.mem_parts (memo : Memo) : memo ∈ memo.parts := by
  cases memo with
  | type d =>
      cases h : d.structGroups? with
      | none => simp [parts, TypeDecl.memos_of_not_struct h]
      | some groups => simp [parts, TypeDecl.memos_of_struct h]
  | function f => simp [parts, FuncDecl.memos_eq]
  | struct span fields => simp [parts, Expr.memos]
  | func span params results => simp [parts, Expr.memos]

/-- The name that a function goes by in its module. -/
def FuncDecl.key (f : FuncDecl) : String :=
  QualifiedName.method f.receiverType?.join f.name

theorem FuncDecl.key_of_receiver {f : FuncDecl} {receiver : Option String}
    (h : f.receiverType? = some receiver) : f.key = QualifiedName.method receiver f.name := by
  rw [key, h, Option.join_some]

namespace Symbols

variable {m : Module} {s : Symbols} {f : FuncDecl}

/-- The tables that the scope of a module has, in terms of what their making leaves open: only
the table of functions can fail. -/
theorem ofModule_eq_ok_iff :
    ofModule m = .ok s ↔
      m.functions.foldlM (addFunction m.id) ∅ = .ok s.functions ∧
      s.types = Table.ofList (m.types.map fun d => (d.name, d)) ∧
      s.values = Table.ofList (m.values.flatMap fun v => v.names.map fun name => (name, v)) := by
  unfold ofModule
  cases hf : m.functions.foldlM (addFunction m.id) ∅ with
  | error e => simp [bind, Except.bind]
  | ok functions =>
      obtain ⟨fs, ts, vs⟩ := s
      simp only [bind, Except.bind, pure, Except.pure, Except.ok.injEq, Symbols.mk.injEq]
      constructor
      · rintro ⟨rfl, rfl, rfl⟩
        exact ⟨rfl, rfl, rfl⟩
      · rintro ⟨rfl, rfl, rfl⟩
        exact ⟨rfl, rfl, rfl⟩

theorem type_of_find? (hs : ofModule m = .ok s) {name : String} {d : TypeDecl}
    (h : s.types.find? name = some d) : d ∈ m.types ∧ d.name = name := by
  rw [(ofModule_eq_ok_iff.mp hs).2.1] at h
  obtain ⟨d', hd', heq⟩ := List.mem_map.mp (Table.mem_of_find?_ofList h)
  cases heq
  exact ⟨hd', rfl⟩

theorem value_of_find? (hs : ofModule m = .ok s) {name : String} {v : ValueSpec}
    (h : s.values.find? name = some v) : v ∈ m.values ∧ name ∈ v.names := by
  rw [(ofModule_eq_ok_iff.mp hs).2.2] at h
  obtain ⟨v', hv', hmem⟩ := List.mem_flatMap.mp (Table.mem_of_find?_ofList h)
  obtain ⟨name', hname, heq⟩ := List.mem_map.mp hmem
  cases heq
  exact ⟨hv', hname⟩

theorem addFunction_eq_ok {home : String} {t t' : Table FuncDecl}
    (h : addFunction home t f = .ok t') :
    f.receiverType?.isSome = true ∧ t' = t.insert f.key f := by
  unfold addFunction at h
  split at h
  · next receiver hreceiver =>
      cases h
      exact ⟨by rw [hreceiver]; rfl, by rw [f.key_of_receiver hreceiver]⟩
  · cases h

theorem foldlM_addFunction_eq_ok {home : String} {fs : List FuncDecl} {t t' : Table FuncDecl}
    (h : fs.foldlM (addFunction home) t = .ok t') :
    (∀ f ∈ fs, f.receiverType?.isSome = true) ∧
      t' = (fs.map fun f => (f.key, f)).foldl (fun t entry => t.insert entry.1 entry.2) t := by
  induction fs generalizing t with
  | nil =>
      cases h
      exact ⟨by simp, rfl⟩
  | cons first rest ih =>
      rw [List.foldlM_cons] at h
      cases hstep : addFunction home t first with
      | error e =>
          rw [hstep] at h
          cases h
      | ok t₁ =>
          rw [hstep] at h
          obtain ⟨hreceiver, rfl⟩ := addFunction_eq_ok hstep
          obtain ⟨hreceivers, rfl⟩ := ih h
          exact ⟨List.forall_mem_cons.mpr ⟨hreceiver, hreceivers⟩, rfl⟩

theorem receiverType?_isSome (h : ofModule m = .ok s) (hf : f ∈ m.functions) :
    ∃ receiver, f.receiverType? = some receiver :=
  Option.isSome_iff_exists.mp ((foldlM_addFunction_eq_ok (ofModule_eq_ok_iff.mp h).1).1 f hf)

/-- The functions are put into the table one after the other, each under its key. -/
theorem functions_eq (h : ofModule m = .ok s) :
    s.functions = Table.ofList (m.functions.map fun f => (f.key, f)) :=
  (foldlM_addFunction_eq_ok (ofModule_eq_ok_iff.mp h).1).2

theorem function_of_find? (hs : ofModule m = .ok s) {key : String} {f : FuncDecl}
    (h : s.functions.find? key = some f) :
    f ∈ m.functions ∧ ∃ receiver, f.receiverType? = some receiver ∧
      QualifiedName.method receiver f.name = key := by
  rw [functions_eq hs] at h
  obtain ⟨f', hf, heq⟩ := List.mem_map.mp (Table.mem_of_find?_ofList h)
  cases heq
  obtain ⟨receiver, hreceiver⟩ := receiverType?_isSome hs hf
  exact ⟨hf, receiver, hreceiver, (f.key_of_receiver hreceiver).symm⟩

/-- Everything that the declarations in the tables can make an inference remember. -/
structure Within (known : Memo → Prop) (s : Symbols) : Prop where
  types : ∀ {name d}, s.types.find? name = some d → ∀ memo ∈ d.memos, known memo
  functions : ∀ {key f}, s.functions.find? key = some f → ∀ memo ∈ f.memos, known memo
  values : ∀ {name v}, s.values.find? name = some v → ∀ memo ∈ v.memos, known memo

theorem within_of_module {known : Memo → Prop} (hs : ofModule m = .ok s)
    (h : ∀ memo ∈ m.memos, known memo) : s.Within known where
  types hd memo hmemo := h memo <| by
    simp only [Module.memos, List.mem_append, List.mem_flatMap]
    exact Or.inl (Or.inl ⟨_, (type_of_find? hs hd).1, hmemo⟩)
  functions hf memo hmemo := h memo <| by
    simp only [Module.memos, List.mem_append, List.mem_flatMap]
    exact Or.inl (Or.inr ⟨_, (function_of_find? hs hf).1, hmemo⟩)
  values hv memo hmemo := h memo <| by
    simp only [Module.memos, List.mem_append, List.mem_flatMap]
    exact Or.inr ⟨_, (value_of_find? hs hv).1, hmemo⟩

end Symbols

end ResourceLint
