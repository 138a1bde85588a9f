import Mathlib.Data.List.Basic
import ResourceLint.Proofs.Memo

/-!
# What one step asks

One step of an inference asks about other subjects in the same module (`questions`), and about
things that the module may remember (`remembers`); everything else it asks about is found by name.
By itself it gives no other names to types than those that it sees (`ownNames`). The subjects asked
about are smaller than the subject itself, and they lead to nothing that the subject would not lead
to.
-/

namespace ResourceLint

/-- The types of parameters, results or fields. -/
def FieldGroup.questions (groups : List FieldGroup) : List Subject :=
  groups.map fun g => .expr g.type

/-- A value on its own, and the parts of the call that it is. -/
def Expr.valueQuestions (value : Expr) : List Subject :=
  .expr value ::
    match value.node with
    | .call fn args => .expr fn :: args.map .expr
    | _ => []

def ValueSpec.questions (spec : ValueSpec) : List Subject :=
  spec.type.toList.map .expr ++ spec.values.flatMap Expr.valueQuestions

def Binding.questions : Binding → List Subject
  | .assign stmt => stmt.values.flatMap Expr.valueQuestions
  | .type d => [.decl d]
  | .field g => FieldGroup.questions [g]
  | .value spec => spec.questions
  | .func _ => []

def Expr.questions (e : Expr) : List Subject :=
  match e.node with
  | .ident _ (some binding) => binding.questions
  | .selector x _ | .index x _ | .slice x | .star x | .unary _ x | .binary _ x _ | .paren x
  | .typeAssert x none => [.expr x]
  | .call fn args => .expr fn :: args.map .expr
  | .typeAssert _ (some type) | .composite (some type) _ => [.expr type]
  | .arrayType elem | .ellipsis (some elem) => [.expr elem]
  | .mapType key value => [.expr key, .expr value]
  | .chanType _ value => [.expr value]
  | _ => []

/-- What an inference of the expression may recall or leave behind by itself. -/
def Expr.remembers (e : Expr) : List Memo :=
  match e.node with
  | .ident _ (some (.func f)) => [.function f]
  | .funcLit params results _ | .funcType params results => [.func e.span params results]
  | .structType fields => [.struct e.span fields]
  | _ => []

/-- What has to be asked to work something out. -/
def Memo.questions : Memo → List Subject
  | .type d =>
      match d.structGroups? with
      | some groups => FieldGroup.questions groups
      | none => [.expr d.type]
  | .function f => FieldGroup.questions (f.params ++ f.results)
  | .struct _ fields => FieldGroup.questions fields
  | .func _ params results => FieldGroup.questions (params ++ results)

/-- The names that one step about an expression may give to a type. -/
def Expr.ownNames (e : Expr) : List String :=
  match e.node with
  | .ident name none => [name]
  | .selector x sel => sel :: x.identName?.toList
  | _ => []

/-- The name that a declared type goes by. -/
def Memo.ownNames : Memo → List String
  | .type d => [d.name]
  | _ => []

section Memos

theorem Expr.memos_subset_memosAll {x : Expr} {es : List Expr} (h : x ∈ es) :
    x.memos ⊆ Expr.memosAll es := by
  induction es with
  | nil => cases h
  | cons first rest ih =>
      intro memo hmemo
      rw [Expr.memosAll, List.mem_append]
      rcases List.mem_cons.mp h with rfl | h
      · exact .inl hmemo
      · exact .inr (ih h hmemo)

theorem FieldGroup.memos_of_question {groups : List FieldGroup} {y : Subject}
    (h : y ∈ FieldGroup.questions groups) : y.memos ⊆ FieldGroup.memosAll groups := by
  obtain ⟨g, hg, rfl⟩ := List.mem_map.mp h
  rw [Subject.memos, ← FieldGroup.memos_eq]
  exact ResourceLint.memos_subset_memosAll hg

theorem Expr.memos_of_valueQuestion {value : Expr} {y : Subject} (h : y ∈ value.valueQuestions) :
    y.memos ⊆ value.memos := by
  obtain ⟨span, node⟩ := value
  rcases List.mem_cons.mp h with rfl | h
  · exact fun _ hmemo => hmemo
  · cases node with
    | call fn args =>
        rw [Expr.memos]
        rcases List.mem_cons.mp h with rfl | h
        · exact List.subset_append_left ..
        · obtain ⟨arg, harg, rfl⟩ := List.mem_map.mp h
          exact List.subset_append_of_subset_right _ (Expr.memos_subset_memosAll harg)
    | _ => cases h

theorem Expr.memos_of_valueQuestions {values : List Expr} {y : Subject}
    (h : y ∈ values.flatMap Expr.valueQuestions) : y.memos ⊆ Expr.memosAll values := by
  obtain ⟨value, hvalue, hy⟩ := List.mem_flatMap.mp h
  exact List.Subset.trans (Expr.memos_of_valueQuestion hy) (Expr.memos_subset_memosAll hvalue)

theorem ValueSpec.memos_of_question {spec : ValueSpec} {y : Subject} (h : y ∈ spec.questions) :
    y.memos ⊆ spec.memos := by
  obtain ⟨names, type, values, span⟩ := spec
  rw [ValueSpec.memos]
  rcases List.mem_append.mp h with h | h
  · obtain ⟨x, hx, rfl⟩ := List.mem_map.mp h
    obtain rfl : type = some x := Option.mem_toList.mp hx
    exact List.subset_append_left ..
  · exact List.subset_append_of_subset_right _ (Expr.memos_of_valueQuestions h)

theorem Binding.memos_of_question {binding : Binding} {y : Subject} (h : y ∈ binding.questions) :
    y.memos ⊆ binding.memos := by
  cases binding with
  | assign stmt =>
      obtain ⟨targets, values, declares, span⟩ := stmt
      exact Expr.memos_of_valueQuestions h
  | type d =>
      obtain rfl := List.mem_singleton.mp h
      exact List.Subset.refl _
  | field g =>
      have hmemos := FieldGroup.memos_of_question h
      rwa [FieldGroup.memosAll, FieldGroup.memosAll, List.append_nil] at hmemos
  | value spec => exact ValueSpec.memos_of_question h
  | func f => cases h

theorem Expr.memos_of_question {e : Expr} {y : Subject} (h : y ∈ e.questions) :
    y.memos ⊆ e.memos := by
  obtain ⟨span, node⟩ := e
  have hone : ∀ x : Expr, y ∈ [Subject.expr x] → y.memos ⊆ x.memos := by
    intro x hx
    obtain rfl := List.mem_singleton.mp hx
    exact List.Subset.refl _
  cases node with
  | ident name binding =>
      cases binding with
      | none => cases h
      | some binding => exact Binding.memos_of_question h
  | selector x _ | index x _ | slice x | star x | unary _ x | binary _ x _ | paren x
  | arrayType x | chanType _ x => exact hone x h
  | call fn args =>
      have hmem : y ∈ Expr.valueQuestions ⟨span, .call fn args⟩ := List.mem_cons_of_mem _ h
      exact Expr.memos_of_valueQuestion hmem
  | typeAssert x type =>
      cases type with
      | none => exact hone x h
      | some type => exact hone type h
  | composite type elements =>
      cases type with
      | none => cases h
      | some type => exact hone type h
  | ellipsis elem =>
      cases elem with
      | none => cases h
      | some elem => exact hone elem h
  | mapType key value =>
      rw [Expr.memos]
      rcases List.mem_cons.mp h with rfl | h
      · exact List.subset_append_left ..
      · exact List.subset_append_of_subset_right _ (hone value h)
  | _ => cases h

theorem Expr.parts_of_remembers {e : Expr} {memo : Memo} (h : memo ∈ e.remembers) :
    memo.parts ⊆ e.memos := by
  obtain ⟨span, node⟩ := e
  cases node with
  | ident name binding =>
      rcases binding with _ | binding
      · cases h
      · cases binding with
        | func f =>
            obtain rfl := List.mem_singleton.mp h
            exact List.Subset.refl _
        | _ => cases h
  | funcLit params results body =>
      obtain rfl := List.mem_singleton.mp h
      exact List.Subset.refl _
  | funcType params results =>
      obtain rfl := List.mem_singleton.mp h
      exact List.Subset.refl _
  | structType fields =>
      obtain rfl := List.mem_singleton.mp h
      exact List.Subset.refl _
  | _ => cases h

theorem Memo.memos_of_question {memo : Memo} {y : Subject} (h : y ∈ memo.questions) :
    y.memos ⊆ memo.parts := by
  have hboth : ∀ {params results : List FieldGroup},
      y ∈ FieldGroup.questions (params ++ results) →
      y.memos ⊆ FieldGroup.memosAll params ++ FieldGroup.memosAll results := by
    intro params results hy
    rw [FieldGroup.questions, List.map_append] at hy
    rcases List.mem_append.mp hy with hy | hy
    · exact List.subset_append_of_subset_left _ (FieldGroup.memos_of_question hy)
    · exact List.subset_append_of_subset_right _ (FieldGroup.memos_of_question hy)
  cases memo with
  | type d =>
      cases hgroups : d.structGroups? with
      | none =>
          simp only [Memo.questions, hgroups] at h
          obtain rfl := List.mem_singleton.mp h
          rw [Memo.parts, TypeDecl.memos_of_not_struct hgroups]
          exact List.subset_cons_self ..
      | some groups =>
          simp only [Memo.questions, hgroups] at h
          rw [Memo.parts, TypeDecl.memos_of_struct hgroups]
          exact List.subset_cons_of_subset _ (FieldGroup.memos_of_question h)
  | function f =>
      rw [Memo.parts, FuncDecl.memos_eq]
      exact List.subset_cons_of_subset _ (hboth h)
  | struct span fields =>
      rw [Memo.parts, Expr.memos]
      exact List.subset_cons_of_subset _ (FieldGroup.memos_of_question h)
  | func span params results =>
      rw [Memo.parts, Expr.memos]
      exact List.subset_cons_of_subset _ (hboth h)

end Memos

section Size

theorem FieldGroup.sizeOf_of_question {groups : List FieldGroup} {y : Subject}
    (h : y ∈ FieldGroup.questions groups) : sizeOf y < sizeOf groups := by
  obtain ⟨⟨names, type, span⟩, hg, rfl⟩ := List.mem_map.mp h
  have hlt := List.sizeOf_lt_of_mem hg
  simp only [FieldGroup.mk.sizeOf_spec] at hlt
  simp only [Subject.expr.sizeOf_spec]
  omega

theorem Expr.sizeOf_of_valueQuestion {value : Expr} {y : Subject} (h : y ∈ value.valueQuestions) :
    sizeOf y ≤ 1 + sizeOf value := by
  obtain ⟨span, node⟩ := value
  rcases List.mem_cons.mp h with rfl | h
  · simp
  · cases node with
    | call fn args =>
        simp only [Expr.mk.sizeOf_spec, Node.call.sizeOf_spec]
        rcases List.mem_cons.mp h with rfl | h
        · simp only [Subject.expr.sizeOf_spec]
          omega
        · obtain ⟨arg, harg, rfl⟩ := List.mem_map.mp h
          have := List.sizeOf_lt_of_mem harg
          simp only [Subject.expr.sizeOf_spec]
          omega
    | _ => cases h

theorem Expr.sizeOf_of_valueQuestions {values : List Expr} {y : Subject}
    (h : y ∈ values.flatMap Expr.valueQuestions) : sizeOf y ≤ sizeOf values := by
  obtain ⟨value, hvalue, hy⟩ := List.mem_flatMap.mp h
  have := List.sizeOf_lt_of_mem hvalue
  have := Expr.sizeOf_of_valueQuestion hy
  omega

theorem ValueSpec.sizeOf_of_question {spec : ValueSpec} {y : Subject} (h : y ∈ spec.questions) :
    sizeOf y < sizeOf spec := by
  obtain ⟨names, type, values, span⟩ := spec
  simp only [ValueSpec.mk.sizeOf_spec]
  rcases List.mem_append.mp h with h | h
  · obtain ⟨x, hx, rfl⟩ := List.mem_map.mp h
    obtain rfl : type = some x := Option.mem_toList.mp hx
    simp only [Subject.expr.sizeOf_spec, Option.some.sizeOf_spec]
    omega
  · have : sizeOf y ≤ sizeOf values := Expr.sizeOf_of_valueQuestions h
    omega

theorem Binding.sizeOf_of_question {binding : Binding} {y : Subject} (h : y ∈ binding.questions) :
    sizeOf y ≤ sizeOf binding := by
  cases binding with
  | assign stmt =>
      obtain ⟨targets, values, declares, span⟩ := stmt
      have : sizeOf y ≤ sizeOf values := Expr.sizeOf_of_valueQuestions h
      simp only [Binding.assign.sizeOf_spec, Assignment.mk.sizeOf_spec]
      omega
  | type d =>
      obtain rfl := List.mem_singleton.mp h
      simp
  | field g =>
      have := FieldGroup.sizeOf_of_question h
      simp only [List.cons.sizeOf_spec, List.nil.sizeOf_spec] at this
      simp only [Binding.field.sizeOf_spec]
      omega
  | value spec =>
      have : sizeOf y < sizeOf spec := ValueSpec.sizeOf_of_question h
      simp only [Binding.value.sizeOf_spec]
      omega
  | func f => cases h

theorem Expr.sizeOf_of_question {e : Expr} {y : Subject} (h : y ∈ e.questions) :
    sizeOf y < sizeOf (Subject.expr e) := by
  obtain ⟨span, node⟩ := e
  simp only [Subject.expr.sizeOf_spec, Expr.mk.sizeOf_spec]
  have hone : ∀ x : Expr, sizeOf x < sizeOf node → y ∈ [Subject.expr x] →
      sizeOf y < 1 + (1 + sizeOf span + sizeOf node) := by
    intro x hlt hx
    obtain rfl := List.mem_singleton.mp hx
    simp only [Subject.expr.sizeOf_spec]
    omega
  cases node with
  | ident name binding =>
      cases binding with
      | none => cases h
      | some binding =>
          have : sizeOf y ≤ sizeOf binding := Binding.sizeOf_of_question h
          simp only [Node.ident.sizeOf_spec, Option.some.sizeOf_spec]
          omega
  | selector x _ | slice x | star x | unary _ x | paren x | arrayType x | chanType _ x =>
      refine hone x ?_ h
      simp only [Node.selector.sizeOf_spec, Node.slice.sizeOf_spec, Node.star.sizeOf_spec,
        Node.unary.sizeOf_spec, Node.paren.sizeOf_spec, Node.arrayType.sizeOf_spec,
        Node.chanType.sizeOf_spec]
      omega
  | index x _ | binary _ x _ =>
      refine hone x ?_ h
      simp only [Node.index.sizeOf_spec, Node.binary.sizeOf_spec]
      omega
  | call fn args =>
      rcases List.mem_cons.mp h with rfl | h
      · exact hone fn (by simp only [Node.call.sizeOf_spec]; omega) (List.mem_singleton_self _)
      · obtain ⟨arg, harg, rfl⟩ := List.mem_map.mp h
        have := List.sizeOf_lt_of_mem harg
        exact hone arg (by simp only [Node.call.sizeOf_spec]; omega) (List.mem_singleton_self _)
  | typeAssert x type =>
      cases type with
      | none => exact hone x (by simp only [Node.typeAssert.sizeOf_spec]; omega) h
      | some type =>
          refine hone type ?_ h
          simp only [Node.typeAssert.sizeOf_spec, Option.some.sizeOf_spec]
          omega
  | composite type elements =>
      cases type with
      | none => cases h
      | some type =>
          refine hone type ?_ h
          simp only [Node.composite.sizeOf_spec, Option.some.sizeOf_spec]
          omega
  | ellipsis elem =>
      cases elem with
      | none => cases h
      | some elem =>
          refine hone elem ?_ h
          simp only [Node.ellipsis.sizeOf_spec, Option.some.sizeOf_spec]
          omega
  | mapType key value =>
      have hkey : sizeOf key < sizeOf (Node.mapType key value) := by
        simp only [Node.mapType.sizeOf_spec]
        omega
      have hvalue : sizeOf value < sizeOf (Node.mapType key value) := by
        simp only [Node.mapType.sizeOf_spec]
        omega
      rcases List.mem_cons.mp h with rfl | h
      · exact hone key hkey (List.mem_singleton_self _)
      · exact hone value hvalue h
  | _ => cases h

theorem FieldGroup.sizeOf_of_question_append {params results : List FieldGroup} {y : Subject}
    (h : y ∈ FieldGroup.questions (params ++ results)) :
    sizeOf y < sizeOf params + sizeOf results := by
  rw [FieldGroup.questions, List.map_append] at h
  rcases List.mem_append.mp h with h | h
  · have := FieldGroup.sizeOf_of_question h
    omega
  · have := FieldGroup.sizeOf_of_question h
    omega

theorem Memo.sizeOf_of_question {memo : Memo} {y : Subject} (h : y ∈ memo.questions) :
    sizeOf y < sizeOf memo := by
  cases memo with
  | type d =>
      obtain ⟨name, ⟨inner, node⟩, span⟩ := d
      simp only [Memo.type.sizeOf_spec, TypeDecl.mk.sizeOf_spec, Expr.mk.sizeOf_spec]
      cases hgroups : TypeDecl.structGroups? ⟨name, ⟨inner, node⟩, span⟩ with
      | none =>
          simp only [Memo.questions, hgroups] at h
          obtain rfl := List.mem_singleton.mp h
          simp only [Subject.expr.sizeOf_spec, Expr.mk.sizeOf_spec]
          omega
      | some groups =>
          simp only [Memo.questions, hgroups] at h
          have := FieldGroup.sizeOf_of_question h
          cases node with
          | structType fields =>
              cases hgroups
              simp only [Node.structType.sizeOf_spec]
              omega
          | _ => cases hgroups
  | function f =>
      obtain ⟨name, receiver, params, results, body, span⟩ := f
      have : sizeOf y < sizeOf params + sizeOf results := FieldGroup.sizeOf_of_question_append h
      simp only [Memo.function.sizeOf_spec, FuncDecl.mk.sizeOf_spec]
      omega
  | struct span fields =>
      have := FieldGroup.sizeOf_of_question h
      simp only [Memo.struct.sizeOf_spec]
      omega
  | func span params results =>
      have := FieldGroup.sizeOf_of_question_append h
      simp only [Memo.func.sizeOf_spec]
      omega

theorem Expr.sizeOf_of_remembers {e : Expr} {memo : Memo} (h : memo ∈ e.remembers) :
    sizeOf memo < sizeOf (Subject.expr e) := by
  obtain ⟨span, node⟩ := e
  simp only [Subject.expr.sizeOf_spec, Expr.mk.sizeOf_spec]
  cases node with
  | ident name binding =>
      rcases binding with _ | binding
      · cases h
      · cases binding with
        | func f =>
            obtain rfl := List.mem_singleton.mp h
            simp only [Memo.function.sizeOf_spec, Node.ident.sizeOf_spec,
              Option.some.sizeOf_spec, Binding.func.sizeOf_spec]
            omega
        | _ => cases h
  | funcLit params results body =>
      obtain rfl := List.mem_singleton.mp h
      simp only [Memo.func.sizeOf_spec, Node.funcLit.sizeOf_spec]
      omega
  | funcType params results =>
      obtain rfl := List.mem_singleton.mp h
      simp only [Memo.func.sizeOf_spec, Node.funcType.sizeOf_spec]
      omega
  | structType fields =>
      obtain rfl := List.mem_singleton.mp h
      simp only [Memo.struct.sizeOf_spec, Node.structType.sizeOf_spec]
      omega
  | _ => cases h

end Size

end ResourceLint
