import ResourceLint.Proofs.Occurrence
import ResourceLint.Proofs.Question

/-!
# Names in syntax

Everything that a piece of syntax declares or refers to by name, wherever it stands: in the types of
fields and parameters, in the bodies of functions, and in the declarations that identifiers are
bound to.
-/

namespace ResourceLint

mutual

def Expr.words : Expr → List String
  | ⟨_, node⟩ => Node.words node

def Node.words : Node → List String
  | .ident name binding => name :: Binding.wordsOption binding
  | .selector x sel => sel :: Expr.words x
  | .call fn args => Expr.words fn ++ Expr.wordsAll args
  | .slice x | .star x | .unary _ x | .paren x | .arrayType x | .chanType _ x => Expr.words x
  | .index x y | .binary _ x y | .keyValue x y | .mapType x y => Expr.words x ++ Expr.words y
  | .typeAssert x type => Expr.words x ++ Expr.wordsOption type
  | .composite type elements => Expr.wordsOption type ++ Expr.wordsAll elements
  | .funcLit params results body =>
      FieldGroup.wordsAll params ++ FieldGroup.wordsAll results ++ Stmt.wordsAll body
  | .funcType params results => FieldGroup.wordsAll params ++ FieldGroup.wordsAll results
  | .structType fields => FieldGroup.wordsAll fields
  | .ellipsis elem => Expr.wordsOption elem
  | .literal .. | .interfaceType | .bad => []

def Expr.wordsOption : Option Expr → List String
  | none => []
  | some e => Expr.words e

def Expr.wordsAll : List Expr → List String
  | [] => []
  | e :: es => Expr.words e ++ Expr.wordsAll es

def Binding.words : Binding → List String
  | .assign stmt => Assignment.words stmt
  | .type d => TypeDecl.words d
  | .field g => FieldGroup.words g
  | .value spec => ValueSpec.words spec
  | .func f => FuncDecl.words f

def Binding.wordsOption : Option Binding → List String
  | none => []
  | some binding => Binding.words binding

def FieldGroup.words : FieldGroup → List String
  | ⟨names, type, _⟩ => names ++ Expr.words type

def FieldGroup.wordsAll : List FieldGroup → List String
  | [] => []
  | g :: gs => FieldGroup.words g ++ FieldGroup.wordsAll gs

def TypeDecl.words : TypeDecl → List String
  | ⟨name, type, _⟩ => name :: Expr.words type

def ValueSpec.words : ValueSpec → List String
  | ⟨names, type, values, _⟩ => names ++ Expr.wordsOption type ++ Expr.wordsAll values

def ValueSpec.wordsAll : List ValueSpec → List String
  | [] => []
  | spec :: specs => ValueSpec.words spec ++ ValueSpec.wordsAll specs

def Assignment.words : Assignment → List String
  | ⟨targets, values, _, _⟩ => Expr.wordsAll targets ++ Expr.wordsAll values

def Receiver.wordsOption : Option Receiver → List String
  | none => []
  | some ⟨name, type⟩ => name.toList ++ Expr.words type

def FuncDecl.words : FuncDecl → List String
  | ⟨name, receiver, params, results, body, _⟩ =>
      name :: (Receiver.wordsOption receiver ++ FieldGroup.wordsAll params ++
        FieldGroup.wordsAll results ++ Stmt.wordsAll body)

def Stmt.words : Stmt → List String
  | .expr x | .defer x | .go x | .incDec x => Expr.words x
  | .assign stmt => Assignment.words stmt
  | .var specs => ValueSpec.wordsAll specs
  | .ret results => Expr.wordsAll results
  | .ifElse init cond body otherwise =>
      Stmt.wordsOption init ++ Expr.words cond ++ Stmt.wordsAll body ++ Stmt.wordsOption otherwise
  | .forLoop init cond post body =>
      Stmt.wordsOption init ++ Expr.wordsOption cond ++ Stmt.wordsOption post ++
        Stmt.wordsAll body
  | .rangeLoop key value x body =>
      Expr.wordsOption key ++ Expr.wordsOption value ++ Expr.words x ++ Stmt.wordsAll body
  | .switch init tag clauses =>
      Stmt.wordsOption init ++ Expr.wordsOption tag ++ Clause.wordsAll clauses
  | .block body => Stmt.wordsAll body
  | .jump => []

def Stmt.wordsOption : Option Stmt → List String
  | none => []
  | some s => Stmt.words s

def Stmt.wordsAll : List Stmt → List String
  | [] => []
  | s :: ss => Stmt.words s ++ Stmt.wordsAll ss

def Clause.wordsAll : List Clause → List String
  | [] => []
  | ⟨exprs, body⟩ :: clauses => Expr.wordsAll exprs ++ Stmt.wordsAll body ++ Clause.wordsAll clauses

end

def Subject.words : Subject → List String
  | .expr e => e.words
  | .decl d => d.words

def Memo.words : Memo → List String
  | .type d => d.words
  | .function f => f.words
  | .struct _ fields => FieldGroup.wordsAll fields
  | .func _ params results => FieldGroup.wordsAll params ++ FieldGroup.wordsAll results

/-- Everything that a module declares, and refers to in its declarations. -/
def Module.words (m : Module) : List String :=
  m.types.flatMap TypeDecl.words ++ m.functions.flatMap FuncDecl.words ++
    m.values.flatMap ValueSpec.words

section Lists

theorem Expr.wordsAll_eq (es : List Expr) : Expr.wordsAll es = es.flatMap Expr.words := by
  induction es with
  | nil => rfl
  | cons e es ih => rw [Expr.wordsAll, ih, List.flatMap_cons]

theorem Expr.wordsOption_eq (o : Option Expr) :
    Expr.wordsOption o = o.toList.flatMap Expr.words := by
  cases o with
  | none => rfl
  | some e => simp [Expr.wordsOption]

theorem FieldGroup.wordsAll_eq (gs : List FieldGroup) :
    FieldGroup.wordsAll gs = gs.flatMap FieldGroup.words := by
  induction gs with
  | nil => rfl
  | cons g gs ih => rw [FieldGroup.wordsAll, ih, List.flatMap_cons]

theorem ValueSpec.wordsAll_eq (specs : List ValueSpec) :
    ValueSpec.wordsAll specs = specs.flatMap ValueSpec.words := by
  induction specs with
  | nil => rfl
  | cons spec specs ih => rw [ValueSpec.wordsAll, ih, List.flatMap_cons]

theorem Stmt.wordsAll_eq (body : List Stmt) : Stmt.wordsAll body = body.flatMap Stmt.words := by
  induction body with
  | nil => rfl
  | cons s body ih => rw [Stmt.wordsAll, ih, List.flatMap_cons]

theorem FuncDecl.words_eq (f : FuncDecl) :
    f.words = f.name :: (Receiver.wordsOption f.receiver ++ FieldGroup.wordsAll f.params ++
      FieldGroup.wordsAll f.results ++ Stmt.wordsAll f.body) := by
  cases f
  rw [FuncDecl.words]

theorem Expr.words_subset_wordsAll {x : Expr} {es : List Expr} (h : x ∈ es) :
    x.words ⊆ Expr.wordsAll es := by
  rw [Expr.wordsAll_eq]
  exact fun _ hw => List.mem_flatMap_of_mem h hw

theorem Expr.words_subset_wordsOption {x : Expr} {o : Option Expr} (h : x ∈ o.toList) :
    x.words ⊆ Expr.wordsOption o := by
  rw [Expr.wordsOption_eq]
  exact fun _ hw => List.mem_flatMap_of_mem h hw

theorem ValueSpec.words_of_expr {spec : ValueSpec} {x : Expr}
    (h : x ∈ spec.type.toList ++ spec.values) : x.words ⊆ spec.words := by
  obtain ⟨names, type, values, span⟩ := spec
  rw [ValueSpec.words]
  rcases List.mem_append.mp h with h | h
  · have htype : x.words ⊆ Expr.wordsOption type := Expr.words_subset_wordsOption h
    exact List.subset_append_of_subset_left _ (List.subset_append_of_subset_right _ htype)
  · exact List.subset_append_of_subset_right _ (Expr.words_subset_wordsAll h)

theorem Module.words_of_type (m : Module) {d : TypeDecl} (h : d ∈ m.types) : d.words ⊆ m.words := by
  intro w hw
  simp only [Module.words, List.mem_append, List.mem_flatMap]
  exact .inl (.inl ⟨d, h, hw⟩)

theorem Module.words_of_function (m : Module) {f : FuncDecl} (h : f ∈ m.functions) :
    f.words ⊆ m.words := by
  intro w hw
  simp only [Module.words, List.mem_append, List.mem_flatMap]
  exact .inl (.inr ⟨f, h, hw⟩)

theorem Module.words_of_value (m : Module) {v : ValueSpec} (h : v ∈ m.values) :
    v.words ⊆ m.words := by
  intro w hw
  simp only [Module.words, List.mem_append, List.mem_flatMap]
  exact .inr ⟨v, h, hw⟩

end Lists

section Parts

mutual

theorem Stmt.words_of_expr : ∀ {s : Stmt} {x : Expr}, x ∈ s.exprs → x.words ⊆ s.words
  | .expr y, x, h | .defer y, x, h | .go y, x, h | .incDec y, x, h => by
      obtain rfl := List.mem_singleton.mp h
      exact List.Subset.refl _
  | .assign ⟨targets, values, declares, span⟩, x, h => by
      rw [Stmt.words, Assignment.words]
      rcases List.mem_append.mp h with h | h
      · exact List.subset_append_of_subset_left _ (Expr.words_subset_wordsAll h)
      · exact List.subset_append_of_subset_right _ (Expr.words_subset_wordsAll h)
  | .var specs, x, h => by
      obtain ⟨spec, hspec, hx⟩ := List.mem_flatMap.mp h
      rw [Stmt.words, ValueSpec.wordsAll_eq]
      exact fun _ hw => List.mem_flatMap_of_mem hspec (ValueSpec.words_of_expr hx hw)
  | .ret results, x, h => Expr.words_subset_wordsAll h
  | .ifElse init cond body otherwise, x, h => by
      intro w hw
      simp only [Stmt.exprs, List.mem_append, List.mem_singleton] at h
      simp only [Stmt.words, List.mem_append]
      rcases h with ((h | rfl) | h) | h
      · exact .inl (.inl (.inl (Stmt.words_of_exprOption h hw)))
      · exact .inl (.inl (.inr hw))
      · exact .inl (.inr (Stmt.words_of_exprAll h hw))
      · exact .inr (Stmt.words_of_exprOption h hw)
  | .forLoop init cond post body, x, h => by
      intro w hw
      simp only [Stmt.exprs, List.mem_append] at h
      simp only [Stmt.words, List.mem_append]
      rcases h with ((h | h) | h) | h
      · exact .inl (.inl (.inl (Stmt.words_of_exprOption h hw)))
      · exact .inl (.inl (.inr (Expr.words_subset_wordsOption h hw)))
      · exact .inl (.inr (Stmt.words_of_exprOption h hw))
      · exact .inr (Stmt.words_of_exprAll h hw)
  | .rangeLoop key value y body, x, h => by
      intro w hw
      simp only [Stmt.exprs, List.mem_append, List.mem_singleton] at h
      simp only [Stmt.words, List.mem_append]
      rcases h with ((h | h) | rfl) | h
      · exact .inl (.inl (.inl (Expr.words_subset_wordsOption h hw)))
      · exact .inl (.inl (.inr (Expr.words_subset_wordsOption h hw)))
      · exact .inl (.inr hw)
      · exact .inr (Stmt.words_of_exprAll h hw)
  | .switch init tag clauses, x, h => by
      intro w hw
      simp only [Stmt.exprs, List.mem_append] at h
      simp only [Stmt.words, List.mem_append]
      rcases h with (h | h) | h
      · exact .inl (.inl (Stmt.words_of_exprOption h hw))
      · exact .inl (.inr (Expr.words_subset_wordsOption h hw))
      · exact .inr (Clause.words_of_exprAll h hw)
  | .block body, x, h => by
      rw [Stmt.words]
      exact Stmt.words_of_exprAll h
  | .jump, x, h => by cases h

theorem Stmt.words_of_exprOption : ∀ {o : Option Stmt} {x : Expr}, x ∈ Stmt.exprsOption o →
    x.words ⊆ Stmt.wordsOption o
  | none, x, h => by cases h
  | some s, x, h => Stmt.words_of_expr (s := s) h

theorem Stmt.words_of_exprAll : ∀ {body : List Stmt} {x : Expr}, x ∈ Stmt.exprsAll body →
    x.words ⊆ Stmt.wordsAll body
  | [], x, h => by cases h
  | s :: ss, x, h => by
      rw [Stmt.wordsAll]
      rcases List.mem_append.mp h with h | h
      · exact List.subset_append_of_subset_left _ (Stmt.words_of_expr h)
      · exact List.subset_append_of_subset_right _ (Stmt.words_of_exprAll h)

theorem Clause.words_of_exprAll : ∀ {clauses : List Clause} {x : Expr},
    x ∈ Clause.exprsAll clauses → x.words ⊆ Clause.wordsAll clauses
  | [], x, h => by cases h
  | ⟨exprs, body⟩ :: clauses, x, h => by
      intro w hw
      simp only [Clause.exprsAll, List.mem_append] at h
      simp only [Clause.wordsAll, List.mem_append]
      rcases h with (h | h) | h
      · exact .inl (.inl (Expr.words_subset_wordsAll h hw))
      · exact .inl (.inr (Stmt.words_of_exprAll h hw))
      · exact .inr (Clause.words_of_exprAll h hw)

end

theorem Expr.words_of_part {e x : Expr} (h : x ∈ e.parts) : x.words ⊆ e.words := by
  obtain ⟨span, node⟩ := e
  rw [Expr.words]
  have hpair : ∀ {y z : Expr}, x ∈ [y, z] → x.words ⊆ y.words ++ z.words := by
    intro y z h
    rcases List.mem_cons.mp h with rfl | h
    · exact List.subset_append_left ..
    · obtain rfl := List.mem_singleton.mp h
      exact List.subset_append_right ..
  cases node with
  | selector y _ =>
      obtain rfl := List.mem_singleton.mp h
      exact List.subset_cons_self ..
  | slice y | star y | unary _ y | paren y | arrayType y | chanType _ y =>
      obtain rfl := List.mem_singleton.mp h
      exact List.Subset.refl _
  | index y z | binary _ y z | keyValue y z | mapType y z => exact hpair h
  | call fn args =>
      rcases List.mem_cons.mp h with rfl | h
      · exact List.subset_append_left ..
      · exact List.subset_append_of_subset_right _ (Expr.words_subset_wordsAll h)
  | typeAssert y type =>
      rcases List.mem_cons.mp h with rfl | h
      · exact List.subset_append_left ..
      · exact List.subset_append_of_subset_right _ (Expr.words_subset_wordsOption h)
  | composite type elements =>
      rcases List.mem_append.mp h with h | h
      · exact List.subset_append_of_subset_left _ (Expr.words_subset_wordsOption h)
      · exact List.subset_append_of_subset_right _ (Expr.words_subset_wordsAll h)
  | funcLit params results body =>
      exact List.subset_append_of_subset_right _ (Stmt.words_of_exprAll h)
  | ellipsis elem => exact Expr.words_subset_wordsOption h
  | ident | literal | structType | funcType | interfaceType | bad => cases h

theorem Expr.words_of_walk {stop : Expr → Bool} {e x : Expr} (h : x ∈ e.walk stop) :
    x.words ⊆ e.words := by
  rw [Expr.walk_eq] at h
  rcases List.mem_cons.mp h with rfl | h
  · exact List.Subset.refl _
  · split at h
    · cases h
    · obtain ⟨part, hpart, hx⟩ := List.mem_flatMap.mp h
      exact List.Subset.trans (Expr.words_of_walk hx) (Expr.words_of_part hpart)
termination_by sizeOf e
decreasing_by exact Expr.sizeOf_lt_of_mem_parts hpart

theorem Stmt.words_of_walk {stop : Expr → Bool} {body : List Stmt} {x : Expr}
    (h : x ∈ Stmt.walkAll stop body) : x.words ⊆ Stmt.wordsAll body := by
  rw [Stmt.walkAll_eq] at h
  obtain ⟨e, he, hx⟩ := List.mem_flatMap.mp h
  exact List.Subset.trans (Expr.words_of_walk hx) (Stmt.words_of_exprAll he)

end Parts

section Questions

theorem FieldGroup.words_of_question {groups : List FieldGroup} {y : Subject}
    (h : y ∈ FieldGroup.questions groups) : y.words ⊆ FieldGroup.wordsAll groups := by
  obtain ⟨⟨names, type, span⟩, hg, rfl⟩ := List.mem_map.mp h
  rw [FieldGroup.wordsAll_eq]
  have htype : type.words ⊆ FieldGroup.words ⟨names, type, span⟩ := by
    rw [FieldGroup.words]
    exact List.subset_append_right ..
  exact fun _ hw => List.mem_flatMap_of_mem hg (htype hw)

theorem Expr.words_of_valueQuestion {value : Expr} {y : Subject} (h : y ∈ value.valueQuestions) :
    y.words ⊆ value.words := by
  obtain ⟨span, node⟩ := value
  rcases List.mem_cons.mp h with rfl | h
  · exact List.Subset.refl _
  · cases node with
    | call fn args =>
        rw [Expr.words, Node.words]
        rcases List.mem_cons.mp h with rfl | h
        · exact List.subset_append_left ..
        · obtain ⟨arg, harg, rfl⟩ := List.mem_map.mp h
          exact List.subset_append_of_subset_right _ (Expr.words_subset_wordsAll harg)
    | _ => cases h

theorem Expr.words_of_valueQuestions {values : List Expr} {y : Subject}
    (h : y ∈ values.flatMap Expr.valueQuestions) : y.words ⊆ Expr.wordsAll values := by
  obtain ⟨value, hvalue, hy⟩ := List.mem_flatMap.mp h
  exact List.Subset.trans (Expr.words_of_valueQuestion hy) (Expr.words_subset_wordsAll hvalue)

theorem ValueSpec.words_of_question {spec : ValueSpec} {y : Subject} (h : y ∈ spec.questions) :
    y.words ⊆ spec.words := by
  obtain ⟨names, type, values, span⟩ := spec
  rcases List.mem_append.mp h with h | h
  · obtain ⟨x, hx, rfl⟩ := List.mem_map.mp h
    exact ValueSpec.words_of_expr (List.mem_append_left _ hx)
  · rw [ValueSpec.words]
    exact List.subset_append_of_subset_right _ (Expr.words_of_valueQuestions h)

theorem Binding.words_of_question {binding : Binding} {y : Subject} (h : y ∈ binding.questions) :
    y.words ⊆ binding.words := by
  cases binding with
  | assign stmt =>
      obtain ⟨targets, values, declares, span⟩ := stmt
      rw [Binding.words, Assignment.words]
      exact List.subset_append_of_subset_right _ (Expr.words_of_valueQuestions h)
  | type d =>
      obtain rfl := List.mem_singleton.mp h
      exact List.Subset.refl _
  | field g =>
      have hwords := FieldGroup.words_of_question h
      rwa [FieldGroup.wordsAll, FieldGroup.wordsAll, List.append_nil] at hwords
  | value spec => exact ValueSpec.words_of_question h
  | func f => cases h

theorem Expr.words_of_question {e : Expr} {y : Subject} (h : y ∈ e.questions) :
    y.words ⊆ e.words := by
  obtain ⟨span, node⟩ := e
  rw [Expr.words]
  have hone : ∀ x : Expr, x.words ⊆ node.words → y ∈ [Subject.expr x] → y.words ⊆ node.words := by
    intro x hx hy
    obtain rfl := List.mem_singleton.mp hy
    exact hx
  cases node with
  | ident name binding =>
      cases binding with
      | none => cases h
      | some binding => exact List.subset_cons_of_subset _ (Binding.words_of_question h)
  | selector x _ => exact hone x (List.subset_cons_self ..) h
  | slice x | star x | unary _ x | paren x | arrayType x | chanType _ x =>
      exact hone x (List.Subset.refl _) h
  | index x _ | binary _ x _ => exact hone x (List.subset_append_left ..) h
  | call fn args =>
      have hmem : y ∈ Expr.valueQuestions ⟨span, .call fn args⟩ := List.mem_cons_of_mem _ h
      exact Expr.words_of_valueQuestion hmem
  | typeAssert x type =>
      cases type with
      | none => exact hone x (List.subset_append_left ..) h
      | some type => exact hone type (List.subset_append_right ..) h
  | composite type elements =>
      cases type with
      | none => cases h
      | some type => exact hone type (List.subset_append_left ..) h
  | ellipsis elem =>
      cases elem with
      | none => cases h
      | some elem => exact hone elem (List.Subset.refl _) h
  | mapType key value =>
      rcases List.mem_cons.mp h with rfl | h
      · exact List.subset_append_left ..
      · exact hone value (List.subset_append_right ..) h
  | _ => cases h

theorem Expr.words_of_remembers {e : Expr} {memo : Memo} (h : memo ∈ e.remembers) :
    memo.words ⊆ e.words := by
  obtain ⟨span, node⟩ := e
  rw [Expr.words]
  cases node with
  | ident name binding =>
      rcases binding with _ | binding
      · cases h
      · cases binding with
        | func f =>
            obtain rfl := List.mem_singleton.mp h
            exact List.subset_cons_self ..
        | _ => cases h
  | funcLit params results body =>
      obtain rfl := List.mem_singleton.mp h
      exact List.subset_append_left ..
  | funcType params results =>
      obtain rfl := List.mem_singleton.mp h
      exact List.Subset.refl _
  | structType fields =>
      obtain rfl := List.mem_singleton.mp h
      exact List.Subset.refl _
  | _ => cases h

theorem Memo.words_of_question {memo : Memo} {y : Subject} (h : y ∈ memo.questions) :
    y.words ⊆ memo.words := by
  have hboth : ∀ {params results : List FieldGroup},
      y ∈ FieldGroup.questions (params ++ results) →
      y.words ⊆ FieldGroup.wordsAll params ++ FieldGroup.wordsAll results := by
    intro params results hy
    rw [FieldGroup.questions, List.map_append] at hy
    rcases List.mem_append.mp hy with hy | hy
    · exact List.subset_append_of_subset_left _ (FieldGroup.words_of_question hy)
    · exact List.subset_append_of_subset_right _ (FieldGroup.words_of_question hy)
  cases memo with
  | type d =>
      obtain ⟨name, ⟨inner, node⟩, span⟩ := d
      rw [Memo.words, TypeDecl.words]
      refine List.subset_cons_of_subset _ ?_
      cases node with
      | structType fields => exact FieldGroup.words_of_question h
      | _ =>
          obtain rfl := List.mem_singleton.mp h
          exact List.Subset.refl _
  | function f =>
      rw [Memo.words, FuncDecl.words_eq, List.append_assoc (Receiver.wordsOption _)]
      refine List.subset_cons_of_subset _ (List.subset_append_of_subset_left _ ?_)
      exact List.subset_append_of_subset_right _ (hboth h)
  | struct span fields => exact FieldGroup.words_of_question h
  | func span params results => exact hboth h

theorem Expr.ownNames_subset (e : Expr) : e.ownNames ⊆ e.words := by
  obtain ⟨span, node⟩ := e
  cases node with
  | ident name binding =>
      cases binding with
      | none => exact List.Subset.refl _
      | some binding => exact List.nil_subset _
  | selector x sel =>
      obtain ⟨inner, node⟩ := x
      refine List.cons_subset_cons sel ?_
      cases node with
      | ident name binding => exact List.cons_subset_cons name (List.nil_subset _)
      | _ => exact List.nil_subset _
  | _ => exact List.nil_subset _

theorem Memo.ownNames_subset (memo : Memo) : memo.ownNames ⊆ memo.words := by
  cases memo with
  | type d =>
      obtain ⟨name, type, span⟩ := d
      exact List.cons_subset_cons name (List.nil_subset _)
  | _ => exact List.nil_subset _

end Questions

end ResourceLint
