import Mathlib.Data.List.Basic
import ResourceLint.SyntaxTree.Traversal

/-!
# Occurrences of expressions

The parts of an expression are the expressions that it holds directly; those of a function literal
are the ones that the statements of its body hold. An occurrence is an expression together with all
the expressions that it stands inside of. A walk that stops at some expressions meets exactly those
of them that stand inside of no other one.
-/

namespace ResourceLint

section Parts

mutual

/-- The expressions that a statement holds directly, in source order. -/
def Stmt.exprs : Stmt → List Expr
  | .expr x | .defer x | .go x | .incDec x => [x]
  | .assign stmt => stmt.targets ++ stmt.values
  | .var specs => specs.flatMap fun spec => spec.type.toList ++ spec.values
  | .ret results => results
  | .ifElse init cond body otherwise =>
      Stmt.exprsOption init ++ [cond] ++ Stmt.exprsAll body ++ Stmt.exprsOption otherwise
  | .forLoop init cond post body =>
      Stmt.exprsOption init ++ cond.toList ++ Stmt.exprsOption post ++ Stmt.exprsAll body
  | .rangeLoop key value x body => key.toList ++ value.toList ++ [x] ++ Stmt.exprsAll body
  | .switch init tag clauses => Stmt.exprsOption init ++ tag.toList ++ Clause.exprsAll clauses
  | .block body => Stmt.exprsAll body
  | .jump => []

def Stmt.exprsOption : Option Stmt → List Expr
  | none => []
  | some s => Stmt.exprs s

def Stmt.exprsAll : List Stmt → List Expr
  | [] => []
  | s :: ss => Stmt.exprs s ++ Stmt.exprsAll ss

def Clause.exprsAll : List Clause → List Expr
  | [] => []
  | ⟨exprs, body⟩ :: clauses => exprs ++ Stmt.exprsAll body ++ Clause.exprsAll clauses

end

/-- The expressions that an expression holds directly, in source order. The types of fields,
parameters and results are not among them, nor is what an identifier is bound to. -/
def Expr.parts (e : Expr) : List Expr :=
  match e.node with
  | .selector x _ | .slice x | .star x | .unary _ x | .paren x => [x]
  | .call fn args => fn :: args
  | .index x i => [x, i]
  | .binary _ x y => [x, y]
  | .typeAssert x type => x :: type.toList
  | .composite type elements => type.toList ++ elements
  | .keyValue key value | .mapType key value => [key, value]
  | .funcLit _ _ body => Stmt.exprsAll body
  | .arrayType x | .chanType _ x => [x]
  | .ellipsis elem => elem.toList
  | .ident .. | .literal .. | .structType _ | .funcType .. | .interfaceType | .bad => []

theorem sizeOf_lt_of_mem_toList {α : Type} [SizeOf α] {o : Option α} {a : α} (h : a ∈ o.toList) :
    sizeOf a < sizeOf o := by
  rw [Option.mem_toList] at h
  subst h
  simp

theorem ValueSpec.sizeOf_lt_of_mem {spec : ValueSpec} {e : Expr}
    (h : e ∈ spec.type.toList ++ spec.values) : sizeOf e < sizeOf spec := by
  obtain ⟨names, type, values, span⟩ := spec
  simp only [ValueSpec.mk.sizeOf_spec]
  rcases List.mem_append.mp h with h | h
  · have := sizeOf_lt_of_mem_toList h
    dsimp only at this
    omega
  · have := List.sizeOf_lt_of_mem h
    dsimp only at this
    omega

mutual

theorem Stmt.sizeOf_lt_of_mem_exprs : ∀ {s : Stmt} {e : Expr}, e ∈ s.exprs → sizeOf e < sizeOf s
  | .expr x, e, h | .defer x, e, h | .go x, e, h | .incDec x, e, h => by
      obtain rfl := List.mem_singleton.mp h
      simp
  | .assign ⟨targets, values, declares, span⟩, e, h => by
      simp only [Stmt.assign.sizeOf_spec, Assignment.mk.sizeOf_spec]
      rcases List.mem_append.mp (show e ∈ targets ++ values from h) with h | h
      · have := List.sizeOf_lt_of_mem h
        omega
      · have := List.sizeOf_lt_of_mem h
        omega
  | .var specs, e, h => by
      obtain ⟨spec, hspec, he⟩ := List.mem_flatMap.mp h
      have := List.sizeOf_lt_of_mem hspec
      have := ValueSpec.sizeOf_lt_of_mem he
      simp only [Stmt.var.sizeOf_spec]
      omega
  | .ret results, e, h => by
      have := List.sizeOf_lt_of_mem (show e ∈ results from h)
      simp only [Stmt.ret.sizeOf_spec]
      omega
  | .ifElse init cond body otherwise, e, h => by
      simp only [Stmt.exprs, List.mem_append, List.mem_singleton] at h
      simp only [Stmt.ifElse.sizeOf_spec]
      rcases h with ((h | rfl) | h) | h
      · have := Stmt.sizeOf_lt_of_mem_exprsOption h
        omega
      · omega
      · have := Stmt.sizeOf_lt_of_mem_exprsAll h
        omega
      · have := Stmt.sizeOf_lt_of_mem_exprsOption h
        omega
  | .forLoop init cond post body, e, h => by
      simp only [Stmt.exprs, List.mem_append] at h
      simp only [Stmt.forLoop.sizeOf_spec]
      rcases h with ((h | h) | h) | h
      · have := Stmt.sizeOf_lt_of_mem_exprsOption h
        omega
      · have := sizeOf_lt_of_mem_toList h
        omega
      · have := Stmt.sizeOf_lt_of_mem_exprsOption h
        omega
      · have := Stmt.sizeOf_lt_of_mem_exprsAll h
        omega
  | .rangeLoop key value x body, e, h => by
      simp only [Stmt.exprs, List.mem_append, List.mem_singleton] at h
      simp only [Stmt.rangeLoop.sizeOf_spec]
      rcases h with ((h | h) | rfl) | h
      · have := sizeOf_lt_of_mem_toList h
        omega
      · have := sizeOf_lt_of_mem_toList h
        omega
      · omega
      · have := Stmt.sizeOf_lt_of_mem_exprsAll h
        omega
  | .switch init tag clauses, e, h => by
      simp only [Stmt.exprs, List.mem_append] at h
      simp only [Stmt.switch.sizeOf_spec]
      rcases h with (h | h) | h
      · have := Stmt.sizeOf_lt_of_mem_exprsOption h
        omega
      · have := sizeOf_lt_of_mem_toList h
        omega
      · have := Clause.sizeOf_lt_of_mem_exprsAll h
        omega
  | .block body, e, h => by
      have := Stmt.sizeOf_lt_of_mem_exprsAll (show e ∈ Stmt.exprsAll body from h)
      simp only [Stmt.block.sizeOf_spec]
      omega
  | .jump, e, h => by cases h

theorem Stmt.sizeOf_lt_of_mem_exprsOption :
    ∀ {s : Option Stmt} {e : Expr}, e ∈ Stmt.exprsOption s → sizeOf e < sizeOf s
  | none, e, h => by cases h
  | some s, e, h => by
      have := Stmt.sizeOf_lt_of_mem_exprs (show e ∈ s.exprs from h)
      simp only [Option.some.sizeOf_spec]
      omega

theorem Stmt.sizeOf_lt_of_mem_exprsAll :
    ∀ {body : List Stmt} {e : Expr}, e ∈ Stmt.exprsAll body → sizeOf e < sizeOf body
  | [], e, h => by cases h
  | s :: ss, e, h => by
      simp only [List.cons.sizeOf_spec]
      rcases List.mem_append.mp h with h | h
      · have := Stmt.sizeOf_lt_of_mem_exprs h
        omega
      · have := Stmt.sizeOf_lt_of_mem_exprsAll h
        omega

theorem Clause.sizeOf_lt_of_mem_exprsAll :
    ∀ {clauses : List Clause} {e : Expr}, e ∈ Clause.exprsAll clauses → sizeOf e < sizeOf clauses
  | [], e, h => by cases h
  | ⟨exprs, body⟩ :: clauses, e, h => by
      simp only [Clause.exprsAll, List.mem_append] at h
      simp only [List.cons.sizeOf_spec, Clause.mk.sizeOf_spec]
      rcases h with (h | h) | h
      · have := List.sizeOf_lt_of_mem h
        omega
      · have := Stmt.sizeOf_lt_of_mem_exprsAll h
        omega
      · have := Clause.sizeOf_lt_of_mem_exprsAll h
        omega

end

theorem Expr.sizeOf_lt_of_mem_parts {e x : Expr} (h : x ∈ e.parts) : sizeOf x < sizeOf e := by
  obtain ⟨span, node⟩ := e
  have hnode : sizeOf x < sizeOf node := by
    cases node with
    | selector y _ | slice y | star y | unary _ y | paren y | arrayType y | chanType _ y =>
        obtain rfl := List.mem_singleton.mp h
        simp only [Node.selector.sizeOf_spec, Node.slice.sizeOf_spec, Node.star.sizeOf_spec,
          Node.unary.sizeOf_spec, Node.paren.sizeOf_spec, Node.arrayType.sizeOf_spec,
          Node.chanType.sizeOf_spec]
        omega
    | call fn args =>
        simp only [Node.call.sizeOf_spec]
        rcases List.mem_cons.mp h with rfl | h
        · omega
        · have := List.sizeOf_lt_of_mem h
          omega
    | index y z | binary _ y z | keyValue y z | mapType y z =>
        simp only [Expr.parts, List.mem_cons, List.not_mem_nil, or_false] at h
        simp only [Node.index.sizeOf_spec, Node.binary.sizeOf_spec, Node.keyValue.sizeOf_spec,
          Node.mapType.sizeOf_spec]
        rcases h with rfl | rfl <;> omega
    | typeAssert y type =>
        simp only [Node.typeAssert.sizeOf_spec]
        rcases List.mem_cons.mp h with rfl | h
        · omega
        · have := sizeOf_lt_of_mem_toList h
          omega
    | composite type elements =>
        simp only [Node.composite.sizeOf_spec]
        rcases List.mem_append.mp h with h | h
        · have := sizeOf_lt_of_mem_toList h
          omega
        · have := List.sizeOf_lt_of_mem h
          omega
    | funcLit params results body =>
        have := Stmt.sizeOf_lt_of_mem_exprsAll h
        simp only [Node.funcLit.sizeOf_spec]
        omega
    | ellipsis elem =>
        have := sizeOf_lt_of_mem_toList h
        simp only [Node.ellipsis.sizeOf_spec]
        omega
    | ident _ _ | literal _ _ | structType _ | funcType _ _ | interfaceType | bad => cases h
  simp only [Expr.mk.sizeOf_spec]
  omega

end Parts

section Walks

theorem Expr.walkAll_eq (stop : Expr → Bool) (es : List Expr) :
    Expr.walkAll stop es = es.flatMap (Expr.walk stop) := by
  induction es with
  | nil => rfl
  | cons e es ih => rw [Expr.walkAll, ih, List.flatMap_cons]

theorem Expr.walkOption_eq (stop : Expr → Bool) (o : Option Expr) :
    Expr.walkOption stop o = o.toList.flatMap (Expr.walk stop) := by
  cases o with
  | none => rfl
  | some e => simp [Expr.walkOption]

theorem ValueSpec.walkAll_eq (stop : Expr → Bool) (specs : List ValueSpec) :
    ValueSpec.walkAll stop specs =
      (specs.flatMap fun spec => spec.type.toList ++ spec.values).flatMap (Expr.walk stop) := by
  induction specs with
  | nil => rfl
  | cons spec specs ih =>
      obtain ⟨names, type, values, span⟩ := spec
      simp only [ValueSpec.walkAll, ValueSpec.walk, Expr.walkOption_eq, Expr.walkAll_eq, ih,
        List.flatMap_cons, List.flatMap_append]

mutual

/-- A walk through a statement goes through the expressions that it holds. -/
theorem Stmt.walk_eq (stop : Expr → Bool) :
    ∀ s : Stmt, s.walk stop = s.exprs.flatMap (Expr.walk stop)
  | .expr x | .defer x | .go x | .incDec x => by simp [Stmt.walk, Stmt.exprs]
  | .assign ⟨targets, values, declares, span⟩ => by
      simp [Stmt.walk, Assignment.walk, Stmt.exprs, Expr.walkAll_eq]
  | .var specs => by rw [Stmt.walk, ValueSpec.walkAll_eq, Stmt.exprs]
  | .ret results => by rw [Stmt.walk, Expr.walkAll_eq, Stmt.exprs]
  | .ifElse init cond body otherwise => by
      simp [Stmt.walk, Stmt.exprs, Stmt.walkOption_eq, Stmt.walkAll_eq]
  | .forLoop init cond post body => by
      simp [Stmt.walk, Stmt.exprs, Stmt.walkOption_eq, Stmt.walkAll_eq, Expr.walkOption_eq]
  | .rangeLoop key value x body => by
      simp [Stmt.walk, Stmt.exprs, Stmt.walkAll_eq, Expr.walkOption_eq]
  | .switch init tag clauses => by
      simp [Stmt.walk, Stmt.exprs, Stmt.walkOption_eq, Expr.walkOption_eq, Clause.walkAll_eq]
  | .block body => by rw [Stmt.walk, Stmt.walkAll_eq, Stmt.exprs]
  | .jump => rfl

theorem Stmt.walkOption_eq (stop : Expr → Bool) :
    ∀ s : Option Stmt, Stmt.walkOption stop s = (Stmt.exprsOption s).flatMap (Expr.walk stop)
  | none => rfl
  | some s => by rw [Stmt.walkOption, Stmt.walk_eq, Stmt.exprsOption]

theorem Stmt.walkAll_eq (stop : Expr → Bool) :
    ∀ body : List Stmt, Stmt.walkAll stop body = (Stmt.exprsAll body).flatMap (Expr.walk stop)
  | [] => rfl
  | s :: ss => by
      rw [Stmt.walkAll, Stmt.walk_eq, Stmt.walkAll_eq, Stmt.exprsAll, List.flatMap_append]

theorem Clause.walkAll_eq (stop : Expr → Bool) : ∀ clauses : List Clause,
    Clause.walkAll stop clauses = (Clause.exprsAll clauses).flatMap (Expr.walk stop)
  | [] => rfl
  | ⟨exprs, body⟩ :: clauses => by
      simp [Clause.walkAll, Clause.walk, Clause.exprsAll, Expr.walkAll_eq, Stmt.walkAll_eq,
        Clause.walkAll_eq]

end

/-- A walk lists an expression, and then walks through its parts unless it stops there. -/
theorem Expr.walk_eq (stop : Expr → Bool) (e : Expr) :
    e.walk stop = e :: if stop e then [] else e.parts.flatMap (Expr.walk stop) := by
  obtain ⟨span, node⟩ := e
  have hnode : Node.walk stop node = (⟨span, node⟩ : Expr).parts.flatMap (Expr.walk stop) := by
    cases node <;> simp [Node.walk, Expr.parts, Expr.walkAll_eq, Expr.walkOption_eq,
      Stmt.walkAll_eq]
  rw [Expr.walk, hnode]

end Walks

/-- An expression, and the expressions it stands inside of from the inside out. -/
structure Occurrence where
  expr : Expr
  above : List Expr

/-- All occurrences of expressions in an expression, in source order. -/
def Expr.occurrences (above : List Expr) (e : Expr) : List Occurrence :=
  ⟨e, above⟩ :: e.parts.attach.flatMap fun x => x.1.occurrences (e :: above)
termination_by sizeOf e
decreasing_by exact Expr.sizeOf_lt_of_mem_parts x.2

/-- All occurrences of expressions in a function body, in source order. -/
def Stmt.occurrences (body : List Stmt) : List Occurrence :=
  (Stmt.exprsAll body).flatMap (Expr.occurrences [])

/-- An occurrence of an expression of some kind inside of no other one of that kind. -/
def Occurrence.isOutermost (o : Occurrence) (kind : Expr → Bool) : Bool :=
  kind o.expr && !o.above.any kind

theorem Expr.occurrences_eq (above : List Expr) (e : Expr) :
    e.occurrences above = ⟨e, above⟩ :: e.parts.flatMap (Expr.occurrences (e :: above)) := by
  rw [Expr.occurrences]
  congr 1
  simp [List.flatMap_subtype]

section Outermost

variable {stop : Expr → Bool}

/-- Nothing below an expression of the kind is outermost. -/
theorem Expr.filter_occurrences_of_any {above : List Expr} (habove : above.any stop = true)
    (e : Expr) : (e.occurrences above).filter (·.isOutermost stop) = [] := by
  rw [Expr.occurrences_eq, List.filter_cons_of_neg (by simp [Occurrence.isOutermost, habove]),
    List.filter_flatMap, List.flatMap_eq_nil_iff]
  intro x hx
  exact Expr.filter_occurrences_of_any (by simp [habove]) x
termination_by sizeOf e
decreasing_by exact Expr.sizeOf_lt_of_mem_parts hx

/-- The walk that stops at expressions of a kind meets the outermost ones. -/
theorem Expr.map_filter_occurrences {above : List Expr} (habove : above.any stop = false)
    (e : Expr) : ((e.occurrences above).filter (·.isOutermost stop)).map Occurrence.expr =
      (e.walk stop).filter stop := by
  have hself : (⟨e, above⟩ : Occurrence).isOutermost stop = stop e := by
    simp [Occurrence.isOutermost, habove]
  rw [Expr.occurrences_eq, Expr.walk_eq]
  cases he : stop e with
  | true =>
      have hparts : (e.parts.flatMap (Expr.occurrences (e :: above))).filter
          (·.isOutermost stop) = [] := by
        rw [List.filter_flatMap, List.flatMap_eq_nil_iff]
        exact fun x _ => Expr.filter_occurrences_of_any (by simp [he]) x
      rw [List.filter_cons_of_pos (by rw [hself, he]), hparts]
      simp [he]
  | false =>
      rw [List.filter_cons_of_neg (by rw [hself, he]; exact Bool.false_ne_true),
        List.filter_cons_of_neg (by rw [he]; exact Bool.false_ne_true)]
      simp only [Bool.false_eq_true, if_false, List.filter_flatMap, List.map_flatMap]
      refine List.flatMap_congr fun x hx => ?_
      exact Expr.map_filter_occurrences (by simp [he, habove]) x
termination_by sizeOf e
decreasing_by exact Expr.sizeOf_lt_of_mem_parts hx

/-- The outermost expressions of a kind in a function body, in source order. -/
def Stmt.outermost (kind : Expr → Bool) (body : List Stmt) : List Expr :=
  ((Stmt.occurrences body).filter (·.isOutermost kind)).map Occurrence.expr

theorem Stmt.filter_walkAll (body : List Stmt) :
    (Stmt.walkAll stop body).filter stop = Stmt.outermost stop body := by
  rw [Stmt.walkAll_eq, Stmt.outermost, Stmt.occurrences, List.filter_flatMap, List.filter_flatMap,
    List.map_flatMap]
  exact List.flatMap_congr fun e _ => (Expr.map_filter_occurrences rfl e).symm

end Outermost

end ResourceLint
