import Mathlib.Data.List.Infix
import ResourceLint.Proofs.Occurrence

/-!
# The order of a walk

One expression can occur many times in a function body, so an occurrence is told by its path: the
steps that lead to it from the body. A walk lists the occurrences that no step into the type of a
field, parameter or result leads to, each of them once, an expression before what is inside of it
and siblings in source order. A walk that stops at some expressions lists the same occurrences
without those inside of an expression at which it stops (`Stmt.walkAll_preorder`).
-/

namespace ResourceLint

/-- A step from an expression to one that it holds. -/
inductive Step where
  | part (i : Nat)
  /-- Into the type of a field, parameter or result. -/
  | fieldType (i : Nat)
  deriving DecidableEq, Repr

def Step.isPart : Step → Bool
  | .part _ => true
  | .fieldType _ => false

/-- The steps that lead to an occurrence, from the outside in. -/
abbrev Path := List Step

/-- Source order: an expression comes before all that is inside of it, and a part with all that is
inside of it before the later parts. -/
inductive Path.Precedes : Path → Path → Prop where
  | inside (path : Path) (step : Step) (rest : Path) : Precedes path (path ++ step :: rest)
  | earlier (path : Path) {i j : Nat} (h : i < j) (rest rest' : Path) :
      Precedes (path ++ .part i :: rest) (path ++ .part j :: rest')

/-- The types of the fields, parameters and results that an expression lists. -/
def Expr.fieldTypes (e : Expr) : List Expr :=
  match e.node with
  | .structType fields => fields.map FieldGroup.type
  | .funcLit params results _ | .funcType params results =>
      (params ++ results).map FieldGroup.type
  | _ => []

/-- The expression that a path leads to from an expression. -/
def Expr.at? : Expr → Path → Option Expr
  | e, [] => some e
  | e, .part i :: path => e.parts[i]?.bind (·.at? path)
  | e, .fieldType i :: path => e.fieldTypes[i]?.bind (·.at? path)

/-- The expression that a path leads to from a function body. -/
def Stmt.at? (body : List Stmt) : Path → Option Expr
  | .part i :: path => (Stmt.exprsAll body)[i]?.bind (·.at? path)
  | _ => none

/-- Whether a path leads through an expression at which a walk stops, not counting the expression
at its end. -/
def Path.isHidden (at? : Path → Option Expr) (stop : Expr → Bool) (path : Path) : Bool :=
  path.inits.dropLast.any fun above => (at? above).any stop

/-- The paths to an expression and to all that it holds through its parts. -/
def Expr.paths (e : Expr) : List Path :=
  [] :: e.parts.attach.zipIdx.flatMap fun x => x.1.1.paths.map (.part x.2 :: ·)
termination_by sizeOf e
decreasing_by exact Expr.sizeOf_lt_of_mem_parts x.1.2

/-- The paths to some expressions and to all that they hold through their parts. -/
def Expr.pathsAll (es : List Expr) : List Path :=
  es.zipIdx.flatMap fun x => x.1.paths.map (.part x.2 :: ·)

/-- The paths of a function body that lead through parts only, in source order. -/
def Stmt.paths (body : List Stmt) : List Path :=
  Expr.pathsAll (Stmt.exprsAll body)

namespace Path

variable {path path' : Path} {at? : Path → Option Expr} {stop : Expr → Bool}

theorem Precedes.cons (step : Step) (h : path.Precedes path') :
    Precedes (step :: path) (step :: path') := by
  cases h with
  | inside _ next rest => exact .inside (step :: path) next rest
  | earlier common hlt rest rest' => exact .earlier (step :: common) hlt rest rest'

theorem Precedes.ne (h : path.Precedes path') : path ≠ path' := by
  cases h with
  | inside _ step rest => simp
  | earlier common hlt rest rest' =>
      intro heq
      have hcons := List.append_cancel_left heq
      injection hcons with hstep
      injection hstep with hindex
      omega

theorem isHidden_nil : isHidden at? stop [] = false := rfl

theorem isHidden_cons (step : Step) : isHidden at? stop (step :: path) =
    ((at? []).any stop || isHidden (fun rest => at? (step :: rest)) stop path) := by
  have hne : path.inits.map (step :: ·) ≠ [] := by
    rw [ne_eq, List.map_eq_nil_iff]
    exact List.ne_nil_of_mem ((List.mem_inits [] path).mpr List.nil_prefix)
  rw [isHidden, List.inits_cons, List.dropLast_cons_of_ne_nil hne, List.any_cons,
    ← List.map_dropLast, List.any_map]
  rfl

theorem isHidden_of_never : isHidden at? (fun _ => false) path = false := by
  simp [isHidden]

end Path

namespace Expr

variable {e : Expr} {es : List Expr} {path : Path}

theorem paths_eq (e : Expr) : e.paths = [] :: pathsAll e.parts := by
  have hzip : e.parts.zipIdx = e.parts.attach.zipIdx.map (Prod.map Subtype.val id) := by
    rw [← List.zipIdx_map, List.attach_map_subtype_val]
  rw [paths, pathsAll, hzip, List.flatMap_map]
  rfl

theorem mem_pathsAll : path ∈ pathsAll es ↔
    ∃ i rest x, path = .part i :: rest ∧ es[i]? = some x ∧ rest ∈ x.paths := by
  simp only [pathsAll, List.mem_flatMap, List.mem_map, Prod.exists,
    List.mem_zipIdx_iff_getElem?]
  constructor
  · rintro ⟨x, i, hx, rest, hrest, rfl⟩
    exact ⟨i, rest, x, rfl, hx, hrest⟩
  · rintro ⟨i, rest, x, rfl, hx, hrest⟩
    exact ⟨x, i, hx, rest, hrest, rfl⟩

theorem part_mem_pathsAll (i : Nat)
    (h : ∀ x : Expr, path ∈ x.paths ↔ (x.at? path).isSome ∧ ∀ step ∈ path, step.isPart) :
    .part i :: path ∈ pathsAll es ↔
      (es[i]?.bind (·.at? path)).isSome ∧ ∀ step ∈ Step.part i :: path, step.isPart := by
  rw [mem_pathsAll, List.forall_mem_cons]
  constructor
  · rintro ⟨_, _, x, ⟨⟩, hx, hpath⟩
    obtain ⟨hsome, hparts⟩ := (h x).mp hpath
    rw [hx, Option.bind_some]
    exact ⟨hsome, rfl, hparts⟩
  · rintro ⟨hsome, -, hparts⟩
    obtain ⟨x, hx⟩ := Option.isSome_iff_exists.mp (Option.isSome_of_isSome_bind hsome)
    rw [hx, Option.bind_some] at hsome
    exact ⟨i, path, x, rfl, hx, (h x).mpr ⟨hsome, hparts⟩⟩

/-- The paths of an expression are those to its occurrences that lead through parts only. -/
theorem mem_paths (e : Expr) (path : Path) :
    path ∈ e.paths ↔ (e.at? path).isSome ∧ ∀ step ∈ path, step.isPart := by
  induction path generalizing e with
  | nil => simp [paths_eq e, at?]
  | cons step path ih =>
      rw [paths_eq, List.mem_cons, or_iff_right (List.cons_ne_nil step path)]
      cases step with
      | part i => exact part_mem_pathsAll i ih
      | fieldType i => simp [mem_pathsAll, Step.isPart]

theorem pairwise_pathsAll (h : ∀ x ∈ es, x.paths.Pairwise Path.Precedes) :
    (pathsAll es).Pairwise Path.Precedes := by
  rw [pathsAll, List.pairwise_flatMap]
  constructor
  · rintro ⟨x, i⟩ hx
    have hmem : x ∈ es := List.mem_of_getElem? (List.mem_zipIdx_iff_getElem?.mp hx)
    exact (h x hmem).map _ fun _ _ => .cons _
  · -- Different parts have different indices, and the smaller one comes first.
    have hindices : es.zipIdx.Pairwise fun a b => a.2 < b.2 := by
      rw [← List.pairwise_map (f := Prod.snd), List.zipIdx_map_snd]
      exact List.pairwise_lt_range'
    refine hindices.imp ?_
    rintro ⟨x, i⟩ ⟨y, j⟩ hlt path hpath path' hpath'
    obtain ⟨rest, -, rfl⟩ := List.mem_map.mp hpath
    obtain ⟨rest', -, rfl⟩ := List.mem_map.mp hpath'
    exact .earlier [] hlt rest rest'

theorem pairwise_paths (e : Expr) : e.paths.Pairwise Path.Precedes := by
  rw [paths_eq, List.pairwise_cons]
  constructor
  · intro path hpath
    obtain ⟨i, rest, x, rfl, -, -⟩ := mem_pathsAll.mp hpath
    exact .inside [] (.part i) rest
  · exact pairwise_pathsAll fun x hx => pairwise_paths x
termination_by sizeOf e
decreasing_by exact Expr.sizeOf_lt_of_mem_parts hx

section Walks

variable {at? : Path → Option Expr} {stop : Expr → Bool}

/-- A walk through some expressions goes along their paths, given that the walk through each of
them does and that it does not stop before it gets to them. -/
theorem map_walk_eq_pathsAll
    (hat : ∀ i x, es[i]? = some x → ∀ rest, at? (.part i :: rest) = x.at? rest)
    (hstop : (at? []).any stop = false)
    (h : ∀ x ∈ es, (x.walk stop).map some =
      (x.paths.filter fun path => !path.isHidden x.at? stop).map x.at?) :
    (es.flatMap (walk stop)).map some =
      ((pathsAll es).filter fun path => !path.isHidden at? stop).map at? := by
  rw [pathsAll, List.filter_flatMap, List.map_flatMap, List.map_flatMap]
  conv_lhs => rw [← List.zipIdx_map_fst 0 es, List.flatMap_map]
  refine List.flatMap_congr ?_
  rintro ⟨x, i⟩ hx
  have hget : es[i]? = some x := List.mem_zipIdx_iff_getElem?.mp hx
  have hrest : (fun rest => at? (.part i :: rest)) = x.at? := funext (hat i x hget)
  rw [h x (List.mem_of_getElem? hget), List.filter_map, List.map_map]
  have hfilter : (fun path => !Path.isHidden x.at? stop path) =
      (fun path => !Path.isHidden at? stop path) ∘ (.part i :: ·) := by
    funext path
    rw [Function.comp_apply, Path.isHidden_cons, hstop, hrest, Bool.false_or]
  rw [hfilter, ← hrest]
  rfl

/-- A walk through an expression goes along the paths on which it does not stop. -/
theorem map_walk_eq (stop : Expr → Bool) (e : Expr) : (e.walk stop).map some =
    (e.paths.filter fun path => !path.isHidden e.at? stop).map e.at? := by
  rw [walk_eq, paths_eq, List.map_cons, List.filter_cons_of_pos (by rw [Path.isHidden_nil]; rfl),
    List.map_cons]
  congr 1
  cases he : stop e with
  | true =>
      -- Below an expression at which the walk stops every path is hidden.
      have hnone : (pathsAll e.parts).filter (fun path => !path.isHidden e.at? stop) = [] := by
        rw [List.filter_eq_nil_iff]
        intro path hpath
        obtain ⟨i, rest, x, rfl, -, -⟩ := mem_pathsAll.mp hpath
        simp [Path.isHidden_cons, Expr.at?, he]
      rw [hnone]
      rfl
  | false =>
      refine map_walk_eq_pathsAll ?_ he fun x hx => map_walk_eq stop x
      intro i x hx rest
      rw [Expr.at?, hx, Option.bind_some]
termination_by sizeOf e
decreasing_by exact Expr.sizeOf_lt_of_mem_parts hx

end Walks

end Expr

theorem Stmt.mem_paths (body : List Stmt) (path : Path) : path ∈ Stmt.paths body ↔
    (Stmt.at? body path).isSome ∧ ∀ step ∈ path, step.isPart := by
  rw [Stmt.paths]
  match path with
  | [] => simp [Expr.mem_pathsAll, Stmt.at?]
  | .part i :: rest => exact Expr.part_mem_pathsAll i (Expr.mem_paths · rest)
  | .fieldType i :: rest => simp [Expr.mem_pathsAll, Stmt.at?]

theorem Stmt.map_walkAll_eq (stop : Expr → Bool) (body : List Stmt) :
    (Stmt.walkAll stop body).map some =
      ((Stmt.paths body).filter fun path => !path.isHidden (Stmt.at? body) stop).map
        (Stmt.at? body) := by
  rw [Stmt.walkAll_eq, Stmt.paths]
  refine Expr.map_walk_eq_pathsAll ?_ rfl fun x _ => Expr.map_walk_eq stop x
  intro i x hx rest
  rw [Stmt.at?, hx, Option.bind_some]

/-- A walk lists every occurrence that is not inside of the type of a field, parameter or result,
once and in source order; a walk that stops at some expressions leaves out exactly the occurrences
inside of one of them. -/
theorem Stmt.walkAll_preorder (body : List Stmt) :
    (∀ path, path ∈ Stmt.paths body ↔
      (Stmt.at? body path).isSome ∧ ∀ step ∈ path, step.isPart) ∧
    (Stmt.paths body).Nodup ∧ (Stmt.paths body).Pairwise Path.Precedes ∧
    (Stmt.walkAll (fun _ => false) body).map some = (Stmt.paths body).map (Stmt.at? body) ∧
    ∀ stop : Expr → Bool, (Stmt.walkAll stop body).map some =
      ((Stmt.paths body).filter fun path => !path.isHidden (Stmt.at? body) stop).map
        (Stmt.at? body) := by
  have hpairwise : (Stmt.paths body).Pairwise Path.Precedes :=
    Expr.pairwise_pathsAll fun x _ => x.pairwise_paths
  refine ⟨Stmt.mem_paths body, hpairwise.imp Path.Precedes.ne, hpairwise, ?_,
    fun stop => Stmt.map_walkAll_eq stop body⟩
  rw [Stmt.map_walkAll_eq, List.filter_eq_self.mpr]
  intro path _
  rw [Path.isHidden_of_never, Bool.not_false]

end ResourceLint
