import ResourceLint.Proofs.Confinement
import ResourceLint.Proofs.Run

/-!
# Answers belong to the program

Every type that an inference gives belongs to the program, and so does every type inside of it: the
modules that own them are loaded, and predeclared types go by their canonical names. This holds as
long as operations are asked about modules that are loaded, and about types that earlier operations
gave.
-/

namespace ResourceLint

open Inference InferM

mutual

/-- A type and all types inside of it, the keys of maps included. -/
def Ty.parts : Ty → List Ty
  | .array item => .array item :: Ty.parts item
  | .map key value => .map key value :: .simple key :: Ty.parts value
  | .struct name owner ⟨fields⟩ => .struct name owner ⟨fields⟩ :: Ty.partsOfFields fields
  | .func sig => .func sig :: Signature.parts sig
  | .wrapper name owner wrapped => .wrapper name owner wrapped :: Ty.parts wrapped
  | t@(.simple _) | t@(.interface) | t@(.stub) => [t]

def Signature.parts : Signature → List Ty
  | ⟨_, _, _, args, results⟩ => Ty.partsOfAll args ++ Ty.partsOfAll results

def Ty.partsOfAll : List Ty → List Ty
  | [] => []
  | t :: ts => Ty.parts t ++ Ty.partsOfAll ts

def Ty.partsOfFields : List (String × Ty) → List Ty
  | [] => []
  | (_, t) :: fields => Ty.parts t ++ Ty.partsOfFields fields

end

namespace Ty

/-- The owner of the type is a loaded module; without an owner, its name is canonical. -/
def IsGrounded (p : Program) : Ty → Prop
  | .simple ⟨_, some owner⟩ | .struct _ owner _ | .wrapper _ owner _ =>
      (p.module? owner).isSome = true
  | .func sig => (p.module? sig.owner).isSome = true
  | .simple ⟨name, none⟩ => Predeclared.IsCanonical name
  | .array _ | .map .. | .interface | .stub => True

/-- The type and all types inside of it are grounded. -/
def IsClosed (p : Program) (t : Ty) : Prop :=
  ∀ part ∈ t.parts, part.IsGrounded p

end Ty

mutual

theorem Ty.like_of_part {l : Likeness} {t part : Ty} (h : Ty.Like l t t) (hpart : part ∈ t.parts) :
    Ty.Like l part part := by
  match t, h.form with
  | .array item, .array hitem =>
      rcases List.mem_cons.mp hpart with rfl | hpart
      · exact h
      · exact Ty.like_of_part hitem hpart
  | .map key value, .map hkey hvalue =>
      rcases List.mem_cons.mp hpart with rfl | hpart
      · exact h
      · rcases List.mem_cons.mp hpart with rfl | hpart
        · exact Ty.like_iff.mpr (.simple hkey)
        · exact Ty.like_of_part hvalue hpart
  | .struct name owner ⟨fields⟩, .struct _ _ hfields =>
      rcases List.mem_cons.mp hpart with rfl | hpart
      · exact h
      · exact Ty.like_of_partOfFields (Ty.likeFields_iff.mpr hfields) hpart
  | .func sig, .func hsig =>
      rcases List.mem_cons.mp hpart with rfl | hpart
      · exact h
      · exact Signature.like_of_part hsig hpart
  | .wrapper name owner wrapped, .wrapper _ hwrapped =>
      rcases List.mem_cons.mp hpart with rfl | hpart
      · exact h
      · exact Ty.like_of_part hwrapped hpart
  | .simple _, .simple _ | .interface, .interface | .stub, .stub =>
      obtain rfl := List.mem_singleton.mp hpart
      exact h

theorem Signature.like_of_part {l : Likeness} {sig : Signature} {part : Ty}
    (h : Signature.Like l sig sig) (hpart : part ∈ sig.parts) : Ty.Like l part part := by
  match sig with
  | ⟨_, _, _, args, results⟩ =>
      rw [Signature.Like] at h
      rw [Signature.parts] at hpart
      rcases List.mem_append.mp hpart with hpart | hpart
      · exact Ty.like_of_partOfAll h.2.2.2.2.1 hpart
      · exact Ty.like_of_partOfAll h.2.2.2.2.2 hpart

theorem Ty.like_of_partOfAll {l : Likeness} {ts : List Ty} {part : Ty} (h : Ty.LikeList l ts ts)
    (hpart : part ∈ Ty.partsOfAll ts) : Ty.Like l part part := by
  match ts with
  | [] => cases hpart
  | t :: ts =>
      rw [Ty.LikeList] at h
      rcases List.mem_append.mp hpart with hpart | hpart
      · exact Ty.like_of_part h.1 hpart
      · exact Ty.like_of_partOfAll h.2 hpart

theorem Ty.like_of_partOfFields {l : Likeness} {fields : List (String × Ty)} {part : Ty}
    (h : Ty.LikeFields l fields fields) (hpart : part ∈ Ty.partsOfFields fields) :
    Ty.Like l part part := by
  match fields with
  | [] => cases hpart
  | (_, t) :: fields =>
      rw [Ty.LikeFields] at h
      rcases List.mem_append.mp hpart with hpart | hpart
      · exact Ty.like_of_part h.2.1 hpart
      · exact Ty.like_of_partOfFields h.2.2 hpart

end

namespace Operation

/-- The operation comes to an end and gives these types. -/
def Gives (p : Program) (s : Session) (given : List Ty) (s' : Session) : Operation → Prop
  | .typeOf e home => ∃ r, Ends (p.typeOf · e home) s r s' ∧ given = r.toOption.toList
  | .declaredType d home => ∃ r, Ends (p.declaredType · d home) s r s' ∧ given = r.toOption.toList
  | .topLevelType name home =>
      ∃ r, Ends (p.topLevelType · name home) s r s' ∧ given = r.toOption.toList
  | .localType name home => ∃ r, Ends (p.localType · name home) s r s' ∧ given = r.toOption.toList
  | .declaredSignature f home =>
      ∃ r, Ends (p.declaredSignature · f home) s r s' ∧ given = r.toOption.toList.map .func
  | .namedSignature name home =>
      ∃ r, Ends (p.namedSignature · name home) s r s' ∧ given = r.toOption.toList.map .func
  | .methodSignature method receiver home =>
      ∃ r, Ends (p.methodSignature · method receiver home) s r s' ∧
        given = r.toOption.toList.map .func
  | .typeOfMember t member home =>
      ∃ r, Ends (p.typeOfMember · t member home) s r s' ∧ given = r.toOption.toList
  | .declaredFields name home =>
      ∃ r, Ends (p.declaredFields · name home) s r s' ∧
        given = r.toOption.toList.flatMap Table.values
  | .fits t expected overrides =>
      ∃ r, Ends (p.fits · t expected overrides) s r s' ∧ given = []
  | .scope home => (∃ r, s.enter p home = (r, s')) ∧ given = []

/-- The operation is about a loaded module, and about a type that stands in one of those given. -/
def IsAbout (p : Program) (given : List Ty) : Operation → Prop
  | .typeOf _ home | .declaredType _ home | .topLevelType _ home | .localType _ home
  | .declaredSignature _ home | .namedSignature _ home | .methodSignature _ _ home
  | .declaredFields _ home | .scope home => (p.module? home).isSome = true
  | .typeOfMember t _ home => (p.module? home).isSome = true ∧ ∃ u ∈ given, t ∈ u.parts
  | .fits t _ _ => ∃ u ∈ given, t ∈ u.parts

end Operation

/-- Sessions in which nothing has been asked about but the program itself, with all types that have
been given so far. -/
inductive Course (p : Program) : List Ty → Session → Prop
  | new : Course p [] .new
  | step {given given' : List Ty} {s s' : Session} {op : Operation} (h : Course p given s)
      (hop : op.IsAbout p given) (hgives : op.Gives p s given' s') : Course p (given' ++ given) s'

/-- All names may occur and all modules may be entered. -/
def Confinement.whole (p : Program) : Confinement p p where
  word _ := True
  enters _ := True
  basic _ _ := trivial
  drawn _ _ := trivial
  split _ _ := trivial
  agrees := .refl p
  words _ _ _ _ := trivial

open Confinement (whole)

variable {p : Program} {l : Likeness} {I : Session → Prop} {given : List Ty} {s s' : Session}

theorem Ty.isGrounded_of_like {t : Ty} (h : Ty.Like (whole p).like t t) : t.IsGrounded p := by
  cases t with
  | simple s =>
      obtain ⟨name, owner⟩ := s
      cases h.form with
      | simple hs =>
          cases owner with
          | none => exact hs.2
          | some owner => exact hs.2.2
  | struct name owner fields =>
      cases h.form with
      | struct _ hs _ => exact hs.2.2
  | func sig =>
      cases h.form with
      | func hsig => exact (Signature.like_iff.mp hsig).2.2.1.2
  | wrapper name owner wrapped =>
      cases h.form with
      | wrapper hs _ => exact hs.2.2
  | array | map | interface | stub => exact trivial

theorem Ty.isClosed_of_like {t : Ty} (h : Ty.Like (whole p).like t t) : t.IsClosed p :=
  fun _ hpart => Ty.isGrounded_of_like (Ty.like_of_part h hpart)

theorem InferM.Together.types {x : Nat → InferM Ty}
    (hx : ∀ depth, Together I (Ty.Like l) (x depth) (x depth)) (hs : I s)
    {r : Except InferError Ty} (h : Ends x s r s') :
    I s' ∧ ∀ t ∈ r.toOption.toList, Ty.Like l t t := by
  obtain ⟨depth, h⟩ := h
  obtain ⟨hs', hr⟩ := (hx depth).outcome hs h
  exact ⟨hs', fun t ht => hr t (Option.mem_toList.mp ht)⟩

theorem InferM.Together.signatures {x : Nat → InferM Signature}
    (hx : ∀ depth, Together I (Signature.Like l) (x depth) (x depth)) (hs : I s)
    {r : Except InferError Signature} (h : Ends x s r s') :
    I s' ∧ ∀ t ∈ r.toOption.toList.map Ty.func, Ty.Like l t t := by
  obtain ⟨depth, h⟩ := h
  obtain ⟨hs', hr⟩ := (hx depth).outcome hs h
  refine ⟨hs', fun t ht => ?_⟩
  obtain ⟨sig, hsig, rfl⟩ := List.mem_map.mp ht
  exact Ty.like_iff.mpr (.func (hr sig (Option.mem_toList.mp hsig)))

theorem Table.like_of_mem_values {fields : Table Ty} (h : Table.Rel (Ty.Like l) fields fields)
    {t : Ty} (ht : t ∈ fields.values) : Ty.Like l t t := by
  obtain ⟨entries⟩ := fields
  obtain ⟨entry, hentry, rfl⟩ := List.mem_map.mp ht
  exact (List.forall₂_same.mp h entry hentry).2

theorem Operation.vouched {op : Operation} {given' : List Ty} (hs : (whole p).Vouched s)
    (hgiven : ∀ t ∈ given, Ty.Like (whole p).like t t) (hop : op.IsAbout p given)
    (h : op.Gives p s given' s') :
    (whole p).Vouched s' ∧ ∀ t ∈ given', Ty.Like (whole p).like t t := by
  have asks := (whole p).asks_infer
  have names := fun depth => (asks depth).names
  have hpart : ∀ {t}, (∃ u ∈ given, t ∈ u.parts) → Ty.Like (whole p).like t t := by
    rintro t ⟨u, hu, ht⟩
    exact Ty.like_of_part (hgiven u hu) ht
  cases op with
  | typeOf e home =>
      obtain ⟨r, h, rfl⟩ := h
      exact Together.types (fun depth => asks depth (.expr e) home ⟨trivial, hop⟩
        fun _ _ => trivial) hs h
  | declaredType d home =>
      obtain ⟨r, h, rfl⟩ := h
      exact Together.types (fun depth => asks depth (.decl d) home ⟨trivial, hop⟩
        fun _ _ => trivial) hs h
  | topLevelType name home =>
      obtain ⟨r, h, rfl⟩ := h
      exact Together.types (fun depth => (whole p).correspondence.topLevelType (names depth)
        trivial trivial) hs h
  | localType name home =>
      obtain ⟨r, h, rfl⟩ := h
      exact Together.types (fun depth => (whole p).correspondence.localType (names depth) name
        trivial) hs h
  | declaredSignature f home =>
      obtain ⟨r, h, rfl⟩ := h
      exact Together.signatures (fun depth => (whole p).correspondence.declaredSignature
        fun hnamed => (asks depth).memo ⟨trivial, hop⟩ hnamed fun _ _ => trivial) hs h
  | namedSignature name home =>
      obtain ⟨r, h, rfl⟩ := h
      exact Together.signatures (fun depth => (asks depth).signature trivial name) hs h
  | methodSignature method receiver home =>
      obtain ⟨r, h, rfl⟩ := h
      exact Together.signatures (fun depth => (whole p).correspondence.methodSignature
        (names depth).toMembers method rfl trivial trivial) hs h
  | typeOfMember t member home =>
      obtain ⟨r, h, rfl⟩ := h
      exact Together.types (fun depth => (whole p).correspondence.typeOfMember
        (names depth).toMembers (hpart hop.2) member trivial) hs h
  | declaredFields name home =>
      obtain ⟨r, ⟨depth, h⟩, rfl⟩ := h
      have hfields : Together (whole p).Vouched (Table.Rel (Ty.Like (whole p).like))
          (p.declaredFields depth name home) (p.declaredFields depth name home) :=
        (whole p).correspondence.declaredFields (asks depth).types (fun _ _ => rfl) trivial trivial
      obtain ⟨hs', hr⟩ := Together.outcome hfields hs h
      refine ⟨hs', fun t ht => ?_⟩
      obtain ⟨fields, hfields, ht⟩ := List.mem_flatMap.mp ht
      exact Table.like_of_mem_values (hr fields (Option.mem_toList.mp hfields)) ht
  | fits t expected overrides =>
      obtain ⟨r, ⟨depth, h⟩, rfl⟩ := h
      have hfits := (whole p).correspondence.fits (whole p).tolerant (hpart hop) (fun owner _ =>
        (whole p).correspondence.localType (names depth) t.name trivial) expected overrides
      exact ⟨(Together.outcome hfits hs h).1, fun t ht => by cases ht⟩
  | scope home =>
      obtain ⟨⟨r, h⟩, rfl⟩ := h
      have hs' := hs.enter home
      rw [h] at hs'
      exact ⟨hs', fun t ht => by cases ht⟩

theorem Course.vouched (h : Course p given s) :
    (whole p).Vouched s ∧ ∀ t ∈ given, Ty.Like (whole p).like t t := by
  induction h with
  | new => exact ⟨.new, fun t ht => by cases ht⟩
  | step _ hop hgives ih =>
      obtain ⟨hs', hgiven'⟩ := Operation.vouched ih.1 ih.2 hop hgives
      refine ⟨hs', fun t ht => ?_⟩
      rcases List.mem_append.mp ht with ht | ht
      · exact hgiven' t ht
      · exact ih.2 t ht

/-- The type of every expression in a loaded module is closed, whatever has been asked before, and
so is every type and every signature that a session remembers. -/
theorem typeOf_closed (h : Course p given s) :
    (∀ e home t s', (p.module? home).isSome = true →
      Ends (p.typeOf · e home) s (.ok t) s' → t.IsClosed p) ∧
    ∀ id sc, s.scopes.find? id = some sc →
      (∀ name t, sc.types.find? name = some t → t.IsClosed p) ∧
      ∀ name sig, sc.signatures.find? name = some sig → (Ty.func sig).IsClosed p := by
  obtain ⟨hs, hgiven⟩ := h.vouched
  constructor
  · intro e home t s' hhome hends
    have hop : (Operation.typeOf e home).IsAbout p given := hhome
    have hgives := Operation.vouched hs hgiven hop ⟨_, hends, rfl⟩
    exact Ty.isClosed_of_like (hgives.2 t (List.mem_singleton_self t))
  · intro id sc hsc
    have hentry : ∀ {kind name t}, sc.entry kind name = some t → t.IsClosed p := fun ht =>
      Ty.isClosed_of_like (hs.entry hsc ht)
    refine ⟨fun name t ht => ?_, fun name sig hsig => ?_⟩
    · have ht : sc.entry .struct name = some t := ht
      exact hentry ht
    · have hsig : sc.entry .func name = some (.func sig) := by
        rw [Scope.entry, hsig, Option.map_some]
      exact hentry hsig

/-- `type Node struct { next *Node; names map[string]int32 }` -/
def node : TypeDecl :=
  ⟨"Node", ⟨.zero, .structType
    [⟨["next"], ⟨.zero, .star ⟨.zero, .ident "Node" none⟩⟩, .zero⟩,
      ⟨["names"], ⟨.zero, .mapType ⟨.zero, .ident "string" none⟩ ⟨.zero, .ident "int32" none⟩⟩,
        .zero⟩]⟩, .zero⟩

def nodes : Program :=
  (Program.empty []).add ⟨"m", "m", [], [], [node], [], ∅⟩

/-- `[]func(Node) Node` with its `Node` bound. -/
def nodeFuncs : Expr :=
  ⟨.zero, .arrayType ⟨.zero, .funcType
    [⟨[], ⟨.zero, .ident "Node" none⟩, .zero⟩]
    [⟨[], ⟨.zero, .ident "Node" (some (.type node))⟩, .zero⟩]⟩⟩

/-- The type of `Node`. -/
def nodeType : Ty :=
  .wrapper "Node" "m" (.struct "Node" "m"
    ⟨[("names", .map ⟨"string", none⟩ (.simple ⟨"int", none⟩)),
      ("next", .simple ⟨"Node", some "m"⟩)]⟩)

theorem nodeFuncs_closed :
    ∃ s s' sc, Course nodes [.simple ⟨"Node", some "m"⟩, nodeType] s ∧
      (nodes.module? "m").isSome = true ∧
      (∃ t, Ends (nodes.typeOf · nodeFuncs "m") s (.ok t) s' ∧ t.IsClosed nodes) ∧
      s.scopes.find? "m" = some sc ∧ sc.types.find? "Node" = some nodeType ∧
      nodeType.IsClosed nodes := by
  have hfirst : Course nodes [nodeType] _ :=
    @Course.step nodes [] [nodeType] .new _ (.topLevelType "Node" "m") .new rfl
      ⟨.ok nodeType, ⟨6, rfl⟩, rfl⟩
  have hsecond : Course nodes [.simple ⟨"Node", some "m"⟩, nodeType] _ :=
    @Course.step nodes _ [_] _ _ (.typeOfMember nodeType "next" "m") hfirst
      ⟨rfl, nodeType, List.mem_singleton_self _, List.mem_cons_self⟩
      ⟨.ok (.simple ⟨"Node", some "m"⟩), ⟨6, rfl⟩, rfl⟩
  obtain ⟨htypes, hscopes⟩ := typeOf_closed hsecond
  exact ⟨_, _, _, hsecond, rfl, ⟨_, ⟨7, rfl⟩, htypes nodeFuncs "m" _ _ rfl ⟨7, rfl⟩⟩, rfl,
    rfl, (hscopes "m" _ rfl).1 "Node" nodeType rfl⟩

end ResourceLint
