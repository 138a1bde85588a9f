import ResourceLint.Proofs.Depth
import ResourceLint.Proofs.Growth
import ResourceLint.Proofs.Run

/-!
# Inferences come to an end

In a program that declares nothing but types, every inference comes to an end, however the
declarations refer to each other. An inference goes from a piece of syntax to smaller ones, unless
it finds a declaration by its name. Then the name stands in the scope of its module for as long as
the declaration is worked out, and it is not worked out again below. So there are at most as many
such jumps below each other as there are declarations, provided that no name which is drawn on the
way can be taken for the name of a declaration.
-/

namespace ResourceLint

open Inference InferM

/-- A program without functions and without values. -/
structure Program.OnlyTypes (p : Program) : Prop where
  functions : ∀ m ∈ p.modules, m.functions = []
  values : ∀ m ∈ p.modules, m.values = []

namespace Program.OnlyTypes

variable {p : Program} (hp : p.OnlyTypes) {home : String} {symbols : Symbols}
  (h : p.symbols home = .ok symbols)

include hp h

theorem function?_eq_none (key : String) : symbols.functions.find? key = none := by
  obtain ⟨m, hm, hok⟩ := p.symbols_eq_ok h
  refine Option.eq_none_iff_forall_ne_some.mpr fun f hf => ?_
  have hmem := (Symbols.function_of_find? hok hf).1
  rw [hp.functions m (p.mem_modules hm)] at hmem
  cases hmem

theorem value?_eq_none (name : String) : symbols.values.find? name = none := by
  obtain ⟨m, hm, hok⟩ := p.symbols_eq_ok h
  refine Option.eq_none_iff_forall_ne_some.mpr fun spec hspec => ?_
  have hmem := (Symbols.value_of_find? hok hspec).1
  rw [hp.values m (p.mem_modules hm)] at hmem
  cases hmem

end Program.OnlyTypes

/-- No type has a name that looks drawn. -/
def Program.PlainTypes (p : Program) : Prop :=
  ∀ m ∈ p.modules, ∀ d ∈ m.types, InPlaceKind.struct.looksDrawn d.name = false

/-- A type stands under the name, or the name is kept free for one that is being worked out. -/
def Session.Takes (s : Session) (id name : String) : Prop :=
  ∃ sc, s.scopes.find? id = some sc ∧ (sc.entry .struct name).isSome = true

namespace Session.Takes

variable {s s' s₀ : Session} {home id name name' : String} {kind : InPlaceKind}

theorem mono (h : s.Takes id name) (hext : s.Extends s') : s'.Takes id name := by
  obtain ⟨sc, hsc, hentry⟩ := h
  obtain ⟨sc', hsc', hsc⟩ := hext.scopes hsc
  obtain ⟨t, ht⟩ := Option.isSome_iff_exists.mp hentry
  exact ⟨sc', hsc', by rw [hsc.entry ht, Option.isSome_some]⟩

theorem sameBut (h : s.Takes id name') (hsame : s.SameBut home kind name s')
    (hne : ¬ (id = home ∧ .struct = kind ∧ name' = name)) : s'.Takes id name' := by
  obtain ⟨sc, hsc, hentry⟩ := h
  rcases hsame.scope_after hsc with ⟨_, hsc'⟩ | ⟨rfl, sc', hsc', hsame'⟩
  · exact ⟨sc, hsc', hentry⟩
  · exact ⟨sc', hsc', by rwa [hsame'.entry fun heq => hne ⟨rfl, heq⟩]⟩

/-- Nothing stands under a name that is about to be worked out, unless the name is drawn. -/
theorem ne_of_opening {slot : Slot} (h : s.Takes id name') (hopen : Opening home s slot name s₀)
    (hplain : InPlaceKind.struct.looksDrawn name' = false) :
    ¬ (id = home ∧ .struct = slot.kind ∧ name' = name) := by
  rintro ⟨rfl, hkind, rfl⟩
  cases hopen with
  | known hsc _ hlacks =>
      obtain ⟨sc, hsc', hentry⟩ := h
      rw [hsc'] at hsc
      cases hsc
      rw [hkind, hlacks] at hentry
      cases hentry
  | drawn _ _ =>
      cases hkind
      rw [Session.draw, InPlaceKind.looksDrawn_padded] at hplain
      cases hplain

theorem of_opened {sc : Scope} (hsc : s.scopes.find? home = some sc) :
    (s.opened home .struct name).Takes home name := by
  rcases (SameBut.opened s home .struct name).scope_after hsc with ⟨hne, _⟩ | ⟨_, sc', hsc', _⟩
  · exact absurd rfl hne
  · exact ⟨sc', hsc', by rw [entry_opened hsc', Option.isSome_some]⟩

theorem opened (h : s.Takes id name') : (s.opened home kind name).Takes id name' := by
  by_cases hself : id = home ∧ .struct = kind ∧ name' = name
  · obtain ⟨rfl, rfl, rfl⟩ := hself
    obtain ⟨sc, hsc, _⟩ := h
    exact of_opened hsc
  · exact h.sameBut (.opened ..) hself

/-- Names that do not look drawn stay taken. -/
theorem change {p : Program} {known : String → Memo → Prop} (hchange : Change p known s s')
    (h : s.Takes id name') (hplain : InPlaceKind.struct.looksDrawn name' = false) :
    s'.Takes id name' := by
  induction hchange with
  | refl => exact h
  | trans _ _ ih ih' => exact ih' (ih h)
  | enter s id => exact h.mono (.enter s p id)
  | settle _ _ hopen _ _ ih =>
      -- Only the name that is settled may lose its entry, and nothing stood under that name before.
      exact (ih (h.mono (.opening hopen)).opened).sameBut (.closed ..)
        (h.ne_of_opening hopen hplain)

end Session.Takes

/-- All declared types have their names taken, but at most `n` of them. -/
def Session.LacksAtMost (p : Program) (n : Nat) (s : Session) : Prop :=
  ∃ lacking : List (String × String), lacking.length ≤ n ∧
    ∀ m ∈ p.modules, ∀ d ∈ m.types, s.Takes m.id d.name ∨ (m.id, d.name) ∈ lacking

namespace Session.LacksAtMost

variable {p : Program} {n : Nat} {s s' s₀ : Session} {home name : String}

theorem all (p : Program) (s : Session) :
    s.LacksAtMost p (p.modules.flatMap fun m => m.types.map fun d => (m.id, d.name)).length :=
  ⟨_, le_rfl, fun m hm _ hd =>
    .inr (List.mem_flatMap.mpr ⟨m, hm, List.mem_map_of_mem hd⟩)⟩

theorem of_takes (h : s.LacksAtMost p n)
    (htakes : ∀ m ∈ p.modules, ∀ d ∈ m.types, s.Takes m.id d.name → s'.Takes m.id d.name) :
    s'.LacksAtMost p n := by
  obtain ⟨lacking, hlength, hall⟩ := h
  exact ⟨lacking, hlength, fun m hm d hd => (hall m hm d hd).imp_left (htakes m hm d hd)⟩

theorem change {known : String → Memo → Prop} (h : s.LacksAtMost p n) (hplain : p.PlainTypes)
    (hchange : Change p known s s') : s'.LacksAtMost p n :=
  h.of_takes fun m hm d hd htakes => htakes.change hchange (hplain m hm d hd)

theorem opened {slot : Slot} (h : s.LacksAtMost p n) (hopen : Opening home s slot name s₀) :
    (s₀.opened home slot.kind name).LacksAtMost p n :=
  h.of_takes fun _ _ _ _ htakes => (htakes.mono (.opening hopen)).opened

/-- While a declared type is worked out, there is one less that lacks its name. -/
theorem opened_declared (h : s.LacksAtMost p n) {m : Module} (hm : m ∈ p.modules) {d : TypeDecl}
    (hd : d ∈ m.types) (hopen : Opening m.id s (.named .struct d.name) name s₀) :
    ∃ k, n = k + 1 ∧ (s₀.opened m.id .struct name).LacksAtMost p k := by
  obtain rfl := hopen.name_eq
  obtain ⟨lacking, hlength, hall⟩ := h
  cases hopen with
  | known hsc _ hlacks =>
      have hfree : ¬ s.Takes m.id d.name := by
        rintro ⟨sc', hsc', hentry⟩
        rw [hsc] at hsc'
        cases hsc'
        rw [Slot.kind] at hlacks
        rw [hlacks] at hentry
        cases hentry
      have hmem := (hall m hm d hd).resolve_left hfree
      have hpos := List.length_pos_of_mem hmem
      have herase := List.length_erase_of_mem hmem
      refine ⟨n - 1, by omega, lacking.erase (m.id, d.name), by omega, fun m' hm' d' hd' => ?_⟩
      by_cases hself : (m'.id, d'.name) = (m.id, d.name)
      · obtain ⟨hid, hname⟩ := Prod.mk.inj hself
        rw [hid, hname]
        exact .inl (.of_opened hsc)
      · exact (hall m' hm' d' hd').imp .opened (List.mem_erase_of_ne hself).mpr

end Session.LacksAtMost

namespace Termination

variable {p : Program} (hplain : p.PlainTypes)

/-- Inferences come to an end in all sessions where at most `n` declared types lack their names. The
second inference takes no part. -/
def correspondence (n : Nat) : Correspondence p p where
  like := .exact Eq
  lawful := Likeness.exact_eq_lawful
  enters _ := True
  enters_owner _ := trivial
  enters_split _ _ := trivial
  agrees := .refl p
  declared home symbols := p.symbols home = .ok symbols
  holds R x _ := ∀ s, s.Sound p → s.LacksAtMost p n → ∃ r s', x s = some (r, s') ∧
    Change p (fun _ _ => True) s s' ∧ ∃ q, ExceptRel Eq R r q
  holds_pure hab := fun s _ _ => ⟨.ok _, s, rfl, .refl s, .ok _, hab⟩
  holds_fail hee := fun s _ _ => ⟨.error _, s, rfl, .refl s, .error _, hee⟩
  holds_bind := by
    intro α β γ δ R S x y f g hx hf s hs hn
    obtain ⟨r, s₁, hr, hchange, q, hq⟩ := hx s hs hn
    cases r with
    | ok a =>
        cases q with
        | error _ => cases hq
        | ok b =>
            obtain ⟨r', s', hr', hchange', hq'⟩ := hf a b hq s₁ (hchange.sound hs)
              (hn.change hplain hchange)
            exact ⟨r', s', bind_eq_some.mpr (.inl ⟨a, s₁, hr, hr'⟩), hchange.trans hchange', hq'⟩
    | error e =>
        cases q with
        | ok _ => cases hq
        | error e' =>
            exact ⟨.error e, s₁, bind_eq_some.mpr (.inr ⟨e, hr, rfl⟩), hchange, .error e', hq⟩
  holds_scope {home} _ := by
    intro s hs _
    rcases henter : s.enter p home with ⟨e | sc, s₁⟩
    · exact ⟨.error e, s₁, by rw [scope_apply, henter], .of_enter henter, .error e, rfl⟩
    · exact ⟨.ok sc, s₁, by rw [scope_apply, henter], .of_enter henter, .ok sc, rfl, trivial,
        hs.symbols_of_enter henter⟩

variable {n k depth : Nat} {ask : Ask}

theorem tolerant : (correspondence hplain n).Tolerant := by
  intro α β R x y h s hs hn
  obtain ⟨r, s', hr, hchange, q, hq⟩ := h s hs hn
  exact ⟨.ok r, s', attempt_eq_some.mpr ⟨r, hr, rfl⟩, hchange, .ok q, hq⟩

theorem holds_of_le {α β : Type} {R : α → β → Prop} {x x' : InferM α} {y y' : InferM β}
    (h : (correspondence hplain n).holds R x y) (hle : x ≤ x') :
    (correspondence hplain n).holds R x' y' := by
  intro s hs hn
  obtain ⟨r, s', hr, hend⟩ := h s hs hn
  exact ⟨r, s', hle s _ hr, hend⟩

/-- Asking for something that may be remembered comes to an end if working it out does. -/
theorem memo {home : String} {memo : Memo} (hnamed : memo.isNamed = true)
    (hbuild : ∀ {s name s₀}, s.LacksAtMost p n → Opening home s memo.slot name s₀ →
      ∃ k, (s₀.opened home memo.slot.kind name).LacksAtMost p k ∧
        (correspondence hplain k).holds (Ty.Like (.exact Eq)) (memo.build p ask home name)
          (memo.build p ask home name)) :
    (correspondence hplain n).holds (Ty.Like (.exact Eq)) (memo.infer p ask home)
      (memo.infer p ask home) := by
  intro s hs hn
  rcases henter : s.enter p home with ⟨e | sc, s₁⟩
  · exact ⟨.error e, s₁, Memo.infer_error hnamed henter, .of_enter henter, .error e, rfl⟩
  · have hchange : Change p (fun _ _ => True) s s₁ := .of_enter henter
    have hentered := Session.entered_of_enter henter
    rw [Memo.infer_of_enter hnamed henter]
    cases ht : sc.recalled? memo.slot with
    | some t =>
        exact ⟨.ok t, s₁, Memo.infer_hit hnamed hentered ht, hchange, .ok t,
          (Ty.like_exact_iff t t).mpr rfl⟩
    | none =>
        obtain ⟨name, s₀, hopen, hinfer⟩ := Memo.infer_miss hnamed hentered ht
        obtain ⟨k, hk, hholds⟩ := hbuild (hn.change hplain hchange) hopen
        have hsound := (Session.SameBut.opened s₀ home memo.slot.kind name).sound
          (hopen.sound (hchange.sound hs))
        obtain ⟨r, s₂, hr, hinner, hq⟩ := hholds _ hsound hk
        refine ⟨r, s₂.closed home memo.slot.kind name r, ?_, hchange.trans
          (.settle trivial hnamed hopen hinner ?_), hq⟩
        · rw [hinfer p ask, Memo.settled, hr, Option.map_some]
        · rintro t rfl
          exact ⟨ask, _, _, hr⟩

/-- Questions about declared types are answered. -/
def Jumps (n depth : Nat) : Prop :=
  (correspondence hplain n).Types (infer p depth) (infer p depth)

/-- Questions about subjects of bounded size are answered. -/
def Answers (n k depth : Nat) : Prop :=
  ∀ x home, sizeOf x ≤ k → (correspondence hplain n).holds (Ty.Like (.exact Eq))
    (infer p depth x home) (infer p depth x home)

variable {hplain}

theorem Jumps.mono {depth' : Nat} (h : Jumps hplain n depth) (hle : depth ≤ depth') :
    Jumps hplain n depth' := fun howner hdeclared hd =>
  holds_of_le hplain (h howner hdeclared hd) (infer_monotone _ _ hle)

section OnlyTypes

variable (hp : p.OnlyTypes)

include hp

/-- Only types can be found by name. -/
theorem Jumps.names (h : Jumps hplain n depth) :
    (correspondence hplain n).Names (infer p depth) (infer p depth) where
  fields := (correspondence hplain n).fieldsIfAny h (tolerant hplain) fun _ _ => rfl
  signatures {home symbols key} hdeclared hcontains := by
    rw [Table.contains, hp.function?_eq_none hdeclared] at hcontains
    cases hcontains
  unequal _ _ hname hne := absurd hname hne
  types := h
  values {home symbols name spec} _ hdeclared hspec := by
    rw [hp.value?_eq_none hdeclared] at hspec
    cases hspec

theorem Jumps.memo (h : Jumps hplain n depth) {home : String} {memo : Memo}
    (hnamed : memo.isNamed = true)
    (asks : (correspondence hplain n).Asks (infer p depth) (infer p depth) home memo.questions) :
    (correspondence hplain n).holds (Ty.Like (.exact Eq)) (memo.infer p (infer p depth) home)
      (memo.infer p (infer p depth) home) :=
  Termination.memo hplain hnamed fun hn hopen => ⟨n, hn.opened hopen,
    (correspondence hplain n).build (h.names hp).fields (tolerant hplain) trivial rfl
      (fun _ => trivial) (fun _ _ => trivial) asks⟩

theorem Answers.succ (h : Answers hplain n k depth) (hjumps : Jumps hplain n depth) :
    Answers hplain n (k + 1) (depth + 1) := by
  intro x home hx
  have asks : ∀ {questions : List Subject}, (∀ y ∈ questions, sizeOf y < sizeOf x) →
      (correspondence hplain n).Asks (infer p depth) (infer p depth) home questions :=
    fun hsize y hy => h y home (by have := hsize y hy; omega)
  cases x with
  | expr e =>
      refine (correspondence hplain n).exprType (hjumps.names hp) trivial (fun _ _ => trivial)
        (asks fun y => Expr.sizeOf_of_question) fun memo hmemo hnamed => ?_
      refine hjumps.memo hp hnamed (asks fun y hy => ?_)
      exact (Memo.sizeOf_of_question hy).trans (Expr.sizeOf_of_remembers hmemo)
  | decl d =>
      have hnamed : (Memo.type d).isNamed = true := rfl
      refine hjumps.memo hp hnamed (asks fun y hy => ?_)
      exact (Memo.sizeOf_of_question hy).trans_eq (by simp)

theorem Jumps.answers (h : Jumps hplain n depth) (k : Nat) : Answers hplain n k (depth + k) := by
  induction k with
  | zero =>
      intro x home hx
      cases x <;> simp at hx
  | succ k ih => exact ih.succ hp (h.mono (Nat.le_add_right depth k))

omit hp in
theorem sizeOf_declared_le {m : Module} (hm : m ∈ p.modules) {d : TypeDecl} (hd : d ∈ m.types) :
    sizeOf (Memo.type d) ≤ sizeOf p.modules := by
  have hmodule := List.sizeOf_lt_of_mem hm
  have htype := List.sizeOf_lt_of_mem hd
  obtain ⟨id, name, files, functions, types, values, dependencies⟩ := m
  simp only [Module.mk.sizeOf_spec] at hmodule htype
  simp only [Memo.type.sizeOf_spec]
  omega

/-- A declared type is answered if, with one name less to take, everything it asks is. -/
theorem jumps_succ (h : ∀ k, n = k + 1 → Jumps hplain k depth ∧
    Answers hplain k (sizeOf p.modules) depth) : Jumps hplain n (depth + 1) := by
  intro home symbols name d _ hdeclared hd
  obtain ⟨m, hm, hok⟩ := Program.symbols_eq_ok hdeclared
  have hmem := (Symbols.type_of_find? hok hd).1
  obtain rfl := p.id_eq hm
  have hnamed : (Memo.type d).isNamed = true := rfl
  refine memo hplain hnamed fun hn hopen => ?_
  -- The type is worked out only while its name is free, so with no name to take it is recalled.
  obtain ⟨k, hk, hopened⟩ := hn.opened_declared (p.mem_modules hm) hmem hopen
  obtain ⟨hjumps, hanswers⟩ := h k hk
  refine ⟨k, hopened, (correspondence hplain k).build (hjumps.names hp).fields (tolerant hplain)
    trivial rfl (fun _ => trivial) (fun _ _ => trivial) fun y hy => hanswers y _ ?_⟩
  exact (Memo.sizeOf_of_question hy).le.trans (sizeOf_declared_le (p.mem_modules hm) hmem)

theorem exists_jumps (n : Nat) : ∃ depth, Jumps hplain n depth := by
  induction n with
  | zero => exact ⟨1, jumps_succ hp fun k hk => by cases hk⟩
  | succ n ih =>
      -- Each jump takes a walk down a declaration, which is no longer than the program.
      obtain ⟨depth, h⟩ := ih
      refine ⟨depth + sizeOf p.modules + 1, jumps_succ hp fun k hk => ?_⟩
      cases hk
      exact ⟨h.mono (Nat.le_add_right ..), h.answers hp _⟩

theorem signature (key home : String) :
    (correspondence hplain n).holds (Signature.Like (.exact Eq))
      (namedSignature p ask key home) (namedSignature p ask key home) := by
  refine (correspondence hplain n).holds_bind ((correspondence hplain n).holds_scope trivial)
    fun sc _ ⟨_, _, hdeclared⟩ s _ _ => ?_
  cases hsig : sc.signatures.find? key with
  | some sig =>
      exact ⟨.ok sig, s, rfl, .refl s, .ok sig, (Signature.like_exact_iff sig sig).mpr rfl⟩
  | none =>
      rw [hp.function?_eq_none hdeclared]
      exact ⟨.error _, s, rfl, .refl s, .error _, rfl⟩

end OnlyTypes

/-- Every operation comes to an end once questions about declared types do. -/
theorem Jumps.completes (hp : p.OnlyTypes) (hjumps : Jumps hplain n depth) {s : Session}
    (hs : s.Sound p) (hn : s.LacksAtMost p n) (op : Operation) : ∃ s', op.Completes p s s' := by
  have names := hjumps.names hp
  have hlike : ∀ t : Ty, Ty.Like (correspondence hplain n).like t t := fun t =>
    (Ty.like_exact_iff t t).mpr rfl
  cases op with
  | typeOf e home =>
      obtain ⟨r, s', hr, _⟩ := hjumps.answers hp _ (.expr e) home le_rfl s hs hn
      exact ⟨s', r, _, hr⟩
  | declaredType d home =>
      obtain ⟨r, s', hr, _⟩ := hjumps.answers hp _ (.decl d) home le_rfl s hs hn
      exact ⟨s', r, _, hr⟩
  | topLevelType name home =>
      have htype : (correspondence hplain n).holds _ (p.topLevelType depth name home) _ :=
        (correspondence hplain n).topLevelType names trivial trivial
      obtain ⟨r, s', hr, _⟩ := htype s hs hn
      exact ⟨s', r, depth, hr⟩
  | localType name home =>
      have htype : (correspondence hplain n).holds _ (p.localType depth name home) _ :=
        (correspondence hplain n).localType names name trivial
      obtain ⟨r, s', hr, _⟩ := htype s hs hn
      exact ⟨s', r, depth, hr⟩
  | declaredSignature f home =>
      have hanswers := hjumps.answers hp (sizeOf (Memo.function f))
      have hjumps : Jumps hplain n (depth + sizeOf (Memo.function f)) :=
        hjumps.mono (Nat.le_add_right ..)
      have hsig : (correspondence hplain n).holds _ (p.declaredSignature _ f home) _ :=
        (correspondence hplain n).declaredSignature fun hnamed => hjumps.memo hp hnamed
          fun y hy => hanswers y home (Memo.sizeOf_of_question hy).le
      obtain ⟨r, s', hr, _⟩ := hsig s hs hn
      exact ⟨s', r, _, hr⟩
  | namedSignature name home =>
      have hsig : (correspondence hplain n).holds _ (p.namedSignature depth name home) _ :=
        Termination.signature hp name home
      obtain ⟨r, s', hr, _⟩ := hsig s hs hn
      exact ⟨s', r, depth, hr⟩
  | methodSignature method receiver home =>
      have hsig : (correspondence hplain n).holds _
          (p.methodSignature depth method receiver home) _ :=
        (correspondence hplain n).methodSignature names.toMembers method rfl trivial trivial
      obtain ⟨r, s', hr, _⟩ := hsig s hs hn
      exact ⟨s', r, depth, hr⟩
  | typeOfMember t member home =>
      have htype : (correspondence hplain n).holds _ (p.typeOfMember depth t member home) _ :=
        (correspondence hplain n).typeOfMember names.toMembers (hlike t) member trivial
      obtain ⟨r, s', hr, _⟩ := htype s hs hn
      exact ⟨s', r, depth, hr⟩
  | declaredFields name home =>
      have hfields : (correspondence hplain n).holds _ (p.declaredFields depth name home) _ :=
        (correspondence hplain n).declaredFields names.types (fun _ _ => rfl) trivial trivial
      obtain ⟨r, s', hr, _⟩ := hfields s hs hn
      exact ⟨s', r, depth, hr⟩
  | fits t expected overrides =>
      have hfits : (correspondence hplain n).holds _ (p.fits depth t expected overrides) _ :=
        (correspondence hplain n).fits (tolerant hplain) (hlike t)
          (fun owner _ => (correspondence hplain n).localType names t.name trivial) expected
          overrides
      obtain ⟨r, s', hr, _⟩ := hfits s hs hn
      exact ⟨s', r, depth, hr⟩
  | scope home => exact ⟨_, _, rfl⟩

end Termination

open Termination in
/-- In a program that declares nothing but types, under names that do not look drawn, every
operation comes to an end in every session that a run can have. -/
theorem completes_of_onlyTypes {p : Program} (hp : p.OnlyTypes) (hplain : p.PlainTypes)
    {s : Session} (hrun : Run p (fun _ _ => True) .new s) (op : Operation) :
    ∃ s', op.Completes p s s' := by
  have hchange := hrun.change (fun _ _ _ _ _ => trivial) Session.sound_new
  have hn := Session.LacksAtMost.all p s
  obtain ⟨depth, hjumps⟩ : ∃ depth, Jumps hplain _ depth := exists_jumps hp _
  exact hjumps.completes hp (hchange.sound Session.sound_new) hn op

/-- `type Outer struct { *far.Inner; self []Outer }` -/
def outer : TypeDecl :=
  ⟨"Outer", ⟨.zero, .structType
    [⟨[], ⟨.zero, .star ⟨.zero, .selector ⟨.zero, .ident "far" none⟩ "Inner"⟩⟩, .zero⟩,
      ⟨["self"], ⟨.zero, .arrayType ⟨.zero, .ident "Outer" none⟩⟩, .zero⟩]⟩, .zero⟩

/-- `type Inner near.Outer` and `type Bound Inner`, where `Inner` is bound to a declaration of a
struct that embeds `Bound`. -/
def inners : List TypeDecl :=
  [⟨"Inner", ⟨.zero, .selector ⟨.zero, .ident "near" none⟩ "Outer"⟩, .zero⟩,
    ⟨"Bound", ⟨.zero, .ident "Inner" (some (.type ⟨"Inner", ⟨.zero, .structType
      [⟨[], ⟨.zero, .ident "Bound" none⟩, .zero⟩]⟩, .zero⟩))⟩, .zero⟩]

/-- Types that refer to each other by name, by embedding, by binding and across modules. -/
def nearAndFar : Program :=
  ((Program.empty []).add ⟨"near", "near", [⟨0, [⟨"far", none⟩]⟩], [], [outer], [], ∅⟩).add
    ⟨"far", "far", [⟨0, [⟨"near", none⟩]⟩], [], inners, [], ∅⟩

theorem nearAndFar_completes :
    nearAndFar.OnlyTypes ∧ nearAndFar.PlainTypes ∧
      ∃ s, Run nearAndFar (fun _ _ => True) .new s ∧
        s.Takes "near" "Outer" ∧ ∀ op : Operation, ∃ s', op.Completes nearAndFar s s' := by
  have hp : nearAndFar.OnlyTypes :=
    ⟨by decide +kernel, by decide +kernel⟩
  have hplain : nearAndFar.PlainTypes := by
    unfold Program.PlainTypes
    decide +kernel
  have hrun : Run nearAndFar (fun _ _ => True) .new _ :=
    .single ⟨.topLevelType "Outer" "near", trivial, _, 9, rfl⟩
  exact ⟨hp, hplain, _, hrun, ⟨_, rfl, rfl⟩, completes_of_onlyTypes hp hplain hrun⟩

end ResourceLint
