import ResourceLint.Proofs.Depth
import ResourceLint.Proofs.Recall

/-!
# Positions in a signature

A group such as `a, b int` stands for several parameters or results, so where those of a group are
in a signature depends on all groups before it. A group covers the positions from its offset on, one
for each of its names, and one if it has none (`FieldGroup.Covers`). A signature that is worked out
lists the types of the groups by these positions, in the order of the declaration
(`declaredSignature_positions`), which is also how names of parameters and targets of assignments
are counted.
-/

namespace ResourceLint

open Inference InferM

namespace FieldGroup

variable {α : Type} {g : FieldGroup} {groups : List FieldGroup} {k i : Nat}

/-- The number of parameters or results before those of a group. -/
def offset : List FieldGroup → Nat → Nat
  | [], _ | _ :: _, 0 => 0
  | g :: groups, k + 1 => g.arity + offset groups k

/-- The group at index `k` stands for the parameter or result at position `i`. -/
def Covers (groups : List FieldGroup) (k i : Nat) : Prop :=
  offset groups k ≤ i ∧ i < offset groups (k + 1)

instance : Decidable (Covers groups k i) :=
  inferInstanceAs (Decidable (_ ∧ _))

/-- One entry for each name, and one for a group without names. -/
def slots (g : FieldGroup) : List (Option String) :=
  if g.isUnnamed then [none] else g.names.map some

/-- Each entry as often as its group has parameters or results. -/
def spread (groups : List FieldGroup) (xs : List α) : List α :=
  (List.zipWith (fun g x => List.replicate g.arity x) groups xs).flatten

theorem length_slots (g : FieldGroup) : g.slots.length = g.arity := by
  rw [slots, isUnnamed, arity]
  cases g.names <;> simp

theorem getElem?_slots (h : i < g.arity) : g.slots[i]? = some g.names[i]? := by
  obtain ⟨names, type, span⟩ := g
  cases names with
  | nil =>
      obtain rfl : i = 0 := by simpa [arity] using h
      rfl
  | cons name names =>
      have hi : i < (name :: names).length := by simpa [arity] using h
      change ((name :: names).map some)[i]? = some (name :: names)[i]?
      rw [List.getElem?_map, List.getElem?_eq_getElem hi, Option.map_some]

theorem offset_zero : offset groups 0 = 0 := by
  cases groups <;> rfl

theorem covers_cons_zero : Covers (g :: groups) 0 i ↔ i < g.arity := by
  simp [Covers, offset, offset_zero]

theorem covers_cons_succ :
    Covers (g :: groups) (k + 1) i ↔ g.arity ≤ i ∧ Covers groups k (i - g.arity) := by
  simp only [Covers, offset]
  omega

theorem not_covers_nil : ¬ Covers [] k i := by
  simp [Covers, offset]

/-- Every position up to the number of parameters or results is that of one group. -/
theorem exists_covers_iff (groups : List FieldGroup) (i : Nat) :
    (∃ k, Covers groups k i) ↔ i < (groups.flatMap slots).length := by
  induction groups generalizing i with
  | nil => simp [not_covers_nil]
  | cons g groups ih =>
      rw [List.flatMap_cons, List.length_append, length_slots]
      constructor
      · rintro ⟨_ | k, hk⟩
        · have := covers_cons_zero.mp hk
          omega
        · obtain ⟨_, hk⟩ := covers_cons_succ.mp hk
          have := (ih _).mp ⟨k, hk⟩
          omega
      · intro hi
        rcases Nat.lt_or_ge i g.arity with hlt | hge
        · exact ⟨0, covers_cons_zero.mpr hlt⟩
        · obtain ⟨k, hk⟩ := (ih (i - g.arity)).mpr (by omega)
          exact ⟨k + 1, covers_cons_succ.mpr ⟨hge, hk⟩⟩

/-- In a list of blocks, one for each group and as long as the group counts, a position is found in
the block of its group. -/
theorem Covers.getElem?_flatten {blocks : List (List α)}
    (hblocks : blocks.map List.length = groups.map arity) (h : Covers groups k i) :
    blocks.flatten[i]? = blocks[k]?.bind (·[i - offset groups k]?) := by
  induction groups generalizing blocks k i with
  | nil => exact absurd h not_covers_nil
  | cons g groups ih =>
      obtain ⟨block, blocks, rfl⟩ : ∃ block blocks', blocks = block :: blocks' := by
        cases blocks with
        | nil => cases hblocks
        | cons block blocks => exact ⟨block, blocks, rfl⟩
      obtain ⟨hblock, hblocks⟩ := List.cons.inj hblocks
      rw [List.flatten_cons]
      cases k with
      | zero =>
          have hi := covers_cons_zero.mp h
          rw [List.getElem?_append_left (by omega)]
          simp [offset]
      | succ k =>
          obtain ⟨hi, h⟩ := covers_cons_succ.mp h
          rw [List.getElem?_append_right (by omega), hblock, ih hblocks h, offset,
            List.getElem?_cons_succ, Nat.sub_sub]

theorem Covers.exists_group (h : Covers groups k i) :
    ∃ g, groups[k]? = some g ∧ i - offset groups k < g.arity := by
  induction groups generalizing k i with
  | nil => exact absurd h not_covers_nil
  | cons g groups ih =>
      cases k with
      | zero => exact ⟨g, rfl, by have := covers_cons_zero.mp h; omega⟩
      | succ k =>
          obtain ⟨hi, h⟩ := covers_cons_succ.mp h
          obtain ⟨g', hg', hlt⟩ := ih h
          exact ⟨g', hg', by rw [offset]; omega⟩

section Spread

variable {xs : List α} (hxs : xs.length = groups.length)

include hxs

theorem map_length_blocks :
    (List.zipWith (fun g x => List.replicate g.arity x) groups xs).map List.length =
      groups.map arity := by
  rw [List.map_zipWith]
  simp only [List.length_replicate]
  rw [← List.map_uncurry_zip_eq_zipWith]
  change (groups.zip xs).map (arity ∘ Prod.fst) = _
  rw [← List.map_map, List.map_fst_zip hxs.ge]

theorem length_spread : (spread groups xs).length = (groups.flatMap slots).length := by
  rw [spread, List.length_flatten, map_length_blocks hxs, List.length_flatMap]
  simp only [length_slots]

theorem Covers.getElem?_spread (h : Covers groups k i) : (spread groups xs)[i]? = xs[k]? := by
  obtain ⟨g, hg, hi⟩ := h.exists_group
  rw [spread, h.getElem?_flatten (map_length_blocks hxs), List.getElem?_zipWith, hg]
  cases xs[k]? with
  | none => rfl
  | some x => simp [hi]

end Spread

theorem Covers.getElem?_slots (h : Covers groups k i) :
    (groups.flatMap slots)[i]? = groups[k]?.map (·.names[i - offset groups k]?) := by
  obtain ⟨g, hg, hi⟩ := h.exists_group
  have hblocks : (groups.map slots).map List.length = groups.map arity := by
    rw [List.map_map]
    exact List.map_congr_left fun g _ => length_slots g
  rw [List.flatMap_def, h.getElem?_flatten hblocks, List.getElem?_map, hg]
  exact FieldGroup.getElem?_slots hi

end FieldGroup

open FieldGroup

variable {p : Program} {home : String} {g : FieldGroup} {groups : List FieldGroup}
  {s s₁ s₂ s' : Session} {d : FuncDecl}

section Told

/-- What comes of the types of the groups when they are told one after the other. -/
inductive Told (p : Program) (home : String) :
    List FieldGroup → Session → List (Except InferError Ty) → Session → Prop
  | nil {s : Session} : Told p home [] s [] s
  | cons {g groups s r s₁ rs s₂} : Ends (p.typeOf · g.type home) s r s₁ →
      Told p home groups s₁ rs s₂ → Told p home (g :: groups) s (r :: rs) s₂

/-- A group cannot be told, while all groups before it can. -/
def Stops (p : Program) (home : String) (groups : List FieldGroup) (s : Session) (e : InferError)
    (s' : Session) : Prop :=
  ∃ before g after, ∃ (ts : List Ty) (s₁ : Session), groups = before ++ g :: after ∧
    Told p home before s (ts.map .ok) s₁ ∧ Ends (p.typeOf · g.type home) s₁ (.error e) s'

/-- The type, or a stub where it cannot be told. -/
def Ty.orStub : Except InferError Ty → Ty
  | .ok t => t
  | .error _ => .stub

theorem Told.length_eq {rs : List (Except InferError Ty)} (h : Told p home groups s rs s') :
    rs.length = groups.length := by
  induction h with
  | nil => rfl
  | cons _ _ ih => rw [List.length_cons, List.length_cons, ih]

theorem told_nil_iff {rs : List (Except InferError Ty)} :
    Told p home [] s rs s' ↔ rs = [] ∧ s' = s := by
  constructor
  · rintro ⟨⟩
    exact ⟨rfl, rfl⟩
  · rintro ⟨rfl, rfl⟩
    exact .nil

theorem told_cons_iff {rs : List (Except InferError Ty)} :
    Told p home (g :: groups) s rs s' ↔ ∃ r rest s₁, rs = r :: rest ∧
      Ends (p.typeOf · g.type home) s r s₁ ∧ Told p home groups s₁ rest s' := by
  constructor
  · rintro ⟨⟩
    exact ⟨_, _, _, rfl, ‹_›, ‹_›⟩
  · rintro ⟨r, rest, s₁, rfl, hr, hrest⟩
    exact .cons hr hrest

theorem stops_cons_iff {e : InferError} :
    Stops p home (g :: groups) s e s' ↔ Ends (p.typeOf · g.type home) s (.error e) s' ∨
      ∃ t s₁, Ends (p.typeOf · g.type home) s (.ok t) s₁ ∧ Stops p home groups s₁ e s' := by
  constructor
  · rintro ⟨before, g', after, ts, s₁, heq, htold, hfail⟩
    -- The group that cannot be told is the first one, or one of those after it.
    cases before with
    | nil =>
        obtain ⟨rfl, -⟩ := List.cons.inj heq
        obtain ⟨-, rfl⟩ := told_nil_iff.mp htold
        exact .inl hfail
    | cons _ before =>
        obtain ⟨rfl, rfl⟩ := List.cons.inj heq
        obtain ⟨r, rest, s₀, hts, hr, hrest⟩ := told_cons_iff.mp htold
        obtain ⟨t, ts', rfl, rfl, rfl⟩ := List.map_eq_cons_iff.mp hts
        exact .inr ⟨t, s₀, hr, before, g', after, ts', s₁, rfl, hrest, hfail⟩
  · rintro (hfail | ⟨t, s₀, ht, before, g', after, ts, s₁, rfl, htold, hfail⟩)
    · exact ⟨[], g, groups, [], s, rfl, .nil, hfail⟩
    · exact ⟨g :: before, g', after, t :: ts, s₁, rfl, .cons ht htold, hfail⟩

theorem flatten_monotone {typeOf : Nat → FieldGroup → InferM Ty} (h : ∀ g, Monotone (typeOf · g))
    (groups : List FieldGroup) : Monotone fun depth => flatten (typeOf depth) groups := by
  induction groups with
  | nil => exact monotone_const
  | cons g groups ih =>
      intro depth depth' hle
      exact bind_le_bind (h g hle) fun t => bind_le_bind (ih hle) fun _ => le_rfl

theorem flatten_cons_iff {typeOf : Nat → FieldGroup → InferM Ty} (h : ∀ g, Monotone (typeOf · g))
    {r : Except InferError (List Ty)} :
    Ends (fun depth => flatten (typeOf depth) (g :: groups)) s r s' ↔
      (∃ t s₁ q, Ends (typeOf · g) s (.ok t) s₁ ∧
        Ends (fun depth => flatten (typeOf depth) groups) s₁ q s' ∧
          r = q.map (List.replicate g.arity t ++ ·)) ∨
      ∃ e, Ends (typeOf · g) s (.error e) s' ∧ r = .error e := by
  refine (Ends.bind_iff (h g) fun t => ?_).trans (or_congr_left ?_)
  · exact fun _ _ hle => bind_le_bind (flatten_monotone h groups hle) fun _ => le_rfl
  · simp only [← map_eq_pure_bind, ends_map_iff]
    constructor
    · rintro ⟨t, s₁, ht, q, hq, rfl⟩
      exact ⟨t, s₁, q, ht, hq, rfl⟩
    · rintro ⟨t, s₁, q, ht, hq, rfl⟩
      exact ⟨t, s₁, ht, q, hq, rfl⟩

theorem paramType_eq (ask : Ask) :
    paramType ask home g = attempt (ask (.expr g.type) home) >>= fun q => pure (Ty.orStub q) := by
  refine bind_congr fun q => ?_
  cases q <;> rfl

theorem paramType_monotone (g : FieldGroup) :
    Monotone fun depth => paramType (infer p depth) home g := by
  intro depth depth' hle
  simp only [paramType_eq]
  exact bind_le_bind (attempt_le_attempt (infer_monotone _ _ hle)) fun _ => le_rfl

theorem resultType_monotone (g : FieldGroup) :
    Monotone fun depth => resultType (infer p depth) home g :=
  infer_monotone (.expr g.type) home

theorem ends_paramType_iff {r : Except InferError Ty} :
    Ends (fun depth => paramType (infer p depth) home g) s r s' ↔
      ∃ q, Ends (p.typeOf · g.type home) s q s' ∧ r = .ok (Ty.orStub q) := by
  simp only [paramType_eq, ← map_eq_pure_bind, ends_map_iff, Ends.attempt_iff]
  constructor
  · rintro ⟨_, ⟨q, hq, rfl⟩, rfl⟩
    exact ⟨q, hq, rfl⟩
  · rintro ⟨q, hq, rfl⟩
    exact ⟨_, ⟨q, hq, rfl⟩, rfl⟩

/-- Parameters are told whatever comes of their groups. -/
theorem ends_params_iff {r : Except InferError (List Ty)} :
    Ends (fun depth => flatten (paramType (infer p depth) home) groups) s r s' ↔
      ∃ outs, Told p home groups s outs s' ∧ r = .ok (spread groups (outs.map Ty.orStub)) := by
  induction groups generalizing s r with
  | nil =>
      simp only [told_nil_iff]
      refine Ends.pure_iff.trans ⟨?_, ?_⟩
      · rintro ⟨rfl, rfl⟩
        exact ⟨[], ⟨rfl, rfl⟩, rfl⟩
      · rintro ⟨_, ⟨rfl, rfl⟩, rfl⟩
        exact ⟨rfl, rfl⟩
  | cons g groups ih =>
      rw [flatten_cons_iff paramType_monotone]
      simp only [told_cons_iff, ends_paramType_iff, ih]
      constructor
      · rintro (⟨_, s₁, _, ⟨q, hq, heq⟩, ⟨outs, houts, rfl⟩, rfl⟩ | ⟨_, ⟨_, _, heq⟩, _⟩)
        · cases heq
          exact ⟨_, ⟨q, outs, s₁, rfl, hq, houts⟩, rfl⟩
        · cases heq
      · rintro ⟨_, ⟨q, outs, s₁, rfl, hq, houts⟩, rfl⟩
        exact .inl ⟨_, s₁, _, ⟨q, hq, rfl⟩, ⟨outs, houts, rfl⟩, rfl⟩

/-- Results are told if all groups are. -/
theorem ends_results_ok_iff {xs : List Ty} :
    Ends (fun depth => flatten (resultType (infer p depth) home) groups) s (.ok xs) s' ↔
      ∃ ts : List Ty, Told p home groups s (ts.map .ok) s' ∧ xs = spread groups ts := by
  induction groups generalizing s xs with
  | nil =>
      simp only [told_nil_iff, List.map_eq_nil_iff]
      refine Ends.pure_iff.trans ⟨?_, ?_⟩
      · rintro ⟨heq, rfl⟩
        cases heq
        exact ⟨[], ⟨rfl, rfl⟩, rfl⟩
      · rintro ⟨_, ⟨rfl, rfl⟩, rfl⟩
        exact ⟨rfl, rfl⟩
  | cons g groups ih =>
      rw [flatten_cons_iff resultType_monotone]
      constructor
      · rintro (⟨t, s₁, _ | rest, ht, hrest, heq⟩ | ⟨_, _, heq⟩)
        · cases heq
        · obtain ⟨ts, hts, rfl⟩ := ih.mp hrest
          cases heq
          exact ⟨t :: ts, .cons ht hts, rfl⟩
        · cases heq
      · rintro ⟨ts, hts, rfl⟩
        obtain ⟨_, _, s₁, hmap, ht, hrest⟩ := told_cons_iff.mp hts
        obtain ⟨t, ts, rfl, rfl, rfl⟩ := List.map_eq_cons_iff.mp hmap
        exact .inl ⟨t, s₁, _, ht, ih.mpr ⟨ts, hrest, rfl⟩, rfl⟩

theorem ends_results_error_iff {e : InferError} :
    Ends (fun depth => flatten (resultType (infer p depth) home) groups) s (.error e) s' ↔
      Stops p home groups s e s' := by
  induction groups generalizing s with
  | nil =>
      refine Ends.pure_iff.trans ⟨?_, ?_⟩
      · rintro ⟨heq, _⟩
        cases heq
      · rintro ⟨before, _, _, _, _, heq, _⟩
        cases before <;> cases heq
  | cons g groups ih =>
      rw [flatten_cons_iff resultType_monotone, stops_cons_iff, or_comm]
      refine or_congr ⟨?_, fun h => ⟨e, h, rfl⟩⟩ ⟨?_, ?_⟩
      · rintro ⟨_, h, heq⟩
        cases heq
        exact h
      · rintro ⟨t, s₁, e' | _, ht, hrest, heq⟩
        · cases heq
          exact ⟨t, s₁, ht, ih.mp hrest⟩
        · cases heq
      · rintro ⟨t, s₁, ht, hrest⟩
        exact ⟨t, s₁, _, ht, ih.mpr hrest, rfl⟩

end Told

section Signatures

/-- A signature is told if its results are, whatever comes of its parameters. -/
theorem ends_signature_iff {name : String} {receiver : Option String}
    {params results : List FieldGroup} {r : Except InferError Signature} :
    Ends (fun depth => signature (infer p depth) name home receiver params results) s r s' ↔
      ∃ outs s₁ q, Told p home params s outs s₁ ∧
        Ends (fun depth => flatten (resultType (infer p depth) home) results) s₁ q s' ∧
        r = q.map (⟨name, home, receiver, spread params (outs.map Ty.orStub), ·⟩) := by
  refine (Ends.bind_iff (flatten_monotone paramType_monotone params) fun args => ?_).trans ?_
  · exact fun _ _ hle => bind_le_bind (flatten_monotone resultType_monotone results hle)
      fun _ => le_rfl
  simp only [← map_eq_pure_bind, ends_map_iff, ends_params_iff]
  constructor
  · rintro (⟨_, s₁, ⟨outs, houts, heq⟩, q, hq, rfl⟩ | ⟨_, ⟨_, _, heq⟩, _⟩)
    · cases heq
      exact ⟨outs, s₁, q, houts, hq, rfl⟩
    · cases heq
  · rintro ⟨outs, s₁, q, houts, hq, rfl⟩
    exact .inl ⟨_, s₁, ⟨outs, houts, rfl⟩, q, hq, rfl⟩

section FirstAsked

variable {sc : Scope} {receiver : Option String} (hreceiver : d.receiverType? = some receiver)
  (henter : s.enter p home = (.ok sc, s₁)) (hnew : sc.signatures.find? d.key = none)

include hreceiver henter hnew

/-- The signature of a declared function is worked out if nothing is kept under its name. -/
theorem declaredSignature_of_new (ask : Ask) :
    declaredSignature p ask d home s =
      (signature ask d.key home receiver d.params d.results s₁).map fun outcome =>
        (outcome.1, outcome.2.closed home .func d.key (outcome.1.map .func)) := by
  have hkey := (d.key_of_receiver hreceiver).symm
  simp only [declaredSignature, hreceiver, hkey]
  rw [scope_bind_ok henter, hnew]
  simp only [bind_apply]
  rcases signature ask d.key home receiver d.params d.results s₁ with _ | ⟨_ | _, _⟩ <;> rfl

theorem ends_declaredSignature_iff {r : Except InferError Signature} :
    Ends (p.declaredSignature · d home) s r s' ↔ ∃ s₂,
      Ends (fun depth => signature (infer p depth) d.key home receiver d.params d.results) s₁ r s₂ ∧
        s' = s₂.closed home .func d.key (r.map .func) := by
  refine (Ends.outcome_iff fun depth =>
    declaredSignature_of_new hreceiver henter hnew (infer p depth)).trans ⟨?_, ?_⟩
  · rintro ⟨q, s₂, hq, heq⟩
    cases heq
    exact ⟨s₂, hq, rfl⟩
  · rintro ⟨s₂, hr, rfl⟩
    exact ⟨r, s₂, hr, rfl⟩

theorem ends_declaredSignature_ok_iff {sig : Signature} :
    Ends (p.declaredSignature · d home) s (.ok sig) s' ↔ ∃ outs, ∃ ts : List Ty, ∃ s₂ s₃,
      Told p home d.params s₁ outs s₂ ∧ Told p home d.results s₂ (ts.map .ok) s₃ ∧
        sig = ⟨d.key, home, receiver, spread d.params (outs.map Ty.orStub), spread d.results ts⟩ ∧
        s' = s₃.closed home .func d.key (.ok (.func sig)) := by
  simp only [ends_declaredSignature_iff hreceiver henter hnew, ends_signature_iff]
  constructor
  · rintro ⟨s₃, ⟨outs, s₂, _ | xs, houts, hxs, heq⟩, rfl⟩
    · cases heq
    · obtain ⟨ts, hts, rfl⟩ := ends_results_ok_iff.mp hxs
      cases heq
      exact ⟨outs, ts, s₂, s₃, houts, hts, rfl, rfl⟩
  · rintro ⟨outs, ts, s₂, s₃, houts, hts, rfl, rfl⟩
    exact ⟨s₃, ⟨outs, s₂, _, houts, ends_results_ok_iff.mpr ⟨ts, hts, rfl⟩, rfl⟩, rfl⟩

theorem ends_declaredSignature_error_iff {e : InferError} :
    Ends (p.declaredSignature · d home) s (.error e) s' ↔ ∃ outs s₂,
      Told p home d.params s₁ outs s₂ ∧ Stops p home d.results s₂ e s' := by
  simp only [ends_declaredSignature_iff hreceiver henter hnew, ends_signature_iff]
  constructor
  · rintro ⟨s₃, ⟨outs, s₂, e' | _, houts, hstops, heq⟩, rfl⟩
    · cases heq
      exact ⟨outs, s₂, houts, ends_results_error_iff.mp hstops⟩
    · cases heq
  · rintro ⟨outs, s₂, houts, hstops⟩
    exact ⟨s', ⟨outs, s₂, _, houts, ends_results_error_iff.mpr hstops, rfl⟩, rfl⟩

end FirstAsked

theorem exists_enter_of_declaredSignature {sig : Signature}
    (h : Ends (p.declaredSignature · d home) s (.ok sig) s') :
    ∃ receiver sc s₁, d.receiverType? = some receiver ∧ s.enter p home = (.ok sc, s₁) := by
  obtain ⟨depth, h⟩ := h
  simp only [Program.declaredSignature, declaredSignature] at h
  cases hreceiver : d.receiverType? with
  | none =>
      rw [hreceiver] at h
      cases h
  | some receiver =>
      rw [hreceiver] at h
      rcases scope_bind_cases h with ⟨_, _, heq⟩ | ⟨sc, s₁, henter, _⟩
      · cases heq
      · exact ⟨receiver, sc, s₁, rfl, henter⟩

/-- A module that is entered for the first time keeps no signatures yet. -/
theorem Session.find?_signatures_of_enter {sc : Scope} {key : String}
    (hnew : ∀ sc, s.scopes.find? home = some sc → sc.signatures.find? key = none)
    (henter : s.enter p home = (.ok sc, s₁)) : sc.signatures.find? key = none := by
  rcases Session.enter_cases p s home with hsame | ⟨_, m, _, ⟨_, hsc, h⟩ | ⟨_, _, h⟩⟩
  · rw [henter] at hsame
    cases hsame
    exact hnew sc (Session.entered_of_enter henter).scope
  · cases henter.symm.trans h
    rw [(Scope.ofModule_eq_ok hsc).2.2.2.1, Table.find?_empty]
  · cases henter.symm.trans h

/-- A signature by what comes of the groups of its function: the group that covers a position has
the name of the parameter there, and its type is the one listed. -/
structure Signature.Follows (sig : Signature) (d : FuncDecl) (home : String)
    (outs : List (Except InferError Ty)) (ts : List Ty) : Prop where
  name : sig.name = d.key
  owner : sig.owner = home
  receiver : d.receiverType? = some sig.receiver
  args_length : sig.args.length = d.parameters.length
  results_length : sig.results.length = (d.results.flatMap slots).length
  args_covered : ∀ j, (∃ k, Covers d.params k j) ↔ j < sig.args.length
  results_covered : ∀ i, (∃ k, Covers d.results k i) ↔ i < sig.results.length
  parameter : ∀ {k j}, Covers d.params k j →
    d.parameters[j]? = d.params[k]?.map (·.names[j - offset d.params k]?)
  arg : ∀ {k j}, Covers d.params k j → sig.args[j]? = outs[k]?.map Ty.orStub
  result : ∀ {k i}, Covers d.results k i → sig.results[i]? = ts[k]?

theorem follows_spread {receiver : Option String} {outs : List (Except InferError Ty)}
    {ts : List Ty} (hreceiver : d.receiverType? = some receiver)
    (houts : outs.length = d.params.length) (hts : ts.length = d.results.length) :
    Signature.Follows ⟨d.key, home, receiver, spread d.params (outs.map Ty.orStub),
      spread d.results ts⟩ d home outs ts := by
  have houts : (outs.map Ty.orStub).length = d.params.length := by rw [List.length_map, houts]
  constructor
  case name => rfl
  case owner => rfl
  case receiver => exact hreceiver
  case args_length => exact length_spread houts
  case results_length => exact length_spread hts
  case args_covered =>
    intro j
    rw [length_spread houts, exists_covers_iff]
  case results_covered =>
    intro i
    rw [length_spread hts, exists_covers_iff]
  case parameter => exact fun h => h.getElem?_slots
  case arg =>
    intro k j h
    rw [h.getElem?_spread houts, List.getElem?_map]
  case result => exact fun h => h.getElem?_spread hts

end Signatures

section Calls

/-- A call of a function by an identifier bound to it. -/
def Expr.Calls (e : Expr) (d : FuncDecl) : Prop :=
  ∃ fn args name, e.node = .call fn args ∧ fn.node = .ident name (some (.func d))

/-- A call of a function is all that an assignment assigns, and an identifier is the target at a
position, but at none before it. -/
structure Assignment.Takes (stmt : Assignment) (name : String) (i : Nat) (d : FuncDecl) :
    Prop where
  call : ∃ value, stmt.values = [value] ∧ value.Calls d
  target : stmt.targets[i]?.bind Expr.identName? = some name
  first : ∀ j < i, stmt.targets[j]?.bind Expr.identName? ≠ some name

theorem Assignment.Takes.targetPosition?_eq {stmt : Assignment} {name : String} {i : Nat}
    (h : stmt.Takes name i d) : targetPosition? stmt name = some i := by
  obtain ⟨target, htarget, hname⟩ := Option.bind_eq_some_iff.mp h.target
  obtain ⟨hi, rfl⟩ := List.getElem?_eq_some_iff.mp htarget
  refine List.findIdx?_eq_some_iff_getElem.mpr ⟨hi, decide_eq_true hname, fun j hj => ?_⟩
  have hfirst := h.first j hj
  rw [List.getElem?_eq_getElem (hj.trans hi), Option.bind_some] at hfirst
  simpa using hfirst

theorem calledSignature_of_bound {fn : Expr} {name : String}
    (h : fn.node = .ident name (some (.func d))) (args : List Expr) (depth : Nat) :
    calledSignature (infer p (depth + 1)) fn args home = p.declaredSignature depth d home := by
  have hbound : predeclaredCallee? fn = none := by rw [predeclaredCallee?, h]
  have hfn : infer p (depth + 1) (.expr fn) home =
      .func <$> p.declaredSignature depth d home := by
    rw [infer, exprType, h, map_eq_pure_bind]
    rfl
  rw [calledSignature, hbound]
  dsimp only
  rw [hfn, bind_map_left]
  exact bind_pure _

section Results

variable {e : Expr} {i depth : Nat}

theorem typeOf_call (h : e.Calls d) :
    p.typeOf (depth + 2) e home =
      p.declaredSignature depth d home >>= fun sig => ofExcept (resultAt sig 0) := by
  obtain ⟨fn, args, name, hcall, hfn⟩ := h
  rw [Program.typeOf, infer, exprType, hcall]
  dsimp only
  rw [calledSignature_of_bound hfn]

theorem typeOf_target {name : String} {stmt : Assignment}
    (he : e.node = .ident name (some (.assign stmt))) (h : stmt.Takes name i d) :
    p.typeOf (depth + 2) e home =
      p.declaredSignature depth d home >>= fun sig => ofExcept (resultAt sig i) := by
  obtain ⟨value, hvalues, fn, args, _, hcall, hfn⟩ := h.call
  rw [Program.typeOf, infer, exprType, he]
  simp only [boundType, h.targetPosition?_eq, assignedType, hvalues, hcall]
  rw [calledSignature_of_bound hfn]

/-- An expression that stands for a result of a function has the type that the signature lists. -/
theorem ends_result_iff (h : ∀ depth, p.typeOf (depth + 2) e home =
      p.declaredSignature depth d home >>= fun sig => ofExcept (resultAt sig i))
    {sig : Signature} (hsig : Ends (p.declaredSignature · d home) s (.ok sig) s')
    (r : Except InferError Ty) (s₁ : Session) :
    Ends (p.typeOf · e home) s r s₁ ↔
      r = sig.results[i]?.elim (.error (.missingResult sig.name i)) .ok ∧ s₁ = s' := by
  have hresult : sig.results[i]?.elim (.error (.missingResult sig.name i)) .ok =
      resultAt sig i := by
    rw [resultAt]
    cases sig.results[i]? <;> rfl
  -- The expression is one level above the identifier that it calls, and that above the signature.
  have hend : Ends (p.typeOf · e home) s (resultAt sig i) s' := by
    obtain ⟨depth, hsig⟩ := hsig
    refine ⟨depth + 2, ?_⟩
    dsimp only
    rw [h]
    exact bind_eq_some.mpr (.inl ⟨sig, s', hsig, rfl⟩)
  rw [hresult]
  exact hend.iff_of_ends (p.typeOf_monotone e home) r s₁

end Results

/-- The signature of a function that is not known yet lists the types of its groups by the positions
that they cover. It is told if all results are, whatever comes of the parameters, and fails as the
first result that is not told. An identifier that takes a result of the function at a position has
the type listed there, and a call has the first one. -/
theorem declaredSignature_positions
    (hnew : ∀ sc, s.scopes.find? home = some sc → sc.signatures.find? d.key = none) :
    (∀ sig s', Ends (p.declaredSignature · d home) s (.ok sig) s' →
      (∃ outs ts s₁ s₂, Told p home d.params (s.enter p home).2 outs s₁ ∧
        Told p home d.results s₁ (ts.map .ok) s₂ ∧ sig.Follows d home outs ts) ∧
      (∀ e, e.Calls d → ∀ r s₁, Ends (p.typeOf · e home) s r s₁ ↔
        r = sig.results[0]?.elim (.error (.missingResult d.key 0)) .ok ∧ s₁ = s') ∧
      ∀ e name stmt i, e.node = .ident name (some (.assign stmt)) → stmt.Takes name i d →
        ∀ r s₁, Ends (p.typeOf · e home) s r s₁ ↔
          r = sig.results[i]?.elim (.error (.missingResult d.key i)) .ok ∧ s₁ = s') ∧
    (d.receiverType?.isSome = true → (s.enter p home).1.isOk = true →
      ((∃ sig s', Ends (p.declaredSignature · d home) s (.ok sig) s') ↔
        ∃ outs, ∃ ts : List Ty, ∃ s₁ s₂, Told p home d.params (s.enter p home).2 outs s₁ ∧
          Told p home d.results s₁ (ts.map .ok) s₂) ∧
      ∀ e s', Ends (p.declaredSignature · d home) s (.error e) s' ↔
        ∃ outs s₁, Told p home d.params (s.enter p home).2 outs s₁ ∧
          Stops p home d.results s₁ e s') := by
  constructor
  · intro sig s' h
    obtain ⟨receiver, sc, s₀, hreceiver, henter⟩ := exists_enter_of_declaredSignature h
    have hnone := Session.find?_signatures_of_enter hnew henter
    obtain ⟨outs, ts, s₁, s₂, houts, hts, hsig, -⟩ :=
      (ends_declaredSignature_ok_iff hreceiver henter hnone).mp h
    have hlength : ts.length = d.results.length := by rw [← hts.length_eq, List.length_map]
    have hfollows : sig.Follows d home outs ts := by
      rw [hsig]
      exact follows_spread hreceiver houts.length_eq hlength
    rw [henter, ← hfollows.name]
    exact ⟨⟨outs, ts, s₁, s₂, houts, hts, hfollows⟩,
      fun e he => ends_result_iff (fun _ => typeOf_call he) h,
      fun e name stmt i he htakes => ends_result_iff (fun _ => typeOf_target he htakes) h⟩
  · intro hreceiver hok
    obtain ⟨receiver, hreceiver⟩ := Option.isSome_iff_exists.mp hreceiver
    rcases henter : s.enter p home with ⟨_ | sc, s₀⟩
    · rw [henter] at hok
      cases hok
    have hnone := Session.find?_signatures_of_enter hnew henter
    refine ⟨?_, fun e s' => ends_declaredSignature_error_iff hreceiver henter hnone⟩
    simp only [ends_declaredSignature_ok_iff hreceiver henter hnone]
    constructor
    · rintro ⟨_, _, outs, ts, s₁, s₂, houts, hts, -, -⟩
      exact ⟨outs, ts, s₁, s₂, houts, hts⟩
    · rintro ⟨outs, ts, s₁, s₂, houts, hts⟩
      exact ⟨_, _, outs, ts, s₁, s₂, houts, hts, rfl, rfl⟩

/-- `func Split(a, b int, c lib.T) (lo, hi int, err error)`, without a module for `lib` -/
def splitDecl : FuncDecl :=
  ⟨"Split", none, [⟨["a", "b"], ⟨.zero, .ident "int" none⟩, .zero⟩,
      ⟨["c"], ⟨.zero, .selector ⟨.zero, .ident "lib" none⟩ "T"⟩, .zero⟩],
    [⟨["lo", "hi"], ⟨.zero, .ident "int" none⟩, .zero⟩,
      ⟨["err"], ⟨.zero, .ident "error" none⟩, .zero⟩], [], .zero⟩

def splits : Program :=
  (Program.empty []).add ⟨"m", "m", [], [splitDecl], [], [], ∅⟩

/-- `Split()` -/
def splitCall : Expr :=
  ⟨.zero, .call ⟨.zero, .ident "Split" (some (.func splitDecl))⟩ []⟩

/-- `lo, hi, err, rest := Split()` -/
def splitStmt : Assignment :=
  ⟨["lo", "hi", "err", "rest"].map fun name => ⟨.zero, .ident name none⟩, [splitCall], true, .zero⟩

theorem splits_positions : ∃ sig s',
    Ends (splits.declaredSignature · splitDecl "m") .new (.ok sig) s' ∧
    sig.args = [.predeclared "int", .predeclared "int", .stub] ∧
    Covers splitDecl.results 0 1 ∧ sig.results[1]? = some (.predeclared "int") ∧
    (∃ outs ts, sig.Follows splitDecl "m" outs ts) ∧
    (∃ outs s₁, Told splits "m" splitDecl.params (Session.new.enter splits "m").2 outs s₁) ∧
    Ends (splits.typeOf · splitCall "m") .new (.ok (.predeclared "int")) s' ∧
    Ends (splits.typeOf · ⟨.zero, .ident "err" (some (.assign splitStmt))⟩ "m") .new
      (.ok (.predeclared "error")) s' ∧
    Ends (splits.typeOf · ⟨.zero, .ident "rest" (some (.assign splitStmt))⟩ "m") .new
      (.error (.missingResult "Split" 3)) s' := by
  obtain ⟨sig, s', h, hargs, hresults⟩ : ∃ sig s',
      splits.declaredSignature 2 splitDecl "m" .new = some (.ok sig, s') ∧
        sig.args = [.predeclared "int", .predeclared "int", .stub] ∧
        sig.results = [.predeclared "int", .predeclared "int", .predeclared "error"] :=
    ⟨_, _, rfl, rfl, rfl⟩
  have hnew : ∀ sc, Session.new.scopes.find? "m" = some sc →
      sc.signatures.find? splitDecl.key = none := fun _ hsc => by cases hsc
  have hcall : splitCall.Calls splitDecl := ⟨_, _, _, rfl, rfl⟩
  have herr : splitStmt.Takes "err" 2 splitDecl := ⟨⟨_, rfl, hcall⟩, rfl, by decide⟩
  have hrest : splitStmt.Takes "rest" 3 splitDecl := ⟨⟨_, rfl, hcall⟩, rfl, by decide⟩
  obtain ⟨htold, hends⟩ := declaredSignature_positions (p := splits) hnew
  obtain ⟨⟨outs, ts, _, _, -, -, hfollows⟩, hfirst, htarget⟩ := htold sig s' ⟨2, h⟩
  obtain ⟨outs', _, s₁, _, houts, -⟩ := (hends rfl rfl).1.mp ⟨sig, s', 2, h⟩
  refine ⟨sig, s', ⟨2, h⟩, hargs, by decide, by rw [hresults]; rfl, ⟨outs, ts, hfollows⟩,
    ⟨outs', s₁, houts⟩, ?_, ?_, ?_⟩
  · exact (hfirst splitCall hcall _ _).mpr ⟨by rw [hresults]; rfl, rfl⟩
  · exact (htarget _ "err" splitStmt 2 rfl herr _ _).mpr ⟨by rw [hresults]; rfl, rfl⟩
  · exact (htarget _ "rest" splitStmt 3 rfl hrest _ _).mpr ⟨by rw [hresults]; rfl, rfl⟩

end Calls

end ResourceLint
