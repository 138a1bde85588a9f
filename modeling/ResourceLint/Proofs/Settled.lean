import ResourceLint.Proofs.Run

/-!
# Nothing is left half done

While the type of a name is worked out, the name is taken for a simple type. Between inferences
there are no such types left: whatever a session remembers under a name is what the name stands
for. The names being worked out are the `pending` ones, and a change leaves no others behind than
those that were pending before it.
-/

namespace ResourceLint

open Inference InferM

/-- Everything remembered under a name is what the name stands for, unless it is a pending type. -/
def Scope.Settled (pending : String → Prop) (id : String) (sc : Scope) : Prop :=
  ∀ {kind name t}, sc.entry kind name = some t →
    t.Defines name id kind ∨ kind = .struct ∧ pending name

/-- All scopes are settled, apart from the names pending in each module. -/
def Session.Settled (pending : String → String → Prop) (s : Session) : Prop :=
  ∀ id sc, s.scopes.find? id = some sc → sc.Settled (pending id) id

/-- The name of a type is pending too while the type is worked out. -/
def alsoPending (pending : String → String → Prop) (home : String) (kind : InPlaceKind)
    (name : String) : String → String → Prop :=
  fun id n => pending id n ∨ kind = .struct ∧ id = home ∧ n = name

variable {p : Program} {known : String → Memo → Prop} {s s' s₀ : Session} {home name : String}
  {kind : InPlaceKind} {pending pending' : String → String → Prop}

namespace Session.Settled

theorem new : Session.new.Settled pending := by
  intro id sc h
  cases h

theorem enter (h : s.Settled pending) (p : Program) (id : String) :
    (s.enter p id).2.Settled pending := by
  rcases enter_cases p s id with heq | ⟨_, m, _, ⟨sc, hsc, heq⟩ | ⟨e, _, heq⟩⟩
  · rwa [heq]
  · rw [heq]
    intro id' sc' hsc'
    rw [Table.find?_insert] at hsc'
    split at hsc'
    · cases hsc'
      intro kind name t ht
      rw [sc.entry_ofModule hsc] at ht
      cases ht
    · exact h id' sc' hsc'
  · rw [heq]
    exact h

theorem opening {slot : Slot} (h : s.Settled pending) (hopen : Opening home s slot name s₀) :
    s₀.Settled pending := by
  cases hopen with
  | known => exact h
  | drawn =>
      intro id sc hsc
      rw [find?_nameInPlace] at hsc
      split at hsc
      · next hid =>
          obtain ⟨sc₀, hsc₀, rfl⟩ := Option.map_eq_some_iff.mp hsc
          exact hid ▸ h home sc₀ hsc₀
      · exact h id sc hsc

theorem sameBut (h : s.Settled pending) (hsame : s.SameBut home kind name s')
    (hpending : ∀ id n, pending id n → pending' id n ∨ kind = .struct ∧ id = home ∧ n = name)
    (hentry : ∀ sc t, s'.scopes.find? home = some sc → sc.entry kind name = some t →
      t.Defines name home kind ∨ kind = .struct ∧ pending' home name) :
    s'.Settled pending' := by
  intro id sc' hsc' kind' name' t ht
  by_cases hself : id = home ∧ kind' = kind ∧ name' = name
  · obtain ⟨rfl, rfl, rfl⟩ := hself
    exact hentry sc' t hsc' ht
  · obtain ⟨sc, hsc, ht'⟩ : ∃ sc, s.scopes.find? id = some sc ∧ sc.entry kind' name' = some t := by
      rcases hsame.scope_before hsc' with ⟨_, hsc⟩ | ⟨rfl, sc, hsc, hsc'⟩
      · exact ⟨sc', hsc, ht⟩
      · exact ⟨sc, hsc, hsc'.entry (fun heq => hself ⟨rfl, heq⟩) ▸ ht⟩
    rcases h id sc hsc ht' with hdefines | ⟨rfl, hname'⟩
    · exact .inl hdefines
    · rcases hpending id name' hname' with hname' | ⟨rfl, hid, hn⟩
      · exact .inr ⟨rfl, hname'⟩
      · exact absurd ⟨hid, rfl, hn⟩ hself

theorem opened (h : s.Settled pending) :
    (s.opened home kind name).Settled (alsoPending pending home kind name) := by
  refine h.sameBut (.opened ..) (fun _ _ hn => .inl (.inl hn)) fun sc t hsc ht => ?_
  cases kind with
  | struct => exact .inr ⟨rfl, .inr ⟨rfl, rfl, rfl⟩⟩
  | func => exact (h home sc hsc ht).imp_right fun hn => ⟨hn.1, .inl hn.2⟩

theorem closed (h : s.Settled (alsoPending pending home kind name)) {r : Except InferError Ty}
    (hr : ∀ t, r = .ok t → t.Defines name home kind) :
    (s.closed home kind name r).Settled pending := by
  refine h.sameBut (.closed ..) (fun _ _ hn => hn) fun sc u hsc hu => ?_
  cases r with
  | ok t =>
      rw [entry_closed_ok (hr t rfl) hsc, Option.some.injEq] at hu
      exact .inl (hu ▸ hr t rfl)
  | error e =>
      cases kind with
      | struct =>
          rw [entry_closed_error hsc] at hu
          cases hu
      | func =>
          rcases h home sc hsc hu with hdefines | ⟨hstruct, _⟩
          · exact .inl hdefines
          · cases hstruct

end Session.Settled

theorem Change.settled (h : Change p known s s') (hs : s.Settled pending) :
    s'.Settled pending := by
  induction h generalizing pending with
  | refl => exact hs
  | trans _ _ ih ih' => exact ih' (ih hs)
  | enter s id => exact hs.enter p id
  | settle _ _ hopen _ hr ih =>
      exact (ih (hs.opening hopen).opened).closed fun t ht => (hr t ht).defines hopen

/-- A type that cannot be told leaves nothing behind. -/
theorem declaredType_error {depth : Nat} {d : TypeDecl} {e : InferError} (hs : s.Sound p)
    (h : p.declaredType depth d home s = some (.error e, s')) {sc : Scope}
    (hsc : s'.scopes.find? home = some sc) : sc.types.find? d.name = none := by
  cases depth with
  | zero => cases h
  | succ depth =>
      have h : (Memo.type d).infer p (infer p depth) home s = some (.error e, s') := h
      cases Memo.outcome rfl h with
      | unknown henter =>
          rw [hs.find?_of_enter_error henter] at hsc
          cases hsc
      | built henter hopen hbuild =>
          rw [show d.name = _ from hopen.name_eq.symm]
          exact Session.entry_closed_error hsc

/-- Whatever has been asked so far, every type in a session is a struct or a wrapper under its own
name and every signature stands under its own name, in the module that owns them; and a declared
type that cannot be told is not remembered. -/
theorem remembered_is_settled (hrun : Run p (fun _ _ => True) .new s) :
    (∀ id sc, s.scopes.find? id = some sc → sc.id = id ∧
      (∀ name t, sc.types.find? name = some t →
        (∃ fields, t = .struct name sc.id fields) ∨ ∃ wrapped, t = .wrapper name sc.id wrapped) ∧
      ∀ name sig, sc.signatures.find? name = some sig → sig.name = name ∧ sig.owner = sc.id) ∧
    ∀ d home e s', Ends (p.declaredType · d home) s (.error e) s' →
      ∀ sc, s'.scopes.find? home = some sc → sc.types.find? d.name = none := by
  have hchange : Change p (fun _ _ => True) .new s :=
    hrun.change (fun _ _ _ _ _ => trivial) Session.sound_new
  have hs := hchange.sound Session.sound_new
  have hsettled : s.Settled fun _ _ => False := hchange.settled .new
  constructor
  · intro id sc hsc
    obtain ⟨_, rfl⟩ := hs.scope hsc
    have hdefines : ∀ {kind name t}, sc.entry kind name = some t → t.Defines name sc.id kind :=
      fun ht => (hsettled _ sc hsc ht).resolve_right And.right
    refine ⟨rfl, fun name t ht => ?_, fun name sig hsig => ?_⟩
    · have hdefines : t.Defines name sc.id .struct := hdefines ht
      cases t with
      | struct n o fields =>
          obtain ⟨rfl, rfl⟩ := hdefines
          exact .inl ⟨fields, rfl⟩
      | wrapper n o wrapped =>
          obtain ⟨rfl, rfl⟩ := hdefines
          exact .inr ⟨wrapped, rfl⟩
      | _ => exact hdefines.elim
    · have hentry : sc.entry .func name = some (.func sig) := by
        rw [Scope.entry, hsig, Option.map_some]
      exact hdefines hentry
  · rintro d home e s' ⟨depth, h⟩ sc hsc
    exact declaredType_error hs h hsc

/-- `type Ring struct { next *Ring }` -/
def ring : TypeDecl :=
  ⟨"Ring", ⟨.zero, .structType [⟨["next"], ⟨.zero, .star ⟨.zero, .ident "Ring" none⟩⟩, .zero⟩]⟩,
    .zero⟩

/-- `type Knot map[[]Knot]Ring`, which cannot be told. -/
def knot : TypeDecl :=
  ⟨"Knot", ⟨.zero, .mapType ⟨.zero, .arrayType ⟨.zero, .ident "Knot" none⟩⟩
    ⟨.zero, .ident "Ring" none⟩⟩, .zero⟩

def rings : Program :=
  (Program.empty []).add ⟨"m", "m", [], [], [ring, knot], [], ∅⟩

theorem rings_settled :
    ∃ s sc t, Run rings (fun _ _ => True) .new s ∧ s.scopes.find? "m" = some sc ∧
      sc.types.find? "Ring" = some t ∧
      ((∃ fields, t = .struct "Ring" sc.id fields) ∨ ∃ wrapped, t = .wrapper "Ring" sc.id wrapped) ∧
      ∃ e s', Ends (rings.declaredType · knot "m") s (.error e) s' ∧
        ∀ sc, s'.scopes.find? "m" = some sc → sc.types.find? "Knot" = none := by
  have hrun : Run rings (fun _ _ => True) .new _ :=
    .single ⟨.declaredType ring "m", fun _ _ => trivial, _, 4, rfl⟩
  obtain ⟨hscopes, hfails⟩ := remembered_is_settled hrun
  exact ⟨_, _, _, hrun, rfl, rfl, (hscopes "m" _ rfl).2.1 "Ring" _ rfl, _, _, ⟨4, rfl⟩,
    hfails knot "m" _ _ ⟨4, rfl⟩⟩

end ResourceLint
