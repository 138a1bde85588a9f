import ResourceLint.Proofs.Growth
import ResourceLint.Proofs.Holding
import ResourceLint.Proofs.Promotion
import ResourceLint.Proofs.Settled

/-!
# Where entries come from

Whatever a session remembers under a name was made from something that the name belongs to, be it a
declaration of that name or a type written in place for which the name was drawn. Types are
remembered by their bare names, so several declarations may belong to one name: then it is the first
one asked for that counts, and asking for another one gives the type of the first
(`local_types_share_a_name`). If there is no other one, the type of a struct declaration has all the
fields that the declaration declares (`declaredType_describes`).
-/

namespace ResourceLint

open Inference InferM

/-- A name under which something in that slot may stand. -/
def Slot.Admits : Slot → String → Prop
  | .named _ own, name => name = own
  | .inPlace kind _, name => kind.looksDrawn name = true

/-- An entry was made from this, and stands under a name that belongs to it. -/
structure Memo.IsOrigin (memo : Memo) (p : Program) (home : String) (kind : InPlaceKind)
    (name : String) (t : Ty) : Prop where
  named : memo.isNamed = true
  kind : memo.slot.kind = kind
  admits : memo.slot.Admits name
  makes : memo.Makes p home name t

/-- Every entry comes from something known, unless it only stands for its own name while the type of
the name is worked out. -/
def Session.Derived (p : Program) (known : String → Memo → Prop) : Session → Prop :=
  Session.Holds (fun id kind name t => t = .reference name (some id) ∨
    ∃ memo, known id memo ∧ memo.IsOrigin p id kind name t) fun kind name => kind.looksDrawn name

variable {p : Program} {known : String → Memo → Prop} {s s' s₀ : Session} {home name : String}

theorem Session.Derived.admits (hs : s₀.Derived p known) {slot : Slot}
    (hopen : Opening home s slot name s₀) : slot.Admits name := by
  obtain ⟨sc, hsc, hname⟩ := hopen.nameAt
  cases slot with
  | named kind own => exact (Option.some.inj hname).symm
  | inPlace kind span => exact hs.drawn hsc hname

theorem Change.derived (h : Change p known s s') (hs : s.Derived p known) :
    s'.Derived p known := by
  induction h with
  | refl => exact hs
  | trans _ _ ih ih' => exact ih' (ih hs)
  | enter s id => exact hs.enter p id
  | settle hmemo hnamed hopen _ hr ih =>
      have hs₀ : Session.Derived p known _ :=
        Session.Holds.opening hs (fun kind n => kind.looksDrawn_padded n) hopen
      refine (ih (hs₀.opened fun _ => .inl rfl)).closed fun t ht => ?_
      exact ⟨(hr t ht).defines hopen, .inr ⟨_, hmemo, hnamed, rfl, hs₀.admits hopen, hr t ht⟩⟩

/-- Between inferences, every entry comes from something known. -/
theorem Run.origin (hp : p.Within known) (hrun : Run p known .new s) {id : String} {sc : Scope}
    (hsc : s.scopes.find? id = some sc) {kind : InPlaceKind} {t : Ty}
    (ht : sc.entry kind name = some t) :
    ∃ memo, known id memo ∧ memo.IsOrigin p id kind name t := by
  have hchange := hrun.change hp Session.sound_new
  have hderived : s.Derived p known := hchange.derived .new
  have hsettled : s.Settled fun _ _ => False := hchange.settled .new
  refine (hderived.entry hsc ht).resolve_left ?_
  rintro rfl
  have hdefines := (hsettled id sc hsc ht).resolve_right And.right
  cases kind <;> exact hdefines

/-- The type of a declaration was made from a declaration of the same name, unless the name looks
drawn. -/
theorem Run.declaredType_origin (hp : p.Within known) (hrun : Run p known .new s) {d : TypeDecl}
    (hd : ∀ memo ∈ d.memos, known home memo)
    (hplain : InPlaceKind.struct.looksDrawn d.name = false) {t : Ty}
    (h : Ends (p.declaredType · d home) s (.ok t) s') :
    ∃ d', known home (.type d') ∧ d'.name = d.name ∧ (Memo.type d').Makes p home d.name t := by
  have hrun' : Run p known .new s' := hrun.tail ⟨.declaredType d home, hd, _, h⟩
  obtain ⟨_ | depth, h⟩ := h
  · cases h
  obtain ⟨sc, hsc, ht⟩ :=
    Change.leaves hp (Change.asks_infer hp depth) (.type d) rfl hd
      ((hrun.sound hp).within hp) h
  have ht : sc.entry .struct d.name = some t := ht
  obtain ⟨memo, hmemo, horigin⟩ := hrun'.origin hp hsc ht
  cases memo with
  | type d' => exact ⟨d', hmemo, horigin.admits.symm, horigin.makes⟩
  | struct span fields => exact absurd horigin.admits (by simp [Memo.slot, Slot.Admits, hplain])
  | function f => cases horigin.kind
  | func span params results => cases horigin.kind

/-- A declaration makes a wrapper. -/
theorem Memo.Makes.wraps {d : TypeDecl} {t : Ty} (h : (Memo.type d).Makes p home name t) :
    ∃ ask body s s', t = .wrapper d.name home body ∧
      declaredBody p ask d home s = some (.ok body, s') := by
  obtain ⟨ask, s, s', h⟩ := h
  rw [Memo.build, map_apply] at h
  obtain ⟨⟨_ | body, _⟩, hbody, heq⟩ := Option.map_eq_some_iff.mp h <;> cases heq
  exact ⟨ask, body, s, _, rfl, hbody⟩

/-- If the declaration is one of a struct, the type is that struct with all fields declared. -/
def TypeDecl.DescribedBy (d : TypeDecl) (home : String) (t : Ty) : Prop :=
  ∀ groups, d.structGroups? = some groups → ∃ fields, t.unwrap = .struct d.name home fields ∧
    ∀ g ∈ groups, ∀ name, g.Declares name → fields.contains name = true

theorem Memo.Makes.describes {d : TypeDecl} {t : Ty} (h : (Memo.type d).Makes p home name t) :
    d.DescribedBy home t := by
  intro groups hgroups
  obtain ⟨ask, body, s, s', rfl, hbody⟩ := h.wraps
  simp only [declaredBody, hgroups] at hbody
  rcases bind_eq_some.mp hbody with ⟨fields, s₁, hfields, hpure⟩ | ⟨_, _, he⟩
  · cases hpure
    exact ⟨fields, rfl, fun g hg name hname => contains_fieldTable hfields hg hname⟩
  · cases he

/-- The type of a declaration describes the declaration, as long as no other type that can be
remembered in the module goes by the same name. -/
theorem declaredType_describes (hp : p.Within known) (hrun : Run p known .new s) {d : TypeDecl}
    (hd : ∀ memo ∈ d.memos, known home memo)
    (honly : ∀ d', known home (.type d') → d'.name = d.name → d' = d)
    (hplain : InPlaceKind.struct.looksDrawn d.name = false) {t : Ty}
    (h : Ends (p.declaredType · d home) s (.ok t) s') : d.DescribedBy home t := by
  obtain ⟨d', hknown, hname, hmakes⟩ := hrun.declaredType_origin hp hd hplain h
  obtain rfl := honly d' hknown hname
  exact hmakes.describes

/-- `type Server struct { Base; Name bool; *Zone; *lib.Disk; ID int; Base float32 }` -/
def serverDecl : TypeDecl :=
  ⟨"Server", ⟨.zero, .structType serverGroups⟩, .zero⟩

/-- The types of `regions` and `Server`. -/
def regionMemos : String → Memo → Prop :=
  fun _ memo => ∃ d ∈ [baseDecl, zoneDecl, diskDecl, serverDecl], memo = .type d

theorem serverDecl_described : ∃ s t s', Run regions regionMemos .new s ∧
      (∃ sc, s.scopes.find? "m" = some sc ∧ sc.types.contains "Zone" = true) ∧
      Ends (regions.declaredType · serverDecl "m") s (.ok t) s' ∧
      serverDecl.DescribedBy "m" t := by
  have hregions : regions.Within regionMemos := by
    refine Program.within_of_modules fun m hm memo hmemo => ?_
    rcases List.mem_cons.mp hm with rfl | hm
    · obtain rfl := List.mem_singleton.mp hmemo
      exact ⟨diskDecl, by simp, rfl⟩
    · obtain rfl := List.mem_singleton.mp hm
      rcases List.mem_cons.mp hmemo with rfl | hmemo
      · exact ⟨baseDecl, by simp, rfl⟩
      · obtain rfl := List.mem_singleton.mp hmemo
        exact ⟨zoneDecl, by simp, rfl⟩
  obtain ⟨s, hzone, hsc, t, s', hserver⟩ : ∃ s,
      (∃ r, regions.localType 4 "Zone" "m" .new = some (r, s)) ∧
        (∃ sc, s.scopes.find? "m" = some sc ∧ sc.types.contains "Zone" = true) ∧
        ∃ t s', regions.declaredType 5 serverDecl "m" s = some (.ok t, s') :=
    ⟨_, ⟨_, rfl⟩, ⟨_, rfl, by decide⟩, _, _, rfl⟩
  obtain ⟨r, hzone⟩ := hzone
  have hrun : Run regions regionMemos .new s :=
    .single ⟨.localType "Zone" "m", trivial, r, 4, hzone⟩
  refine ⟨s, t, s', hrun, hsc, ⟨5, hserver⟩, ?_⟩
  refine declaredType_describes hregions hrun (fun memo hmemo => ?_) ?_ (by decide) ⟨5, hserver⟩
  · obtain rfl := List.mem_singleton.mp hmemo
    exact ⟨serverDecl, by simp, rfl⟩
  · rintro d' ⟨d, hd, heq⟩ hname
    cases heq
    simp only [List.mem_cons, List.not_mem_nil, or_false] at hd
    rcases hd with rfl | rfl | rfl | rfl
    · exact absurd hname (by decide)
    · exact absurd hname (by decide)
    · exact absurd hname (by decide)
    · rfl

/-- `type item string`, in one function. -/
def textItem : TypeDecl :=
  ⟨"item", ⟨.zero, .ident "string" none⟩, .zero⟩

/-- `type item struct { Name string }`, in another one. -/
def recordItem : TypeDecl :=
  ⟨"item", ⟨.zero, .structType [⟨["Name"], ⟨.zero, .ident "string" none⟩, .zero⟩]⟩, .zero⟩

/-- Two local types of one name share one entry: the second one asked for gets the type of the
first. -/
theorem local_types_share_a_name : ∃ s t s', Run regions (fun _ _ => True) .new s ∧
    Ends (regions.declaredType · recordItem "m") s (.ok t) s' ∧
    t = .wrapper "item" "m" (.predeclared "string") ∧ ¬ recordItem.DescribedBy "m" t := by
  have hrun : Run regions (fun _ _ => True) .new _ :=
    .single ⟨.declaredType textItem "m", fun _ _ => trivial, _, 4, rfl⟩
  refine ⟨_, _, _, hrun, ⟨4, rfl⟩, rfl, fun h => ?_⟩
  obtain ⟨fields, hunwrap, _⟩ := h _ rfl
  cases hunwrap

end ResourceLint
