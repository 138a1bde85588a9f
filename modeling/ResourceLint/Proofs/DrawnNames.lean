import Mathlib.Data.Set.Card
import ResourceLint.Proofs.Growth

/-!
# No name is drawn twice

A type that is written in place is given a name when it is first met: the word of its kind and the
next number. The numbers come from one counter for all modules and both kinds, and a name is given
before it is known whether the type can be told at all.

The places that have a name can therefore be listed in the order in which they were named, and this
list (`Roll`) says everything about the names: the place at position `n`, counted from one, has the
number `n`. An inference does no more to the list than to add places at its end.
-/

namespace ResourceLint

open Inference

/-- Where a type is written in place. -/
structure Place where
  home : String
  span : Span
  kind : InPlaceKind
  deriving DecidableEq

namespace Session

/-- The name drawn for a place. -/
def nameOf? (s : Session) (place : Place) : Option String :=
  (s.scopes.find? place.home).bind fun sc => sc.inPlaceName? place.span place.kind

/-- The places that have a name, in whatever module they are. -/
def named (s : Session) : Set Place :=
  {place | (s.nameOf? place).isSome = true}

variable {p : Program} {s s' : Session} {home name : String} {kind : InPlaceKind}

theorem nameOf?_of_find? {sc : Scope} (h : s.scopes.find? home = some sc) (span : Span)
    (kind : InPlaceKind) : s.nameOf? ⟨home, span, kind⟩ = sc.inPlaceName? span kind := by
  rw [nameOf?, h, Option.bind_some]

/-- A scope has no names when it is built. -/
theorem nameOf?_enter (p : Program) (s : Session) (id : String) (place : Place) :
    (s.enter p id).2.nameOf? place = s.nameOf? place := by
  rcases enter_cases p s id with heq | ⟨hnone, m, _, ⟨sc, hsc, heq⟩ | ⟨e, _, heq⟩⟩
  · rw [heq]
  · obtain ⟨_, _, _, _, hinPlace⟩ := Scope.ofModule_eq_ok hsc
    rw [heq]
    simp only [nameOf?, Table.find?_insert]
    split
    · next hid => rw [hid, hnone, Option.bind_some, Scope.inPlaceName?, hinPlace]; rfl
    · rfl
  · rw [heq]
    rfl

theorem drawn_enter (p : Program) (s : Session) (id : String) :
    (s.enter p id).2.drawn = s.drawn := by
  rcases enter_cases p s id with heq | ⟨_, m, _, ⟨sc, _, heq⟩ | ⟨e, _, heq⟩⟩ <;> rw [heq]

theorem SameBut.nameOf? (h : s.SameBut home kind name s') (place : Place) :
    s'.nameOf? place = s.nameOf? place := by
  by_cases hhome : place.home = home
  · have hscope := h.scope
    rw [← hhome] at hscope
    rw [Session.nameOf?, Session.nameOf?]
    generalize s.scopes.find? place.home = found, s'.scopes.find? place.home = found' at hscope
    cases hscope with
    | none => rfl
    | some hsame => exact hsame.nameAt (.inPlace place.kind place.span)
  · rw [Session.nameOf?, h.others hhome, Session.nameOf?]

theorem nameOf?_nameInPlace {sc : Scope} (hsc : s.scopes.find? home = some sc) (span : Span)
    (kind : InPlaceKind) (place : Place) :
    (s.nameInPlace home span kind).nameOf? place =
      if place = ⟨home, span, kind⟩ then some (kind.text ++ padded (s.drawn + 1))
      else s.nameOf? place := by
  obtain ⟨home', span', kind'⟩ := place
  by_cases hhome : home' = home
  · subst hhome
    rw [nameOf?_of_find? hsc, nameOf?, find?_nameInPlace, if_pos rfl, hsc, Option.map_some,
      Option.bind_some]
    simp only [Scope.inPlaceName?, Scope.addInPlace, List.lookup_cons, Place.mk.injEq, true_and]
    by_cases heq : span' = span ∧ kind' = kind
    · obtain ⟨rfl, rfl⟩ := heq
      simp [draw]
    · have hne : ((span', kind') == (span, kind)) = false :=
        beq_eq_false_iff_ne.mpr fun h => heq (Prod.mk.inj h)
      rw [if_neg heq, hne]
  · have hne : (⟨home', span', kind'⟩ : Place) ≠ ⟨home, span, kind⟩ :=
      fun h => hhome (congrArg Place.home h)
    rw [if_neg hne, nameOf?, find?_nameInPlace, if_neg hhome, nameOf?]

end Session

/-- The places that have a name, in the order in which the names were drawn. -/
structure Session.Roll (s : Session) (roll : List Place) : Prop where
  nodup : roll.Nodup
  length : roll.length = s.drawn
  named : ∀ {place}, place ∈ roll →
    s.nameOf? place = some (place.kind.text ++ padded (roll.idxOf place + 1))
  unnamed : ∀ {place}, place ∉ roll → s.nameOf? place = none

variable {p : Program} {known : String → Memo → Prop} {s s' s₀ : Session} {home name : String}
  {roll more : List Place} {place place' : Place}

namespace Session.Roll

theorem new : Session.new.Roll [] where
  nodup := .nil
  length := rfl
  named h := by cases h
  unnamed _ := rfl

/-- Only names and their number matter. -/
theorem congr (h : s.Roll roll) (hdrawn : s'.drawn = s.drawn)
    (hname : ∀ place, s'.nameOf? place = s.nameOf? place) : s'.Roll roll where
  nodup := h.nodup
  length := h.length.trans hdrawn.symm
  named hplace := (hname _).trans (h.named hplace)
  unnamed hplace := (hname _).trans (h.unnamed hplace)

/-- A place without a name takes the next number. -/
theorem nameInPlace (h : s.Roll roll) {sc : Scope} (hsc : s.scopes.find? home = some sc)
    {span : Span} {kind : InPlaceKind} (hnone : sc.inPlaceName? span kind = none) :
    (s.nameInPlace home span kind).Roll (roll ++ [⟨home, span, kind⟩]) := by
  have hnew : ⟨home, span, kind⟩ ∉ roll := by
    intro hplace
    have hname := h.named hplace
    rw [nameOf?_of_find? hsc, hnone] at hname
    cases hname
  refine ⟨h.nodup.append (List.nodup_singleton _) (List.disjoint_singleton.mpr hnew), ?_,
    fun {place} hplace => ?_, fun {place} hplace => ?_⟩
  · rw [List.length_append, List.length_singleton, h.length, drawn_nameInPlace]
  · rw [nameOf?_nameInPlace hsc]
    rcases List.mem_append.mp hplace with hold | hlast
    · have hne : place ≠ ⟨home, span, kind⟩ := fun heq => hnew (heq ▸ hold)
      rw [if_neg hne, List.idxOf_append_of_mem hold, h.named hold]
    · obtain rfl := List.mem_singleton.mp hlast
      rw [if_pos rfl, List.idxOf_append_of_notMem hnew, List.idxOf_cons_self, Nat.add_zero,
        h.length]
  · rw [List.mem_append, List.mem_singleton, not_or] at hplace
    rw [nameOf?_nameInPlace hsc, if_neg hplace.2, h.unnamed hplace.1]

theorem opening (h : s.Roll roll) {slot : Slot} (hopen : Opening home s slot name s₀) :
    ∃ more, s₀.Roll (roll ++ more) := by
  cases hopen with
  | known => exact ⟨[], by rwa [List.append_nil]⟩
  | drawn hsc hnone => exact ⟨_, h.nameInPlace hsc hnone⟩

theorem sameBut (h : s.Roll roll) {kind : InPlaceKind} (hsame : s.SameBut home kind name s') :
    s'.Roll roll :=
  h.congr hsame.drawn hsame.nameOf?

end Session.Roll

/-- A change adds to the roll of a session what is named on the way, and nothing else. -/
theorem Change.lengthens (h : Change p known s s') (hs : s.Roll roll) :
    ∃ more, s'.Roll (roll ++ more) := by
  induction h generalizing roll with
  | refl => exact ⟨[], by rwa [List.append_nil]⟩
  | trans _ _ ih ih' =>
      obtain ⟨more, hs₁⟩ := ih hs
      obtain ⟨more', hs₂⟩ := ih' hs₁
      exact ⟨more ++ more', by rwa [← List.append_assoc]⟩
  | enter s id =>
      refine ⟨[], ?_⟩
      rw [List.append_nil]
      exact hs.congr (Session.drawn_enter p s id) (Session.nameOf?_enter p s id)
  | settle _ _ hopen _ _ ih =>
      -- The name is drawn before the entry is worked out, and kept whatever comes of that.
      obtain ⟨more, hs₀⟩ := hs.opening hopen
      obtain ⟨more', hs₁⟩ := ih (hs₀.sameBut (.opened ..))
      rw [List.append_assoc] at hs₁
      exact ⟨more ++ more', hs₁.sameBut (.closed ..)⟩

/-- Completed operations, one after the other. Each may be about a program of its own. -/
def Session.Reaches : Session → Session → Prop :=
  Relation.ReflTransGen fun s s' => ∃ (p : Program) (op : Operation), op.Completes p s s'

/-- Operations add to the roll in the same way, whether they fail or not. -/
theorem Session.Reaches.lengthens (h : s.Reaches s') (hs : s.Within fun _ _ => True)
    (hroll : s.Roll roll) : s'.Within (fun _ _ => True) ∧ ∃ more, s'.Roll (roll ++ more) := by
  induction h with
  | refl => exact ⟨hs, [], by rwa [List.append_nil]⟩
  | tail _ hstep ih =>
      obtain ⟨p, op, hop⟩ := hstep
      obtain ⟨hs₁, more, hroll₁⟩ := ih
      have hp : p.Within fun _ _ => True := fun _ _ _ _ _ => trivial
      have hchange := op.change hp op.within_all hs₁ hop
      obtain ⟨more', hroll₂⟩ := hchange.lengthens hroll₁
      exact ⟨hchange.within hp hs₁, more ++ more', by rwa [← List.append_assoc]⟩

/-- Decimal notation, filled up with zeros to eight digits. -/
theorem Session.padded_eq_leftpad (n : Nat) :
    padded n = String.ofList ((toString n).toList.leftpad 8 '0') := by
  have hdigits : (toString n).toList = Nat.toDigits 10 n := String.toList_ofList
  rw [padded, hdigits, List.leftpad]

/-- A drawn name tells its kind and its number. -/
theorem InPlaceKind.drawn_inj {kind kind' : InPlaceKind} {i j : Nat}
    (h : kind.text ++ Session.padded i = kind'.text ++ Session.padded j) :
    kind = kind' ∧ i = j := by
  have hkind : kind = kind' := by
    have hchars := congrArg String.toList h
    cases kind <;> cases kind' <;> simp [InPlaceKind.text] at hchars ⊢
  subst hkind
  exact ⟨rfl, kind.drawn_injective h⟩

namespace Session.Roll

theorem mem_iff (h : s.Roll roll) : place ∈ roll ↔ place ∈ s.named := by
  by_cases hplace : place ∈ roll
  · simp [hplace, Session.named, h.named hplace]
  · simp [hplace, Session.named, h.unnamed hplace]

theorem mem_of_nameOf? (h : s.Roll roll) (hname : s.nameOf? place = some name) : place ∈ roll :=
  h.mem_iff.mpr (Option.isSome_iff_exists.mpr ⟨name, hname⟩)

/-- No two places have the same name. -/
theorem place_eq (h : s.Roll roll) (hname : s.nameOf? place = some name)
    (hname' : s.nameOf? place' = some name) : place = place' := by
  have hplace := h.mem_of_nameOf? hname
  have hplace' := h.mem_of_nameOf? hname'
  rw [h.named hplace, Option.some.injEq] at hname
  rw [h.named hplace', Option.some.injEq] at hname'
  have hnumber := (InPlaceKind.drawn_inj (hname.trans hname'.symm)).2
  exact (List.idxOf_inj hplace).mp (Nat.succ.inj hnumber)

/-- All numbers up to that of the last name are taken, each by one place. -/
theorem bijOn (h : s.Roll roll) :
    Set.BijOn (fun place => roll.idxOf place + 1) s.named (Set.Icc 1 s.drawn) := by
  refine ⟨fun place hplace => ?_, fun place hplace place' _ heq => ?_, fun n hn => ?_⟩
  · have hlt := List.idxOf_lt_length_of_mem (h.mem_iff.mpr hplace)
    rw [h.length] at hlt
    exact ⟨Nat.le_add_left 1 _, hlt⟩
  · exact (List.idxOf_inj (h.mem_iff.mpr hplace)).mp (Nat.succ.inj heq)
  · obtain ⟨hone, hle⟩ := hn
    have hlt : n - 1 < roll.length := by
      rw [h.length]
      omega
    refine ⟨roll[n - 1], h.mem_iff.mp (List.getElem_mem hlt), ?_⟩
    dsimp only
    rw [h.nodup.idxOf_getElem, Nat.sub_add_cancel hone]

theorem ncard_named (h : s.Roll roll) : s.named.ncard = s.drawn := by
  have hnamed : s.named = ↑roll.toFinset := by
    ext place
    rw [← h.mem_iff, Finset.mem_coe, List.mem_toFinset]
  rw [hnamed, Set.ncard_coe_finset, List.toFinset_card_of_nodup h.nodup, h.length]

/-- Names stay when others are drawn. -/
theorem stays (h : s.Roll roll) (h' : s'.Roll (roll ++ more))
    (hname : s.nameOf? place = some name) : s'.nameOf? place = some name := by
  have hplace := h.mem_of_nameOf? hname
  rw [h'.named (List.mem_append_left more hplace), List.idxOf_append_of_mem hplace, ← hname,
    h.named hplace]

end Session.Roll

/-- Whatever has been asked so far, and of whatever programs: no two places share a name, in all
modules together; their names are made of the words of their kinds and of the numbers from one up
to the number of names drawn, a different one for each place and none left out; and a name once
drawn for a place stays, however the operations after it end. -/
theorem drawn_names_unique (hreach : Session.new.Reaches s) :
    (∀ place place' name, s.nameOf? place = some name → s.nameOf? place' = some name →
      place = place') ∧
    (∃ number : Place → Nat, Set.BijOn number s.named (Set.Icc 1 s.drawn) ∧
      ∀ place ∈ s.named, s.nameOf? place = some (place.kind.text ++
        String.ofList ((toString (number place)).toList.leftpad 8 '0'))) ∧
    s.named.ncard = s.drawn ∧
    ∀ s', s.Reaches s' → ∀ place name, s.nameOf? place = some name →
      s'.nameOf? place = some name := by
  obtain ⟨hs, roll, hroll⟩ := hreach.lengthens .new .new
  rw [List.nil_append] at hroll
  refine ⟨fun _ _ _ => hroll.place_eq, ⟨_, hroll.bijOn, fun _ hplace => ?_⟩, hroll.ncard_named,
    fun s' hlater place name => ?_⟩
  · rw [hroll.named (hroll.mem_iff.mpr hplace), Session.padded_eq_leftpad]
  · obtain ⟨_, more, hroll'⟩ := hlater.lengthens hs hroll
    exact hroll.stays hroll'

/-- Two modules that declare nothing. -/
def bareModules : Program :=
  ((Program.empty []).add ⟨"a", "a", [], [], [], [], ∅⟩).add ⟨"b", "b", [], [], [], [], ∅⟩

/-- `struct{ open func() t }` -/
def opener (t : Expr) : Expr :=
  ⟨⟨0, 1, 0, 0⟩, .structType [⟨["open"], ⟨⟨0, 1, 8, 0⟩, .funcType [] [⟨[], t, .zero⟩]⟩, .zero⟩]⟩

/-- `int` -/
def intType : Expr :=
  ⟨.zero, .ident "int" none⟩

/-- `map[[]int]int`, which cannot be told. -/
def mapOfArrays : Expr :=
  ⟨.zero, .mapType ⟨.zero, .arrayType intType⟩ intType⟩

theorem openers_named : ∃ s s', Session.new.Reaches s ∧
    (∃ e, Ends (bareModules.typeOf · (opener mapOfArrays) "b") s (.error e) s') ∧
    s'.nameOf? ⟨"a", ⟨0, 1, 0, 0⟩, .struct⟩ = some "struct00000001" ∧
    s'.nameOf? ⟨"b", ⟨0, 1, 8, 0⟩, .func⟩ = some "func00000004" ∧ s'.named.ncard = 4 := by
  obtain ⟨t, s, htold, hname, e, s', hfails, hname', hdrawn⟩ :
      ∃ t s, bareModules.typeOf 5 (opener intType) "a" .new = some (.ok t, s) ∧
        s.nameOf? ⟨"a", ⟨0, 1, 0, 0⟩, .struct⟩ = some "struct00000001" ∧
        ∃ e s', bareModules.typeOf 5 (opener mapOfArrays) "b" s = some (.error e, s') ∧
          s'.nameOf? ⟨"b", ⟨0, 1, 8, 0⟩, .func⟩ = some "func00000004" ∧ s'.drawn = 4 :=
    ⟨_, _, rfl, by decide, _, _, rfl, by decide, rfl⟩
  have hreach : Session.new.Reaches s :=
    .single ⟨bareModules, .typeOf (opener intType) "a", _, 5, htold⟩
  have hlater : s.Reaches s' :=
    .single ⟨bareModules, .typeOf (opener mapOfArrays) "b", _, 5, hfails⟩
  obtain ⟨_, _, _, hstays⟩ := drawn_names_unique hreach
  obtain ⟨_, _, hcount, _⟩ := drawn_names_unique (hreach.trans hlater)
  exact ⟨s, s', hreach, ⟨e, 5, hfails⟩, hstays s' hlater _ _ hname, hname', hcount.trans hdrawn⟩

end ResourceLint
