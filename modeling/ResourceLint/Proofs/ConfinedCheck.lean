import ResourceLint.Check
import ResourceLint.Proofs.Confinement

/-!
# Checks of confined programs

Whatever is checked of a module has no names but those of the module: the functions that a resource
names are declared or bound in it, and the values they set stand in their bodies. So what is found
about a module is the same in two programs that agree on everything that can be reached from it.
-/

namespace ResourceLint

open Inference InferM

section CheckedWords

theorem Expr.words_of_compositeElement {e x : Expr} {elements : List Expr}
    (h : e.compositeElements? = some elements) (hx : x ∈ elements) : x.words ⊆ e.words := by
  fun_induction Expr.compositeElements? e with
  | case1 span type elements' =>
      cases h
      exact Expr.words_of_part (List.mem_append_right _ hx)
  | case2 span y ih | case3 span y ih => exact ih h
  | case4 => cases h

theorem Expr.words_of_definitionElement {result x : Expr} {function : String}
    {elements : List Expr} (h : result.definitionElements function = .ok elements)
    (hx : x ∈ elements) : x.words ⊆ result.words := by
  unfold Expr.definitionElements at h
  split at h
  · next hcomposite =>
      cases h
      exact Expr.words_of_compositeElement hcomposite hx
  · split at h
    · next name stmt hnode =>
        obtain ⟨span, node⟩ := result
        obtain rfl : node = _ := hnode
        obtain ⟨targets, values, declares, inner⟩ := stmt
        split at h
        · next value hvalues =>
            obtain rfl : values = [value] := hvalues
            split at h
            · next hcomposite =>
                cases h
                have hvalue :
                    value.words ⊆ Assignment.words ⟨targets, [value], declares, inner⟩ := by
                  rw [Assignment.words]
                  exact List.subset_append_of_subset_right _
                    (Expr.words_subset_wordsAll (List.mem_singleton_self value))
                exact List.subset_cons_of_subset _
                  (List.Subset.trans (Expr.words_of_compositeElement hcomposite hx) hvalue)
            · cases h
        · cases h
    · cases h

theorem FuncDecl.words_of_returned {f : FuncDecl} {x : Expr} {elements : List Expr}
    (h : f.returnedElements = .ok (some elements)) (hx : x ∈ elements) : x.words ⊆ f.words := by
  unfold FuncDecl.returnedElements at h
  split at h
  · cases h
  · next result hreturned =>
      obtain ⟨stmt, hstmt, hresult⟩ := List.exists_of_findSome?_eq_some hreturned
      have hwords : result.words ⊆ stmt.words := by
        cases stmt with
        | ret results =>
            obtain rfl : results = [result] := Option.some.inj hresult
            exact Expr.words_subset_wordsAll (List.mem_singleton_self result)
        | _ => cases hresult
      cases helements : result.definitionElements f.name with
      | error e =>
          rw [helements] at h
          cases h
      | ok elements' =>
          rw [helements] at h
          cases h
          rw [FuncDecl.words_eq, Stmt.wordsAll_eq]
          refine List.subset_cons_of_subset _ (List.subset_append_of_subset_right _ ?_)
          intro w hw
          exact List.mem_flatMap_of_mem hstmt
            (hwords (Expr.words_of_definitionElement helements hx hw))
  · cases h

/-- The values that a function sets have no names but those of the function. -/
theorem FuncDecl.words_of_setter {f : FuncDecl} {holder : String} {setter : Setter}
    (h : setter ∈ f.setters holder) : setter.value.words ⊆ f.words := by
  obtain ⟨e, he, hsetter⟩ := List.mem_filterMap.mp h
  have hvalue : setter.value ∈ e.parts := by
    unfold Expr.setter? at hsetter
    split at hsetter
    · next fn key value hnode =>
        obtain ⟨text, _, rfl⟩ := Option.map_eq_some_iff.mp hsetter
        rw [Expr.parts, hnode]
        simp
    · cases hsetter
  have hbody := Stmt.words_of_walk (List.mem_filter.mp he).1
  rw [FuncDecl.words_eq]
  refine List.subset_cons_of_subset _ (List.subset_append_of_subset_right _ ?_)
  exact List.Subset.trans (Expr.words_of_part hvalue) hbody

namespace ResourceDef

variable {p : Program} {m : Module} {settings : Settings} {d d' : ResourceDef}

theorem words_of_lifecycleFunction {value : Expr} {g : FuncDecl}
    (h : lifecycleFunction? m value = some g) (hvalue : value.words ⊆ m.words) :
    g.words ⊆ m.words := by
  unfold lifecycleFunction? at h
  split at h
  · next name f hnode =>
      cases h
      obtain ⟨span, node⟩ := value
      obtain rfl : node = _ := hnode
      exact List.Subset.trans (List.subset_cons_self ..) hvalue
  · exact m.words_of_function (List.mem_of_find?_eq_some h)
  · cases h

/-- A definition belongs to its module, and so do its lifecycle functions. -/
structure IsOf (m : Module) (d : ResourceDef) : Prop where
  module : d.module = m.id
  words : ∀ g ∈ d.lifecycle, g.words ⊆ m.words

theorem isOf_of_addElement {element : Expr} (hd : d.IsOf m) (helement : element.words ⊆ m.words)
    (h : addElement p m settings d element = .ok d') : d'.IsOf m := by
  unfold ResourceDef.addElement at h
  split at h
  · next key _ value hnode =>
      split at h
      · cases h
        refine ⟨hd.module, fun g hg => ?_⟩
        rcases List.mem_append.mp hg with hg | hg
        · exact hd.words g hg
        · refine words_of_lifecycleFunction (Option.mem_toList.mp hg) ?_
          have hpart : value ∈ element.parts := by
            rw [Expr.parts, hnode]
            simp
          exact List.Subset.trans (Expr.words_of_part hpart) helement
      · split at h
        · split at h
          · next elements _ =>
              cases hschema : p.readSchema m settings elements with
              | error e =>
                  rw [hschema] at h
                  cases h
              | ok schema =>
                  rw [hschema] at h
                  cases h
                  exact ⟨hd.module, hd.words⟩
          · cases h
        · cases h
          exact hd
  · cases h
    exact hd

theorem isOf_of_foldlM {elements : List Expr} (hd : d.IsOf m)
    (helements : ∀ element ∈ elements, element.words ⊆ m.words)
    (h : elements.foldlM (addElement p m settings) d = .ok d') : d'.IsOf m := by
  induction elements generalizing d with
  | nil =>
      cases h
      exact hd
  | cons element rest ih =>
      obtain ⟨helement, hrest⟩ := List.forall_mem_cons.mp helements
      rw [List.foldlM_cons] at h
      cases hadd : addElement p m settings d element with
      | error e =>
          rw [hadd] at h
          cases h
      | ok d₁ =>
          rw [hadd] at h
          exact ih (isOf_of_addElement hd helement hadd) hrest h

theorem isOf_of_load {f : FuncDecl} (hf : f ∈ m.functions) (h : load p m f settings = .ok d) :
    d.IsOf m := by
  unfold load at h
  cases hreturned : f.returnedElements with
  | error e =>
      rw [hreturned] at h
      cases h
  | ok found =>
      rw [hreturned] at h
      cases found with
      | none => cases h
      | some elements =>
          refine isOf_of_foldlM ⟨rfl, fun g hg => by cases hg⟩ (fun element helement => ?_) h
          exact List.Subset.trans (FuncDecl.words_of_returned hreturned helement)
            (m.words_of_function hf)

end ResourceDef

end CheckedWords

namespace Program.AgreesOn

variable {enters : String → Prop} {p p' : Program} (h : p.AgreesOn enters p') {m : Module}
  (hid : enters m.id) (hm : p.module? m.id = some m)

include h hid hm

theorem fieldBuilder : p.fieldBuilder m = p'.fieldBuilder m := by
  funext fn
  unfold Program.fieldBuilder
  split
  · rfl
  · rfl
  · next x sel _ =>
      cases x.identName? with
      | none => rfl
      | some qualifier =>
          dsimp only
          rw [← h.target hid hm]
          cases htarget : p.qualifierTarget qualifier x.span.file m with
          | error e => rfl
          | ok path =>
              change ((p.reach m path).mapError _ >>= _) = ((p'.reach m path).mapError _ >>= _)
              rw [h.reach hid hm htarget]
  · rfl

/-- The definition that a generator returns is read in the same way in both programs. -/
theorem load (f : FuncDecl) (settings : Settings) :
    ResourceDef.load p m f settings = ResourceDef.load p' m f settings := by
  have hdraft : p.fieldDraft m = p'.fieldDraft m := by
    unfold Program.fieldDraft
    rw [h.fieldBuilder hid hm]
  have hfield : p.addField m settings = p'.addField m settings := by
    unfold Program.addField
    rw [hdraft]
  have helement : ResourceDef.addElement p m settings = ResourceDef.addElement p' m settings := by
    unfold ResourceDef.addElement Program.readSchema
    rw [hfield]
  unfold ResourceDef.load
  rw [helement]

end Program.AgreesOn

namespace InferM

variable {I : Session → Prop}

theorem Together.eq {α : Type} {x y : InferM α} (h : Together I Eq x y) {s : Session} (hs : I s) :
    x s = y s := by
  have hxy := h s hs
  generalize x s = a, y s = b at hxy
  rcases hxy with @⟨⟨r, s₁⟩, ⟨q, s₂⟩, hsame, _, hrq⟩ | _
  · exact congrArg some (Prod.ext (exceptRel_eq_iff.mp hrq) hsame)
  · rfl

theorem together_append {α : Type} {x y : InferM α} {rest rest' : InferM Report}
    (first : α → Report) (h : Together I Eq x y) (hrest : Together I Eq rest rest') :
    Together I Eq (do return first (← x) ++ (← rest)) (do return first (← y) ++ (← rest')) :=
  together_bind h fun _ _ hfirst => together_bind hrest fun _ _ hothers =>
    together_pure (by rw [hfirst, hothers])

end InferM

namespace Confinement

variable {p p' : Program} (c : Confinement p p') {depth : Nat} {settings : Settings}

theorem owner_of_like {c : Confinement p p'} {t : Ty} {owner : String} (h : Ty.Like c.like t t)
    (ho : t.owner? = some owner) : c.owner owner := by
  match t, h.form with
  | .simple ⟨name, some o⟩, .simple hs =>
      cases ho
      exact hs.2
  | .array item, .array hitem => exact owner_of_like hitem ho
  | .struct .., .struct _ hs _ =>
      cases ho
      exact hs.2
  | .func sig, .func hsig =>
      cases ho
      exact (Signature.like_iff.mp hsig).2.2.1
  | .wrapper .., .wrapper hs _ =>
      cases ho
      exact hs.2

theorem fitsField {t : Ty} (h : Ty.Like c.like t t) (field : SchemaField) :
    Together c.Vouched Eq (Check.fitsField p (infer p depth) settings t field)
      (Check.fitsField p' (infer p' depth) settings t field) := by
  have names := (c.asks_infer depth).names
  have hfits := c.correspondence.fits c.tolerant h (fun owner ho =>
    c.correspondence.localType names t.name (owner_of_like h ho).1) field.expected
    settings.overrides
  refine together_bind (together_attempt hfits) fun r q hrq => ?_
  obtain rfl : r = q := exceptRel_eq_iff.mp hrq
  cases r with
  | ok fits => exact together_pure rfl
  | error _ => exact together_pure rfl

section Findings

variable (hsources : p.sources = p'.sources)

include hsources

theorem ofSetter {target : ResourceDef} (hhome : c.owner target.module) {setter : Setter}
    (hwords : ∀ w ∈ setter.value.words, c.word w) :
    Together c.Vouched Eq (Check.ofSetter p (infer p depth) settings target setter)
      (Check.ofSetter p' (infer p' depth) settings target setter) := by
  unfold Check.ofSetter
  rw [hsources]
  cases target.schema.find? setter.key with
  | none => exact together_pure rfl
  | some field =>
      have htype := c.asks_infer depth (.expr setter.value) target.module hhome hwords
      refine together_bind (together_attempt htype) fun r q hrq => ?_
      obtain rfl := c.eq_of_like hrq
      split
      · exact together_pure rfl
      · exact together_pure rfl
      · refine together_bind (c.fitsField hrq field) fun a b hab => ?_
        subst hab
        split
        · exact together_pure rfl
        · exact together_pure rfl

theorem ofSetters {target : ResourceDef} (hhome : c.owner target.module) {setters : List Setter}
    (hwords : ∀ setter ∈ setters, ∀ w ∈ setter.value.words, c.word w) :
    Together c.Vouched Eq (Check.ofSetters p depth settings target setters)
      (Check.ofSetters p' depth settings target setters) := by
  induction setters with
  | nil => exact together_pure rfl
  | cons setter rest ih =>
      obtain ⟨hsetter, hrest⟩ := List.forall_mem_cons.mp hwords
      exact together_append Option.toList (c.ofSetter hsources hhome hsetter) (ih hrest)

theorem ofFunction {target : ResourceDef} (hhome : c.owner target.module) {f : FuncDecl}
    (hwords : ∀ w ∈ f.words, c.word w) :
    Together c.Vouched Eq (Check.ofFunction p depth settings target f)
      (Check.ofFunction p' depth settings target f) := by
  unfold Check.ofFunction
  cases f.dataParam with
  | named holder =>
      exact c.ofSetters hsources hhome fun setter hsetter w hw =>
        hwords w (FuncDecl.words_of_setter hsetter hw)
  | unnamed => exact together_pure rfl
  | unsupported arity => exact together_pure (by rw [hsources])

theorem ofFunctions {target : ResourceDef} (hhome : c.owner target.module) {fs : List FuncDecl}
    (hwords : ∀ f ∈ fs, ∀ w ∈ f.words, c.word w) :
    Together c.Vouched Eq (Check.ofFunctions p depth settings target fs)
      (Check.ofFunctions p' depth settings target fs) := by
  induction fs with
  | nil => exact together_pure rfl
  | cons f rest ih =>
      obtain ⟨hf, hrest⟩ := List.forall_mem_cons.mp hwords
      exact together_append id (c.ofFunction hsources hhome hf) (ih hrest)

section Generators

variable {m : Module} (hid : c.enters m.id) (hm : p.module? m.id = some m)

include hid hm

theorem ofGenerator {f : FuncDecl} (hf : f ∈ m.functions) :
    Together c.Vouched Eq (Check.ofGenerator p depth settings m f)
      (Check.ofGenerator p' depth settings m f) := by
  unfold Check.ofGenerator
  rw [← c.agrees.load hid hm, hsources]
  cases hload : ResourceDef.load p m f settings with
  | ok target =>
      have htarget := ResourceDef.isOf_of_load hf hload
      have hhome : c.owner target.module := by
        rw [htarget.module]
        exact ⟨hid, by rw [hm, Option.isSome_some]⟩
      exact c.ofFunctions hsources hhome fun g hg w hw => c.words hid hm w (htarget.words g hg hw)
  | error cause => exact together_pure rfl

theorem ofGenerators {fs : List FuncDecl} (h : ∀ f ∈ fs, f ∈ m.functions) :
    Together c.Vouched Eq (Check.ofGenerators p depth settings m fs)
      (Check.ofGenerators p' depth settings m fs) := by
  induction fs with
  | nil => exact together_pure rfl
  | cons f rest ih =>
      obtain ⟨hf, hrest⟩ := List.forall_mem_cons.mp h
      exact together_append id (c.ofGenerator hsources hid hm hf) (ih hrest)

theorem ofModule :
    Together c.Vouched Eq (Check.ofModule p depth settings m)
      (Check.ofModule p' depth settings m) := by
  unfold Check.ofModule
  have hgenerators : Together c.Vouched Eq
      (Check.ofGenerators p depth settings m (m.generators settings))
      (Check.ofGenerators p' depth settings m (m.generators settings)) :=
    c.ofGenerators hsources hid hm fun f hf => (List.mem_filter.mp hf).1
  generalize m.generators settings = fs at hgenerators
  cases fs with
  | nil => exact together_pure rfl
  | cons f rest =>
      refine together_bind (together_attempt (c.together_scope hid)) fun r q hrq => ?_
      cases r with
      | ok _ =>
          cases q with
          | ok _ => exact hgenerators
          | error _ => cases hrq
      | error e =>
          cases q with
          | ok _ => cases hrq
          | error e' =>
              obtain rfl : e = e' := hrq
              exact together_pure rfl

end Generators

/-- Both programs find the same about modules that they agree on. -/
theorem ofModules {ms : List Module}
    (h : ∀ m ∈ ms, c.enters m.id ∧ p.module? m.id = some m) :
    Together c.Vouched Eq (Check.ofModules p depth settings ms)
      (Check.ofModules p' depth settings ms) := by
  induction ms with
  | nil => exact together_pure rfl
  | cons m rest ih =>
      obtain ⟨hm, hrest⟩ := List.forall_mem_cons.mp h
      exact together_append id (c.ofModule hsources hm.1 hm.2) (ih hrest)

end Findings

end Confinement

end ResourceLint
