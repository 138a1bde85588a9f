import Mathlib.Data.List.Basic
import ResourceLint.Resource

/-!
# Reading a resource definition

A resource is declared by a composite literal, and so are its fields, so reading a definition goes
through lists within lists: the elements of the resource, the entries of its schema, the entries of
a field. In each of them the last element that gives something counts, and elements that give
nothing are passed over; only for lifecycle functions all elements count, in their order. What a
definition declares is stated here on the syntax alone, and `ResourceDef.load_extracts` states that
this is what is read whenever a definition can be read at all.
-/

namespace ResourceLint

section Passes

variable {α β γ σ ε : Type} {gives : α → β → Prop} {x : α} {xs : List α} {b c : β} {s s' : σ}
  {step : σ → α → Except ε σ}

/-- What the last of the elements that give something gives. -/
def LastOf (gives : α → β → Prop) (xs : List α) (b : β) : Prop :=
  ∃ before x after, xs = before ++ x :: after ∧ gives x b ∧ ∀ y ∈ after, ∀ c, ¬ gives y c

/-- All that the elements give, in their order. -/
inductive Collected (gives : α → β → Prop) : List α → List β → Prop where
  | nil : Collected gives [] []
  | take {x : α} {b : β} {xs : List α} {bs : List β} (hgives : gives x b)
      (h : Collected gives xs bs) : Collected gives (x :: xs) (b :: bs)
  | skip {x : α} {xs : List α} {bs : List β} (hsilent : ∀ b, ¬ gives x b)
      (h : Collected gives xs bs) : Collected gives (x :: xs) bs

theorem lastOf_cons_iff : LastOf gives (x :: xs) b ↔
    LastOf gives xs b ∨ gives x b ∧ ∀ y ∈ xs, ∀ c, ¬ gives y c := by
  constructor
  · rintro ⟨before, y, after, heq, hgives, hafter⟩
    cases before with
    | nil =>
        obtain ⟨rfl, rfl⟩ := List.cons.inj heq
        exact .inr ⟨hgives, hafter⟩
    | cons z before =>
        obtain ⟨rfl, rfl⟩ := List.cons.inj heq
        exact .inl ⟨before, y, after, rfl, hgives, hafter⟩
  · rintro (⟨before, y, after, rfl, hgives, hafter⟩ | ⟨hgives, hrest⟩)
    · exact ⟨x :: before, y, after, rfl, hgives, hafter⟩
    · exact ⟨[], x, xs, rfl, hgives, hrest⟩

theorem LastOf.exists_mem (h : LastOf gives xs b) : ∃ x ∈ xs, gives x b := by
  obtain ⟨before, x, after, rfl, hgives, -⟩ := h
  exact ⟨x, List.mem_append_right _ List.mem_cons_self, hgives⟩

theorem LastOf.unique (hb : LastOf gives xs b) (hc : LastOf gives xs c)
    (hgives : ∀ x b c, gives x b → gives x c → b = c) : b = c := by
  induction xs with
  | nil =>
      obtain ⟨x, hx, -⟩ := hb.exists_mem
      cases hx
  | cons x xs ih =>
      rcases lastOf_cons_iff.mp hb with hb | ⟨hb, hsilent⟩
      · rcases lastOf_cons_iff.mp hc with hc | ⟨-, hsilent⟩
        · exact ih hb hc
        · obtain ⟨y, hy, hgives⟩ := hb.exists_mem
          exact absurd hgives (hsilent y hy b)
      · rcases lastOf_cons_iff.mp hc with hc | ⟨hc, -⟩
        · obtain ⟨y, hy, hgives⟩ := hc.exists_mem
          exact absurd hgives (hsilent y hy c)
        · exact hgives x b c hb hc

theorem LastOf.map {f : γ → α} {ys : List γ} (h : LastOf (fun y => gives (f y)) ys b) :
    LastOf gives (ys.map f) b := by
  obtain ⟨before, y, after, rfl, hgives, hafter⟩ := h
  exact ⟨before.map f, f y, after.map f, by simp, hgives, List.forall_mem_map.mpr hafter⟩

theorem map_some_eq_ok_iff {r : Except ε α} : r.map some = .ok (some x) ↔ r = .ok x := by
  cases r <;> simp [Except.map]

theorem mapError_eq_ok_iff {ε' : Type} {r : Except ε α} {f : ε → ε'} :
    r.mapError f = .ok x ↔ r = .ok x := by
  cases r <;> simp [Except.mapError]

theorem bind_eq_ok_iff {r : Except ε α} {f : α → Except ε β} :
    r >>= f = .ok b ↔ ∃ x, r = .ok x ∧ f x = .ok b := by
  cases r <;> simp [bind, Except.bind]

theorem foldlM_cons_eq_ok (h : (x :: xs).foldlM step s = .ok s') :
    ∃ s₁, step s x = .ok s₁ ∧ xs.foldlM step s₁ = .ok s' := by
  rw [List.foldlM_cons] at h
  exact bind_eq_ok_iff.mp h

/-- If each element that gives something overwrites what is shown, the last one of them is shown. -/
theorem foldlM_last (view : σ → γ) (shown : β → γ → Prop) (h : xs.foldlM step s = .ok s')
    (hstep : ∀ s x s', step s x = .ok s' →
      (∃ b, gives x b ∧ shown b (view s')) ∨ (∀ b, ¬ gives x b) ∧ view s' = view s) :
    (∃ b, LastOf gives xs b ∧ shown b (view s')) ∨
      (∀ x ∈ xs, ∀ b, ¬ gives x b) ∧ view s' = view s := by
  induction xs generalizing s with
  | nil =>
      cases h
      exact .inr ⟨by simp, rfl⟩
  | cons x xs ih =>
      obtain ⟨s₁, hx, hxs⟩ := foldlM_cons_eq_ok h
      rcases ih hxs with ⟨b, hlast, hshown⟩ | ⟨hsilent, hview⟩
      · exact .inl ⟨b, lastOf_cons_iff.mpr (.inl hlast), hshown⟩
      · rw [hview]
        rcases hstep s x s₁ hx with ⟨b, hgives, hshown⟩ | ⟨hnone, hkept⟩
        · exact .inl ⟨b, lastOf_cons_iff.mpr (.inr ⟨hgives, hsilent⟩), hshown⟩
        · exact .inr ⟨List.forall_mem_cons.mpr ⟨hnone, hsilent⟩, hkept⟩

/-- If each element that gives something adds to what is shown, all of them are shown. -/
theorem foldlM_collected (view : σ → List β) (h : xs.foldlM step s = .ok s')
    (hstep : ∀ s x s', step s x = .ok s' →
      (∃ b, gives x b ∧ view s' = view s ++ [b]) ∨ (∀ b, ¬ gives x b) ∧ view s' = view s) :
    ∃ bs, Collected gives xs bs ∧ view s' = view s ++ bs := by
  induction xs generalizing s with
  | nil =>
      cases h
      exact ⟨[], .nil, (List.append_nil _).symm⟩
  | cons x xs ih =>
      obtain ⟨s₁, hx, hxs⟩ := foldlM_cons_eq_ok h
      obtain ⟨bs, hbs, hview⟩ := ih hxs
      rcases hstep s x s₁ hx with ⟨b, hgives, hadded⟩ | ⟨hnone, hkept⟩
      · exact ⟨b :: bs, .take hgives hbs, by rw [hview, hadded, List.append_assoc]; rfl⟩
      · exact ⟨bs, .skip hnone hbs, by rw [hview, hkept]⟩

/-- What holds after a pass if each element may undo it. -/
theorem foldlM_all (holds : σ → Prop) {fine : α → Prop} (h : xs.foldlM step s = .ok s')
    (hstep : ∀ s x s', step s x = .ok s' → (holds s' ↔ holds s ∧ fine x)) :
    holds s' ↔ holds s ∧ ∀ x ∈ xs, fine x := by
  induction xs generalizing s with
  | nil =>
      cases h
      simp
  | cons x xs ih =>
      obtain ⟨s₁, hx, hxs⟩ := foldlM_cons_eq_ok h
      rw [ih hxs, hstep s x s₁ hx, and_assoc, List.forall_mem_cons]

theorem foldlM_forall {fine : α → Prop} (h : xs.foldlM step s = .ok s')
    (hstep : ∀ s x s', step s x = .ok s' → fine x) : ∀ x ∈ xs, fine x := by
  have hfine := foldlM_all (fun _ => True) h fun s x s' hx => by simpa using hstep s x s' hx
  exact (hfine.mp trivial).2

end Passes

section CompositeLiterals

/-- A composite literal with these elements, under any number of `&` and parentheses. -/
inductive Expr.IsComposite : Expr → List Expr → Prop where
  | composite (span : Span) (type : Option Expr) (elements : List Expr) :
      IsComposite ⟨span, .composite type elements⟩ elements
  | addr (span : Span) {x : Expr} {elements : List Expr} (h : x.IsComposite elements) :
      IsComposite ⟨span, .unary .addr x⟩ elements
  | paren (span : Span) {x : Expr} {elements : List Expr} (h : x.IsComposite elements) :
      IsComposite ⟨span, .paren x⟩ elements

/-- A composite literal, or a variable bound to an assignment of a single one. -/
inductive Expr.Defines : Expr → List Expr → Prop where
  | composite {x : Expr} {elements : List Expr} (h : x.IsComposite elements) : Defines x elements
  | assigned (span : Span) (name : String) {stmt : Assignment} {value : Expr}
      {elements : List Expr} (hvalues : stmt.values = [value]) (h : value.IsComposite elements) :
      Defines ⟨span, .ident name (some (.assign stmt))⟩ elements

/-- The first return statement at the top of the body returns these elements, and nothing else. -/
def FuncDecl.Returns (f : FuncDecl) (elements : List Expr) : Prop :=
  ∃ before result after, f.body = before ++ .ret [result] :: after ∧
    (∀ stmt ∈ before, ∀ results, stmt ≠ .ret results) ∧ result.Defines elements

theorem Expr.isComposite_of_compositeElements? {elements : List Expr} (x : Expr)
    (h : x.compositeElements? = some elements) : x.IsComposite elements := by
  match x with
  | ⟨span, node⟩ =>
      cases node with
      | composite type _ =>
          cases h
          exact .composite span type elements
      | unary op y =>
          cases op with
          | addr => exact .addr span (isComposite_of_compositeElements? y h)
          | _ => cases h
      | paren y => exact .paren span (isComposite_of_compositeElements? y h)
      | _ => cases h

theorem Expr.compositeElements?_eq_some_iff {x : Expr} {elements : List Expr} :
    x.compositeElements? = some elements ↔ x.IsComposite elements := by
  constructor
  · exact Expr.isComposite_of_compositeElements? x
  · intro h
    induction h with
    | composite span type elements => rfl
    | addr span h ih => exact ih
    | paren span h ih => exact ih

theorem Expr.definitionElements_eq_ok_iff {x : Expr} {function : String} {elements : List Expr} :
    x.definitionElements function = .ok elements ↔ x.Defines elements := by
  constructor
  · intro h
    rw [Expr.definitionElements] at h
    split at h
    · next hcomposite =>
        cases h
        exact .composite (Expr.compositeElements?_eq_some_iff.mp hcomposite)
    · split at h
      · next name stmt hnode =>
          split at h
          · next value hvalues =>
              split at h
              · next hvalue =>
                  cases h
                  obtain ⟨span, node⟩ := x
                  obtain rfl : node = _ := hnode
                  exact .assigned span name hvalues (Expr.compositeElements?_eq_some_iff.mp hvalue)
              · cases h
          · cases h
      · cases h
  · intro h
    cases h with
    | composite h => rw [Expr.definitionElements, Expr.compositeElements?_eq_some_iff.mpr h]
    | assigned span name hvalues h =>
        simp [Expr.definitionElements, Expr.compositeElements?, hvalues,
          Expr.compositeElements?_eq_some_iff.mpr h]

theorem Stmt.returned?_eq_some_iff {stmt : Stmt} {results : List Expr} :
    stmt.returned? = some results ↔ stmt = .ret results := by
  cases stmt <;> simp [Stmt.returned?]

theorem FuncDecl.returnedElements_eq_ok_iff {f : FuncDecl} {elements : List Expr} :
    f.returnedElements = .ok (some elements) ↔ f.Returns elements := by
  have hsilent (stmt : Stmt) : stmt.returned? = none ↔ ∀ results, stmt ≠ .ret results := by
    simp only [Option.eq_none_iff_forall_ne_some, ne_eq, Stmt.returned?_eq_some_iff]
  rw [FuncDecl.returnedElements]
  constructor
  · intro h
    split at h
    · cases h
    · next result hfind =>
        obtain ⟨before, stmt, after, hbody, hstmt, hbefore⟩ := List.findSome?_eq_some_iff.mp hfind
        obtain rfl := Stmt.returned?_eq_some_iff.mp hstmt
        refine ⟨before, result, after, hbody, fun stmt hmem => ?_, ?_⟩
        · exact (hsilent stmt).mp (hbefore stmt hmem)
        · exact Expr.definitionElements_eq_ok_iff.mp (map_some_eq_ok_iff.mp h)
    · cases h
  · rintro ⟨before, result, after, hbody, hbefore, hdefines⟩
    have hfind : f.body.findSome? Stmt.returned? = some [result] :=
      List.findSome?_eq_some_iff.mpr ⟨before, .ret [result], after, hbody, rfl,
        fun stmt hmem => (hsilent stmt).mpr (hbefore stmt hmem)⟩
    rw [hfind]
    exact map_some_eq_ok_iff.mpr (Expr.definitionElements_eq_ok_iff.mpr hdefines)

end CompositeLiterals

namespace Expr

/-- An entry `key: value` under an identifier. -/
def IsEntry (e : Expr) (key : String) (value : Expr) : Prop :=
  ∃ k, e.node = .keyValue k value ∧ k.identName? = some key

/-- An entry `"key": value` under a string literal. -/
def IsKeyed (e : Expr) (key : String) (value : Expr) : Prop :=
  ∃ k, e.node = .keyValue k value ∧ k.stringText? = some key

variable {e k value v : Expr} {key name : String}

theorem isEntry_iff (hnode : e.node = .keyValue k value) (hname : k.identName? = some name) :
    e.IsEntry key v ↔ key = name ∧ v = value := by
  simp [IsEntry, hnode, hname, eq_comm, and_comm]

theorem IsEntry.unique (h : e.IsEntry key value) (h' : e.IsEntry name v) :
    name = key ∧ v = value := by
  obtain ⟨k, hnode, hname⟩ := h
  exact (isEntry_iff hnode hname).mp h'

theorem isKeyed_iff (hnode : e.node = .keyValue k value) (hname : k.stringText? = some name) :
    e.IsKeyed key v ↔ key = name ∧ v = value := by
  simp [IsKeyed, hnode, hname, eq_comm, and_comm]

end Expr

/-- The type that the entries of a field name: the one that the last `Type` entry selects, and no
name if there is no such entry. -/
def TypeName (entries : List Expr) (name : String) : Prop :=
  (∃ value x, LastOf (·.IsEntry "Type") entries value ∧ value.node = .selector x name) ∨
    (∀ e ∈ entries, ∀ value, ¬ e.IsEntry "Type" value) ∧ name = ""

/-- The entry does not open the field to users: it is not about that or says `false`. -/
def Expr.KeepsReadOnly (e : Expr) : Prop :=
  ∀ key value, e.IsEntry key value → key = "Optional" ∨ key = "Required" →
    value.identName? = some "false"

/-- What the schema says of a field that is declared by these entries. -/
structure SchemaField.Describes (settings : Settings) (entries : List Expr)
    (field : SchemaField) : Prop where
  expected : ∃ name, TypeName entries name ∧ field.expected = settings.expectation name
  readOnly : field.readOnly = true ↔ ∀ e ∈ entries, e.KeepsReadOnly

theorem TypeName.unique {entries : List Expr} {name name' : String} (h : TypeName entries name)
    (h' : TypeName entries name') : name = name' := by
  rcases h with ⟨value, x, hlast, hsel⟩ | ⟨hnone, rfl⟩
  · rcases h' with ⟨value', x', hlast', hsel'⟩ | ⟨hnone, -⟩
    · rw [hlast.unique hlast' fun _ _ _ hv hv' => (hv'.unique hv).2, hsel'] at hsel
      injection hsel with _ heq
      exact heq.symm
    · obtain ⟨e, he, hvalue⟩ := hlast.exists_mem
      exact absurd hvalue (hnone e he value)
  · rcases h' with ⟨value', x', hlast', -⟩ | ⟨-, rfl⟩
    · obtain ⟨e, he, hvalue⟩ := hlast'.exists_mem
      exact absurd hvalue (hnone e he value')
    · rfl

theorem SchemaField.Describes.unique {settings : Settings} {entries : List Expr}
    {field field' : SchemaField} (h : field.Describes settings entries)
    (h' : field'.Describes settings entries) : field = field' := by
  obtain ⟨name, hname, hexpected⟩ := h.expected
  obtain ⟨name', hname', hexpected'⟩ := h'.expected
  obtain ⟨expected, readOnly⟩ := field
  obtain ⟨expected', readOnly'⟩ := field'
  obtain rfl := hname.unique hname'
  obtain rfl : readOnly = readOnly' := Bool.eq_iff_iff.mpr (h.readOnly.trans h'.readOnly.symm)
  obtain rfl : expected = _ := hexpected
  obtain rfl : expected' = _ := hexpected'
  rfl

namespace FieldDraft

variable {field : String} {draft draft' : FieldDraft} {e : Expr}

/-- What one entry can do to the draft of a field. -/
theorem addEntry_cases (h : addEntry field draft e = .ok draft') :
    ∃ k key value, e.node = .keyValue k value ∧ k.identName? = some key ∧
      (key = "Type" ∧ (∃ x sel, value.node = .selector x sel ∧
          draft' = { draft with typeName := sel }) ∨
        (key = "Optional" ∨ key = "Required") ∧
          draft' = ⟨draft.typeName, draft.readOnly && value.identName? = some "false"⟩ ∨
        (key ≠ "Type" ∧ key ≠ "Optional" ∧ key ≠ "Required") ∧ draft' = draft) := by
  have hflag (value : Expr) (h : (if value.identName? = some "false" then .ok draft
      else .ok { draft with readOnly := false } : Except LoadError FieldDraft) = .ok draft') :
      draft' = ⟨draft.typeName, draft.readOnly && value.identName? = some "false"⟩ := by
    split at h
    · next hfalse =>
        cases h
        simp [hfalse]
    · next hfalse =>
        cases h
        simp [hfalse]
  rw [addEntry] at h
  split at h
  · next k value hnode =>
      split at h
      · cases h
      · next hkey =>
          split at h
          · next x sel hvalue =>
              cases h
              exact ⟨k, _, value, hnode, hkey, .inl ⟨rfl, x, sel, hvalue, rfl⟩⟩
          · cases h
      · next hkey => exact ⟨k, _, value, hnode, hkey, .inr (.inl ⟨.inl rfl, hflag value h⟩)⟩
      · next hkey => exact ⟨k, _, value, hnode, hkey, .inr (.inl ⟨.inr rfl, hflag value h⟩)⟩
      · next key htype hoptional hrequired hkey =>
          cases h
          exact ⟨k, key, value, hnode, hkey, .inr (.inr ⟨⟨htype, hoptional, hrequired⟩, rfl⟩)⟩
  · cases h

theorem addEntry_typeName (h : addEntry field draft e = .ok draft') :
    (∃ value, e.IsEntry "Type" value ∧ ∃ x, value.node = .selector x draft'.typeName) ∨
      (∀ value, ¬ e.IsEntry "Type" value) ∧ draft'.typeName = draft.typeName := by
  obtain ⟨k, key, value, hnode, hkey, h⟩ := addEntry_cases h
  simp only [Expr.isEntry_iff hnode hkey]
  rcases h with ⟨rfl, x, sel, hvalue, rfl⟩ | ⟨rfl | rfl, rfl⟩ | ⟨⟨hne, -, -⟩, rfl⟩
  · exact .inl ⟨value, ⟨rfl, rfl⟩, x, hvalue⟩
  · exact .inr ⟨by simp, rfl⟩
  · exact .inr ⟨by simp, rfl⟩
  · exact .inr ⟨fun _ heq => hne heq.1.symm, rfl⟩

theorem addEntry_readOnly (h : addEntry field draft e = .ok draft') :
    draft'.readOnly = true ↔ draft.readOnly = true ∧ e.KeepsReadOnly := by
  obtain ⟨k, key, value, hnode, hkey, h⟩ := addEntry_cases h
  have hkeeps : e.KeepsReadOnly ↔
      (key = "Optional" ∨ key = "Required" → value.identName? = some "false") := by
    simp [Expr.KeepsReadOnly, Expr.isEntry_iff hnode hkey]
  rw [hkeeps]
  rcases h with ⟨rfl, x, sel, -, rfl⟩ | ⟨hflag, rfl⟩ | ⟨⟨-, hoptional, hrequired⟩, rfl⟩
  · simp
  · simp [hflag]
  · simp [hoptional, hrequired]

/-- The draft of a field says what its entries say. -/
theorem ofEntries_describes {entries : List Expr} (settings : Settings)
    (h : ofEntries field entries = .ok draft) :
    SchemaField.Describes settings entries
      ⟨settings.expectation draft.typeName, draft.readOnly⟩ := by
  have htype := foldlM_last typeName
    (fun (value : Expr) name => ∃ x, value.node = .selector x name) h
    fun _ _ _ => addEntry_typeName
  have hreadOnly := foldlM_all (·.readOnly = true) h fun _ _ _ => addEntry_readOnly
  constructor
  · refine ⟨draft.typeName, ?_, rfl⟩
    rcases htype with ⟨value, hlast, x, hvalue⟩ | ⟨hnone, hname⟩
    · exact .inl ⟨value, x, hlast, hvalue⟩
    · exact .inr ⟨hnone, hname⟩
  · simpa [initial] using hreadOnly

end FieldDraft

/-- The function that a call of `fn` in the module calls: the one it is bound to, the one of that
name in the module, or the one of that name in a module that the file knows by the qualifier. -/
inductive Program.Calls (p : Program) (m : Module) : Expr → FuncDecl → Prop where
  | bound (span : Span) (name : String) (f : FuncDecl) :
      Calls p m ⟨span, .ident name (some (.func f))⟩ f
  | plain (span : Span) {name : String} {binding : Option Binding} {f : FuncDecl}
      (hbinding : ∀ g, binding ≠ some (.func g)) (h : m.plainFunction? name = some f) :
      Calls p m ⟨span, .ident name binding⟩ f
  | imported (span : Span) {x : Expr} {qualifier path sel : String} {target : Module}
      {f : FuncDecl} (hname : x.identName? = some qualifier)
      (hpath : p.qualifierTarget qualifier x.span.file m = .ok path)
      (hreach : p.reach m path = .ok target) (h : target.plainFunction? sel = some f) :
      Calls p m ⟨span, .selector x sel⟩ f

/-- The value declares a field by these entries: as a composite literal, or by calling a function
that returns one. -/
inductive Program.Declares (p : Program) (m : Module) : Expr → List Expr → Prop where
  | composite {value : Expr} {entries : List Expr} (h : value.IsComposite entries) :
      Declares p m value entries
  | call (span : Span) {fn : Expr} (args : List Expr) {f : FuncDecl} {entries : List Expr}
      (hcalls : p.Calls m fn f) (hreturns : f.Returns entries) :
      Declares p m ⟨span, .call fn args⟩ entries

namespace Program

variable {p : Program} {m : Module} {settings : Settings} {fn value e : Expr} {f : FuncDecl}
  {entries map : List Expr} {field : String} {draft : FieldDraft} {schema schema' : Schema}

theorem fieldBuilder_eq_ok_iff : p.fieldBuilder m fn = .ok (some f) ↔ p.Calls m fn f := by
  constructor
  · intro h
    obtain ⟨span, node⟩ := fn
    rw [fieldBuilder] at h
    split at h
    · next name g hnode =>
        cases h
        cases hnode
        exact .bound span name f
    · next name binding hbinding hnode =>
        cases hnode
        exact .plain span hbinding (Except.ok.inj h)
    · next x sel hnode =>
        cases hnode
        split at h
        · cases h
        · next hname =>
            obtain ⟨path, hpath, h⟩ := bind_eq_ok_iff.mp h
            obtain ⟨target, hreach, h⟩ := bind_eq_ok_iff.mp h
            split at h
            · next hplain =>
                cases h
                exact .imported span hname (mapError_eq_ok_iff.mp hpath)
                  (mapError_eq_ok_iff.mp hreach) hplain
            · cases h
    · cases h
  · intro h
    cases h with
    | bound span name f => rfl
    | plain span hbinding h =>
        rw [fieldBuilder]
        split
        · next hnode =>
            cases hnode
            exact absurd rfl (hbinding _)
        · next hnode =>
            cases hnode
            rw [h]
        · next hnode => cases hnode
        · next hident _ => exact absurd rfl (hident _ _)
    | imported span hname hpath hreach h =>
        simp only [fieldBuilder, hname, bind_eq_ok_iff, mapError_eq_ok_iff]
        exact ⟨_, hpath, _, hreach, by rw [h]; rfl⟩

theorem fieldDraft_of_declares (h : p.Declares m value entries) :
    p.fieldDraft m field value = (FieldDraft.ofEntries field entries).map some := by
  cases h with
  | composite h => rw [fieldDraft, Expr.compositeElements?_eq_some_iff.mpr h]
  | @call span fn args f entries hcalls hreturns =>
      simp only [fieldDraft, Expr.compositeElements?, fieldBuilder_eq_ok_iff.mpr hcalls]
      change f.returnedElements >>= _ = _
      rw [FuncDecl.returnedElements_eq_ok_iff.mpr hreturns]
      rfl

theorem exists_declares (h : p.fieldDraft m field value = .ok (some draft)) :
    ∃ entries, p.Declares m value entries ∧ FieldDraft.ofEntries field entries = .ok draft := by
  rw [fieldDraft] at h
  split at h
  · next entries hcomposite =>
      exact ⟨entries, .composite (Expr.compositeElements?_eq_some_iff.mp hcomposite),
        map_some_eq_ok_iff.mp h⟩
  · obtain ⟨span, node⟩ := value
    split at h
    · next fn args hnode =>
        cases hnode
        obtain ⟨builder?, hbuilder, h⟩ := bind_eq_ok_iff.mp h
        split at h
        · cases h
        · next f =>
            obtain ⟨entries?, hreturned, h⟩ := bind_eq_ok_iff.mp h
            split at h
            · cases h
            · next entries =>
                exact ⟨entries, .call span args (fieldBuilder_eq_ok_iff.mp hbuilder)
                  (FuncDecl.returnedElements_eq_ok_iff.mp hreturned), map_some_eq_ok_iff.mp h⟩
    · cases h

theorem Declares.unique {entries' : List Expr} (h : p.Declares m value entries)
    (h' : p.Declares m value entries') : entries = entries' := by
  cases h with
  | composite h =>
      rw [← Expr.compositeElements?_eq_some_iff] at h
      cases h' with
      | composite h' =>
          rw [← Expr.compositeElements?_eq_some_iff, h] at h'
          exact Option.some.inj h'
      | call span args hcalls hreturns => simp [Expr.compositeElements?] at h
  | call span args hcalls hreturns =>
      cases h' with
      | composite h' => cases h'
      | call span args hcalls' hreturns' =>
          rw [← fieldBuilder_eq_ok_iff] at hcalls hcalls'
          rw [hcalls] at hcalls'
          cases hcalls'
          rw [← FuncDecl.returnedElements_eq_ok_iff] at hreturns hreturns'
          rw [hreturns] at hreturns'
          cases hreturns'
          rfl

/-- The element declares the field `k` by these entries. -/
def DeclaresField (p : Program) (m : Module) (k : String) (e : Expr) (entries : List Expr) : Prop :=
  ∃ value, e.IsKeyed k value ∧ p.Declares m value entries

theorem DeclaresField.unique {k : String} {entries' : List Expr}
    (h : p.DeclaresField m k e entries) (h' : p.DeclaresField m k e entries') :
    entries = entries' := by
  obtain ⟨value, ⟨key, hnode, hkey⟩, hdeclares⟩ := h
  obtain ⟨value', hkeyed, hdeclares'⟩ := h'
  obtain ⟨-, rfl⟩ := (Expr.isKeyed_iff hnode hkey).mp hkeyed
  exact hdeclares.unique hdeclares'

/-- What one element can do to the schema. -/
theorem addField_cases {i : Nat}
    (h : p.addField m settings schema (e, i) = .ok schema') :
    ∃ key value, e.IsKeyed key value ∧
      ((∃ entries field, p.Declares m value entries ∧ field.Describes settings entries ∧
          schema' = schema.insert key field) ∨
        (∀ entries, ¬ p.Declares m value entries) ∧ schema' = schema) := by
  rw [addField] at h
  split at h
  · next k value hnode =>
      split at h
      · cases h
      · next key hkey =>
          refine ⟨key, value, ⟨k, hnode, hkey⟩, ?_⟩
          obtain ⟨draft?, hdraft, h⟩ := bind_eq_ok_iff.mp h
          split at h
          · cases h
            -- Entries would have made a draft or an error, so there are none.
            refine .inr ⟨fun entries hdeclares => ?_, rfl⟩
            rw [fieldDraft_of_declares hdeclares] at hdraft
            cases hentries : FieldDraft.ofEntries key entries <;>
              simp [hentries, Except.map] at hdraft
          · next draft =>
              cases h
              obtain ⟨entries, hdeclares, hentries⟩ := exists_declares hdraft
              exact .inl ⟨entries, _, hdeclares,
                FieldDraft.ofEntries_describes settings hentries, rfl⟩
  · cases h

theorem addField_find? {i : Nat} (k : String)
    (h : p.addField m settings schema (e, i) = .ok schema') :
    (∃ entries, p.DeclaresField m k e entries ∧
        ∃ field : SchemaField, field.Describes settings entries ∧ schema'.find? k = some field) ∨
      (∀ entries, ¬ p.DeclaresField m k e entries) ∧ schema'.find? k = schema.find? k := by
  obtain ⟨key, value, ⟨x, hnode, hkey⟩, h⟩ := addField_cases h
  simp only [DeclaresField, Expr.isKeyed_iff hnode hkey]
  by_cases heq : k = key
  · subst heq
    rcases h with ⟨entries, field, hdeclares, hdescribes, rfl⟩ | ⟨hnone, rfl⟩
    · exact .inl ⟨entries, ⟨value, ⟨rfl, rfl⟩, hdeclares⟩, field, hdescribes, by simp⟩
    · refine .inr ⟨?_, rfl⟩
      rintro entries ⟨_, ⟨-, rfl⟩, hdeclares⟩
      exact hnone entries hdeclares
  · refine .inr ⟨fun entries hdeclares => ?_, ?_⟩
    · obtain ⟨_, ⟨hkey, -⟩, -⟩ := hdeclares
      exact heq hkey
    · rcases h with ⟨entries, field, -, -, rfl⟩ | ⟨-, rfl⟩
      · rw [Table.find?_insert, if_neg heq]
      · rfl

theorem readSchema_keyed (h : p.readSchema m settings map = .ok schema) :
    ∀ e ∈ map, ∃ key value, e.IsKeyed key value := by
  have hkeyed : ∀ x ∈ map.zipIdx, ∃ key value, x.1.IsKeyed key value := by
    refine foldlM_forall h fun schema x schema' hx => ?_
    obtain ⟨key, value, hkeyed, -⟩ := addField_cases hx
    exact ⟨key, value, hkeyed⟩
  rw [← List.zipIdx_map_fst 0 map]
  exact List.forall_mem_map.mpr hkeyed

/-- The schema has the fields that a map declares, each as the last declaration of it describes. -/
theorem readSchema_find?_iff (h : p.readSchema m settings map = .ok schema) (k : String)
    (field : SchemaField) : schema.find? k = some field ↔
      ∃ entries, LastOf (p.DeclaresField m k) map entries ∧ field.Describes settings entries := by
  have hlast := foldlM_last (·.find? k)
    (fun entries found => ∃ field : SchemaField, field.Describes settings entries ∧
      found = some field) h fun _ _ _ => addField_find? k
  constructor
  · intro hfind
    rcases hlast with ⟨entries, hlast, field', hdescribes, hfind'⟩ | ⟨-, hnone⟩
    · rw [hfind'] at hfind
      cases hfind
      refine ⟨entries, ?_, hdescribes⟩
      rw [← List.zipIdx_map_fst 0 map]
      exact hlast.map
    · rw [hfind] at hnone
      cases hnone
  · rintro ⟨entries, hdeclares, hdescribes⟩
    rcases hlast with ⟨entries', hlast, field', hdescribes', hfind⟩ | ⟨hnone, -⟩
    · -- The pass goes over the elements with their positions, which declare nothing.
      have hlast := hlast.map
      rw [List.zipIdx_map_fst] at hlast
      obtain rfl := hdeclares.unique hlast fun _ _ _ => DeclaresField.unique
      rw [hfind, hdescribes.unique hdescribes']
    · obtain ⟨e, he, hdeclares⟩ := hdeclares.exists_mem
      rw [← List.zipIdx_map_fst 0 map] at he
      obtain ⟨x, hx, rfl⟩ := List.mem_map.mp he
      exact absurd hdeclares (hnone x hx entries)

end Program

/-- The function of the module that an identifier names: the one it is bound to, or without a
binding the one of that name. -/
inductive Module.Names (m : Module) : Expr → FuncDecl → Prop where
  | bound (span : Span) (name : String) (f : FuncDecl) :
      Names m ⟨span, .ident name (some (.func f))⟩ f
  | plain (span : Span) {name : String} {f : FuncDecl} (h : m.plainFunction? name = some f) :
      Names m ⟨span, .ident name none⟩ f

namespace ResourceDef

/-- The element gives the resource this lifecycle function. -/
def GivesLifecycle (m : Module) (settings : Settings) (e : Expr) (f : FuncDecl) : Prop :=
  ∃ key value, e.IsEntry key value ∧ key ∈ settings.lifecycleKeys ∧ m.Names value f

/-- The element gives the resource the schema that this map declares. -/
def GivesSchema (settings : Settings) (e : Expr) (map : List Expr) : Prop :=
  ∃ value type, e.IsEntry "Schema" value ∧ "Schema" ∉ settings.lifecycleKeys ∧
    value.node = .composite type map

variable {p : Program} {m : Module} {settings : Settings} {f : FuncDecl} {e value : Expr}
  {d d' : ResourceDef}

theorem lifecycleFunction?_eq_some_iff : lifecycleFunction? m value = some f ↔ m.Names value f := by
  constructor
  · intro h
    obtain ⟨span, node⟩ := value
    rw [lifecycleFunction?] at h
    split at h
    · next name g hnode =>
        cases h
        cases hnode
        exact .bound span name f
    · next name hnode =>
        cases hnode
        exact .plain span h
    · cases h
  · intro h
    cases h with
    | bound span name f => rfl
    | plain span h => exact h

/-- What one element can do to the definition. -/
theorem addElement_cases (h : addElement p m settings d e = .ok d') :
    (∃ key value, e.IsEntry key value ∧ key ∈ settings.lifecycleKeys ∧
        d' = { d with lifecycle := d.lifecycle ++ (lifecycleFunction? m value).toList }) ∨
      (∃ map schema, GivesSchema settings e map ∧ p.readSchema m settings map = .ok schema ∧
        d' = { d with schema }) ∨
      (∀ key value, e.IsEntry key value → key ∉ settings.lifecycleKeys ∧ key ≠ "Schema") ∧
        d' = d := by
  have hlisted (key : String) :
      settings.isLifecycleKey key = true ↔ key ∈ settings.lifecycleKeys := by
    simp [Settings.isLifecycleKey]
  rw [addElement] at h
  split at h
  · next span key binding value hnode =>
      have hkey : (⟨span, .ident key binding⟩ : Expr).identName? = some key := rfl
      simp only [Expr.isEntry_iff hnode hkey]
      split at h
      · next hlifecycle =>
          cases h
          exact .inl ⟨key, value, ⟨rfl, rfl⟩, (hlisted key).mp hlifecycle, rfl⟩
      · next hlifecycle =>
          have hunlisted : key ∉ settings.lifecycleKeys := mt (hlisted key).mpr hlifecycle
          split at h
          · next hschema =>
              subst hschema
              split at h
              · next type map hvalue =>
                  obtain ⟨schema, hread, h⟩ := bind_eq_ok_iff.mp h
                  cases h
                  exact .inr (.inl ⟨map, schema, ⟨value, type, ⟨_, hnode, hkey⟩, hunlisted, hvalue⟩,
                    hread, rfl⟩)
              · cases h
          · next hschema =>
              cases h
              refine .inr (.inr ⟨?_, rfl⟩)
              rintro _ _ ⟨rfl, -⟩
              exact ⟨hunlisted, hschema⟩
  · next hnode =>
      cases h
      refine .inr (.inr ⟨?_, rfl⟩)
      rintro key value ⟨⟨span, node⟩, hkeyValue, hkey⟩
      cases node with
      | ident name binding => exact (hnode span name binding value hkeyValue).elim
      | _ => cases hkey

theorem addElement_lifecycle (h : addElement p m settings d e = .ok d') :
    (∃ g, GivesLifecycle m settings e g ∧ d'.lifecycle = d.lifecycle ++ [g]) ∨
      (∀ g, ¬ GivesLifecycle m settings e g) ∧ d'.lifecycle = d.lifecycle := by
  rcases addElement_cases h with
    ⟨key, value, hentry, hlisted, rfl⟩ | ⟨map, schema, hmap, -, rfl⟩ | ⟨hother, rfl⟩
  · cases hfunction : lifecycleFunction? m value with
    | some g =>
        have hnames := lifecycleFunction?_eq_some_iff.mp hfunction
        exact .inl ⟨g, ⟨key, value, hentry, hlisted, hnames⟩, rfl⟩
    | none =>
        refine .inr ⟨?_, List.append_nil _⟩
        rintro g ⟨key', value', hentry', -, hnames⟩
        obtain ⟨-, rfl⟩ := hentry.unique hentry'
        rw [lifecycleFunction?_eq_some_iff.mpr hnames] at hfunction
        cases hfunction
  · refine .inr ⟨?_, rfl⟩
    obtain ⟨value, type, hentry, hunlisted, -⟩ := hmap
    rintro g ⟨key', value', hentry', hlisted, -⟩
    obtain ⟨rfl, -⟩ := hentry.unique hentry'
    exact hunlisted hlisted
  · refine .inr ⟨?_, rfl⟩
    rintro g ⟨key, value, hentry, hlisted, -⟩
    exact (hother key value hentry).1 hlisted

theorem GivesSchema.unique {map map' : List Expr} (h : GivesSchema settings e map)
    (h' : GivesSchema settings e map') : map = map' := by
  obtain ⟨value, type, hentry, -, hvalue⟩ := h
  obtain ⟨value', type', hentry', -, hvalue'⟩ := h'
  obtain ⟨-, rfl⟩ := hentry.unique hentry'
  rw [hvalue] at hvalue'
  injection hvalue'

theorem addElement_schema (h : addElement p m settings d e = .ok d') :
    (∃ map, GivesSchema settings e map ∧ p.readSchema m settings map = .ok d'.schema) ∨
      (∀ map, ¬ GivesSchema settings e map) ∧ d'.schema = d.schema := by
  rcases addElement_cases h with
    ⟨key, value, hentry, hlisted, rfl⟩ | ⟨map, schema, hmap, hread, rfl⟩ | ⟨hother, rfl⟩
  · refine .inr ⟨?_, rfl⟩
    rintro map ⟨value', type, hentry', hunlisted, -⟩
    obtain ⟨rfl, -⟩ := hentry.unique hentry'
    exact hunlisted hlisted
  · exact .inl ⟨map, hmap, hread⟩
  · refine .inr ⟨?_, rfl⟩
    rintro map ⟨value, type, hentry, -⟩
    exact (hother "Schema" value hentry).2 rfl

/-- Unless `Schema` is the key of lifecycle functions, each element under it is a map from string
literals. -/
theorem addElement_keyed (h : addElement p m settings d e = .ok d')
    (hunlisted : "Schema" ∉ settings.lifecycleKeys) (hentry : e.IsEntry "Schema" value) :
    ∃ map, GivesSchema settings e map ∧ ∀ x ∈ map, ∃ key v, x.IsKeyed key v := by
  rcases addElement_cases h with
    ⟨key, value', hentry', hlisted, -⟩ | ⟨map, schema, hmap, hread, -⟩ | ⟨hother, -⟩
  · obtain ⟨rfl, -⟩ := hentry.unique hentry'
    exact absurd hlisted hunlisted
  · exact ⟨map, hmap, Program.readSchema_keyed hread⟩
  · exact absurd rfl (hother "Schema" value hentry).2

theorem load_eq_ok (h : load p m f settings = .ok d) : ∃ elements, f.Returns elements ∧
    elements.foldlM (addElement p m settings) ⟨f.name, m.id, ∅, []⟩ = .ok d := by
  obtain ⟨elements?, hreturned, h⟩ := bind_eq_ok_iff.mp h
  split at h
  · cases h
  · next elements => exact ⟨elements, FuncDecl.returnedElements_eq_ok_iff.mp hreturned, h⟩

/-- What a definition says once it is read. Its fields are those of the last schema, each as the
last declaration of it describes, and its lifecycle functions are those that its elements name. -/
theorem load_extracts (h : load p m f settings = .ok d) :
    ∃ elements, f.Returns elements ∧
      ("Schema" ∉ settings.lifecycleKeys → ∀ e ∈ elements, ∀ value, e.IsEntry "Schema" value →
        ∃ map, GivesSchema settings e map ∧ ∀ x ∈ map, ∃ key v, x.IsKeyed key v) ∧
      (∀ k field, d.schema.find? k = some field ↔
        ∃ map entries, LastOf (GivesSchema settings) elements map ∧
          LastOf (p.DeclaresField m k) map entries ∧ field.Describes settings entries) ∧
      Collected (GivesLifecycle m settings) elements d.lifecycle := by
  obtain ⟨elements, hreturns, h⟩ := load_eq_ok h
  refine ⟨elements, hreturns, fun hunlisted => ?_, fun k field => ?_, ?_⟩
  · exact foldlM_forall h fun _ _ _ hx _ => addElement_keyed hx hunlisted
  · have hlast := foldlM_last (·.schema) (p.readSchema m settings · = .ok ·) h
      fun _ _ _ => addElement_schema
    -- Each schema replaces the one before it as a whole, so only the last map matters.
    rcases hlast with ⟨map, hmap, hread⟩ | ⟨hnone, hempty⟩
    · rw [Program.readSchema_find?_iff hread]
      constructor
      · rintro ⟨entries, hentries⟩
        exact ⟨map, entries, hmap, hentries⟩
      · rintro ⟨map', entries, hmap', hentries⟩
        obtain rfl := hmap.unique hmap' fun _ _ _ => GivesSchema.unique
        exact ⟨entries, hentries⟩
    · constructor
      · intro hfind
        rw [hempty, Table.find?_empty] at hfind
        cases hfind
      · rintro ⟨map, entries, hmap, -⟩
        obtain ⟨e, he, hgives⟩ := hmap.exists_mem
        exact absurd hgives (hnone e he map)
  · obtain ⟨functions, hcollected, hlifecycle⟩ := foldlM_collected (·.lifecycle) h
      fun _ _ _ => addElement_lifecycle
    rw [hlifecycle]
    exact hcollected

end ResourceDef

namespace Reading

def plain (name : String) : Expr :=
  ⟨.zero, .ident name none⟩

/-- `key: value` -/
def entry (key : String) (value : Expr) : Expr :=
  ⟨.zero, .keyValue (plain key) value⟩

/-- `"key": value` -/
def keyed (key : String) (value : Expr) : Expr :=
  ⟨.zero, .keyValue ⟨.zero, .literal .string key⟩ value⟩

def literal (elements : List Expr) : Expr :=
  ⟨.zero, .composite none elements⟩

/-- `schema.name` -/
def schemaType (name : String) : Expr :=
  ⟨.zero, .selector (plain "schema") name⟩

/-- `func name() { return result }` -/
def returning (name : String) (result : Expr) : FuncDecl :=
  ⟨name, none, [], [], [.ret [result]], .zero⟩

def sizeEntries : List Expr :=
  [entry "Type" (schemaType "TypeInt"), entry "Required" (plain "true")]

def nameEntries : List Expr :=
  [entry "Type" (schemaType "TypeString"), entry "Optional" (plain "false")]

/-- Declares `name` twice, and `size` by calling a function. -/
def diskFields : List Expr :=
  [keyed "name" (literal [entry "Type" (schemaType "TypeMap"), entry "Required" (plain "true")]),
    keyed "size" ⟨.zero, .call (plain "sizeField") []⟩, keyed "name" (literal nameEntries)]

def readDisk : FuncDecl :=
  ⟨"readDisk", none, [], [], [], .zero⟩

def createDisk : FuncDecl :=
  ⟨"createDisk", none, [], [], [], .zero⟩

/-- Has two schemas, of which the second counts. Of the functions, one is bound, one is declared
elsewhere in the module, and one is not known. -/
def diskElements : List Expr :=
  [entry "Schema" (literal [keyed "path" (literal [])]),
    entry "Read" ⟨.zero, .ident "readDisk" (some (.func readDisk))⟩,
    entry "Schema" (literal diskFields), entry "Update" (plain "updateDisk"),
    entry "Create" (plain "createDisk")]

/-- Returns a pointer to the definition. -/
def disk : FuncDecl :=
  returning "disk" ⟨.zero, .unary .addr (literal diskElements)⟩

def provider : Module :=
  ⟨"provider", "provider", [], [disk, createDisk, returning "sizeField" (literal sizeEntries)],
    [], [], ∅⟩

def diskDef : ResourceDef where
  name := "disk"
  module := "provider"
  schema := Table.ofList
    [("name", ⟨.category .string, true⟩), ("size", ⟨.category .int, false⟩)]
  lifecycle := [readDisk, createDisk]

theorem disk_extracts :
    ResourceDef.load (.empty []) provider disk .default = .ok diskDef ∧
      ∃ elements, disk.Returns elements ∧
        (∃ map entries, LastOf (ResourceDef.GivesSchema .default) elements map ∧
          LastOf ((Program.empty []).DeclaresField provider "name") map entries ∧
          SchemaField.Describes .default entries ⟨.category .string, true⟩) ∧
        (∃ map entries, LastOf (ResourceDef.GivesSchema .default) elements map ∧
          LastOf ((Program.empty []).DeclaresField provider "size") map entries ∧
          SchemaField.Describes .default entries ⟨.category .int, false⟩) ∧
        Collected (ResourceDef.GivesLifecycle provider .default) elements
          [readDisk, createDisk] := by
  have hload : ResourceDef.load (.empty []) provider disk .default = .ok diskDef := rfl
  obtain ⟨elements, hreturns, -, hschema, hlifecycle⟩ := ResourceDef.load_extracts hload
  exact ⟨hload, elements, hreturns, (hschema "name" _).mp rfl, (hschema "size" _).mp rfl,
    hlifecycle⟩

/-- Takes what stands under `Schema` for a lifecycle function. -/
def skipping : Settings :=
  { Settings.default with lifecycleKeys := ["Read", "Schema"] }

/-- The last `Schema` of the disk declares `name`, but no schema is read. -/
theorem schema_can_be_skipped :
    disk.Returns diskElements ∧
      LastOf (·.IsEntry "Schema") diskElements (literal diskFields) ∧
      LastOf ((Program.empty []).DeclaresField provider "name") diskFields nameEntries ∧
      ∃ d, ResourceDef.load (.empty []) provider disk skipping = .ok d ∧
        d.schema.find? "name" = none := by
  refine ⟨⟨[], _, [], rfl, by simp, .composite (.addr _ (.composite _ _ _))⟩,
    ⟨diskElements.take 2, _, diskElements.drop 3, rfl, ⟨_, rfl, rfl⟩, ?_⟩,
    ⟨diskFields.take 2, _, [], rfl, ⟨_, ⟨_, rfl, rfl⟩, .composite (.composite _ _ _)⟩, by simp⟩,
    _, rfl, rfl⟩
  simp [diskElements, Expr.IsEntry, entry, plain, Expr.identName?]

end Reading

end ResourceLint
