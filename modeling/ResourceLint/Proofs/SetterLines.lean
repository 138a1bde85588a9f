import Mathlib.Data.List.TakeWhile
import ResourceLint.SetterScan

/-!
# The grammar of setter lines

The scan of a source text against the form of the lines that it is after. A line sets a key if it
can be cut into a tab, something before the call, the opening of the call, the key in quotation
marks and something after it. A line that holds several calls can be cut in several ways; then the
cut with the most text before the call counts. The scan finds exactly the keys of such lines, in
the order of the lines (`keys_eq_iff`).
-/

namespace ResourceLint

namespace Text

variable {c : Char} {line rest : List Char} {ls : List (List Char)}

/-- A line without the carriage return at its end. -/
def withoutReturn (line : List Char) : List Char :=
  if line.getLast? = some '\r' then line.dropLast else line

/-- The lines of a text: every line feed ends a line, together with a carriage return before it,
and what follows the last line feed is a line unless it is empty. -/
inductive Lines : List Char → List (List Char) → Prop where
  | none : Lines [] []
  | last {line : List Char} (hne : line ≠ []) (hfree : '\n' ∉ line) : Lines line [line]
  | feed {line rest : List Char} {ls : List (List Char)} (hfree : '\n' ∉ line)
      (h : Lines rest ls) : Lines (line ++ '\n' :: rest) (withoutReturn line :: ls)

theorem withoutReturn_cons (h : c = '\r' → line ≠ []) :
    withoutReturn (c :: line) = c :: withoutReturn line := by
  cases line with
  | nil =>
      have hc : c ≠ '\r' := fun hc => h hc rfl
      simp [withoutReturn, hc]
  | cons d line =>
      rw [withoutReturn, withoutReturn, List.getLast?_cons_cons]
      split
      · rw [List.dropLast_cons_of_ne_nil (List.cons_ne_nil d line)]
      · rfl

/-- A character that ends no line belongs to the first line of what follows. -/
theorem lines_cons (hc : c ≠ '\n') (hreturn : c = '\r' → ∀ rest', rest ≠ '\n' :: rest') :
    lines (c :: rest) = (c :: (lines rest).headD []) :: (lines rest).tail := by
  rw [lines]
  · cases lines rest <;> rfl
  · exact hc
  · exact fun rest' hr heq => hreturn hr rest' heq

theorem lines_of_free (hne : line ≠ []) (hfree : '\n' ∉ line) : lines line = [line] := by
  induction line with
  | nil => exact absurd rfl hne
  | cons c line ih =>
      obtain ⟨hc, hfree⟩ : '\n' ≠ c ∧ '\n' ∉ line := by simpa [not_or] using hfree
      rw [lines_cons (Ne.symm hc)]
      · cases line with
        | nil => rfl
        | cons d line => rw [ih (List.cons_ne_nil d line) hfree, List.headD_cons, List.tail_cons]
      · rintro - rest' rfl
        exact hfree List.mem_cons_self

theorem lines_feed (hfree : '\n' ∉ line) :
    lines (line ++ '\n' :: rest) = withoutReturn line :: lines rest := by
  induction line with
  | nil => rw [List.nil_append, lines]; rfl
  | cons c line ih =>
      obtain ⟨hc, hfree⟩ : '\n' ≠ c ∧ '\n' ∉ line := by simpa [not_or] using hfree
      -- A carriage return at the end of the line is not part of it.
      by_cases hlast : c = '\r' ∧ line = []
      · obtain ⟨rfl, rfl⟩ := hlast
        rw [List.cons_append, List.nil_append, lines]
        rfl
      · rw [List.cons_append, lines_cons (Ne.symm hc), ih hfree,
          withoutReturn_cons fun hr hnil => hlast ⟨hr, hnil⟩, List.headD_cons, List.tail_cons]
        intro hr rest' heq
        cases line with
        | nil => exact hlast ⟨hr, rfl⟩
        | cons d line =>
            obtain ⟨rfl, -⟩ := List.cons.inj heq
            exact hfree List.mem_cons_self

theorem lines_spec (text : List Char) : Lines text (lines text) := by
  by_cases hfeed : '\n' ∈ text
  · obtain ⟨line, rest, htext, hfree⟩ := List.eq_append_cons_of_mem hfeed
    rw [htext, lines_feed hfree]
    exact .feed hfree (lines_spec rest)
  · cases text with
    | nil => exact .none
    | cons c text =>
        rw [lines_of_free (List.cons_ne_nil c text) hfeed]
        exact .last (List.cons_ne_nil c text) hfeed
termination_by text.length
decreasing_by
  rw [htext, List.length_append, List.length_cons]
  omega

theorem lines_iff (text : List Char) (ls : List (List Char)) : Lines text ls ↔ lines text = ls := by
  constructor
  · intro h
    induction h with
    | none => rfl
    | last hne hfree => exact lines_of_free hne hfree
    | feed hfree h ih => rw [lines_feed hfree, ih]
  · rintro rfl
    exact lines_spec text

end Text

namespace SetterScan

variable {text text' line before key rest before' key' rest' : List Char}

/-- Letters, digits and underscores of the basic alphabet. -/
def IsKeyChar (c : Char) : Prop :=
  'A' ≤ c ∧ c ≤ 'Z' ∨ 'a' ≤ c ∧ c ≤ 'z' ∨ '0' ≤ c ∧ c ≤ '9' ∨ c = '_'

/-- The text is a call of a setter: its opening, the key in quotation marks, and more after it. -/
structure IsCall (text key rest : List Char) : Prop where
  text_eq : text = "d.Set(\"".toList ++ key ++ '"' :: rest
  key_ne : key ≠ []
  key_chars : ∀ c ∈ key, IsKeyChar c
  rest_ne : rest ≠ []

/-- The line is a tab, something before a call, and the call. -/
structure Sets (line before key rest : List Char) : Prop where
  before_ne : before ≠ []
  call : ∃ text, line = '\t' :: before ++ text ∧ IsCall text key rest

/-- The line sets the key, with at least as much before the call as in any other way to read it. -/
def SetsLast (line key : List Char) : Prop :=
  ∃ before rest, Sets line before key rest ∧
    ∀ before' key' rest', Sets line before' key' rest' → before'.length ≤ before.length

/-- One key for each line that sets one, in the order of the lines. -/
inductive Scanned : List (List Char) → List String → Prop where
  | nil : Scanned [] []
  | key {line key : List Char} {lines : List (List Char)} {keys : List String}
      (hline : SetsLast line key) (h : Scanned lines keys) :
      Scanned (line :: lines) (String.ofList key :: keys)
  | skip {line : List Char} {lines : List (List Char)} {keys : List String}
      (hline : ¬ ∃ before key rest, Sets line before key rest) (h : Scanned lines keys) :
      Scanned (line :: lines) keys

theorem isWord_iff (c : Char) : isWord c = true ↔ IsKeyChar c := by
  unfold isWord IsKeyChar Char.isAlphanum Char.isAlpha Char.isUpper Char.isLower Char.isDigit
  simp only [Char.le_def, Bool.or_eq_true, Bool.and_eq_true, decide_eq_true_eq, beq_iff_eq,
    ge_iff_le, or_assoc]

/-- A call starts with its opening, and its key ends at the first character that no key has. -/
theorem keyAt?_eq_some_iff : keyAt? text = some key ↔ ∃ rest, IsCall text key rest := by
  constructor
  · intro h
    rw [keyAt?] at h
    split at h
    · next hopening =>
        obtain ⟨tail, rfl⟩ := List.isPrefixOf_iff_prefix.mp hopening
        rw [List.drop_left] at h
        dsimp only at h
        split at h
        · next c word d rest hword hrest =>
            cases h
            refine ⟨d :: rest, ?_, List.cons_ne_nil c word, ?_, List.cons_ne_nil d rest⟩
            · rw [← hword, ← hrest, List.append_assoc, List.takeWhile_append_dropWhile]
              rfl
            · intro x hx
              rw [← hword] at hx
              exact (isWord_iff x).mp (List.mem_takeWhile_imp hx)
        · cases h
    · cases h
  · rintro ⟨rest, hcall⟩
    have hword : ∀ c ∈ key, isWord c = true := fun c hc => (isWord_iff c).mpr (hcall.key_chars c hc)
    obtain ⟨c, word, rfl⟩ := List.exists_cons_of_ne_nil hcall.key_ne
    obtain ⟨d, rest, rfl⟩ := List.exists_cons_of_ne_nil hcall.rest_ne
    have htext : text = opening ++ (c :: word ++ '"' :: d :: rest) := by
      rw [hcall.text_eq, List.append_assoc]
      rfl
    have hmark : isWord '"' = false := by decide
    rw [keyAt?, htext, if_pos (List.isPrefixOf_iff_prefix.mpr (List.prefix_append ..)),
      List.drop_left]
    dsimp only
    rw [List.takeWhile_append_of_pos hword, List.dropWhile_append_of_pos hword]
    simp [hmark]

section LastCall

theorem lastKey?_eq_none (h : lastKey? text = none) (hsuffix : text' <:+ text) :
    keyAt? text' = none := by
  induction text with
  | nil =>
      rw [List.suffix_nil.mp hsuffix]
      rfl
  | cons c text ih =>
      rw [lastKey?] at h
      split at h
      · cases h
      · next hnone =>
          rcases List.suffix_cons_iff.mp hsuffix with rfl | hsuffix
          · exact h
          · exact ih hnone hsuffix

/-- The key that is found is that of the call with the least text from its start on. -/
theorem lastKey?_eq_some (h : lastKey? text = some key) :
    ∃ call, call <:+ text ∧ keyAt? call = some key ∧
      ∀ text', text' <:+ text → keyAt? text' ≠ none → call.length ≤ text'.length := by
  induction text with
  | nil => cases h
  | cons c text ih =>
      rw [lastKey?] at h
      split at h
      · next key' hsome =>
          cases h
          obtain ⟨call, hcall, hkey, hleast⟩ := ih hsome
          refine ⟨call, hcall.trans (List.suffix_cons c text), hkey, ?_⟩
          intro text' hsuffix hne
          rcases List.suffix_cons_iff.mp hsuffix with rfl | hsuffix
          · have := hcall.length_le
            rw [List.length_cons]
            omega
          · exact hleast text' hsuffix hne
      · next hnone =>
          refine ⟨c :: text, List.suffix_rfl, h, ?_⟩
          intro text' hsuffix hne
          rcases List.suffix_cons_iff.mp hsuffix with rfl | hsuffix
          · exact Nat.le_refl _
          · exact absurd (lastKey?_eq_none hnone hsuffix) hne

theorem sets_of_suffix (c : Char) (hsuffix : text <:+ text') (hkey : keyAt? text = some key) :
    ∃ before rest, Sets ('\t' :: c :: text') before key rest ∧
      before.length + text.length = text'.length + 1 := by
  obtain ⟨before, rfl⟩ := hsuffix
  obtain ⟨rest, hcall⟩ := keyAt?_eq_some_iff.mp hkey
  refine ⟨c :: before, rest, ⟨List.cons_ne_nil c before, text, rfl, hcall⟩, ?_⟩
  simp only [List.length_cons, List.length_append]
  omega

theorem Sets.exists_suffix (h : Sets line before key rest) :
    ∃ c text text', line = '\t' :: c :: text' ∧ text <:+ text' ∧ keyAt? text = some key ∧
      before.length + text.length = text'.length + 1 := by
  obtain ⟨text, hline, hcall⟩ := h.call
  obtain ⟨c, before, rfl⟩ := List.exists_cons_of_ne_nil h.before_ne
  refine ⟨c, text, before ++ text, hline, List.suffix_append before text,
    keyAt?_eq_some_iff.mpr ⟨rest, hcall⟩, ?_⟩
  simp only [List.length_cons, List.length_append]
  omega

/-- Where the call starts, there is only one key. -/
theorem Sets.key_eq (h : Sets line before key rest) (h' : Sets line before' key' rest')
    (hlength : before.length = before'.length) : key = key' := by
  obtain ⟨c, call, text, rfl, hsuffix, hkey, hcount⟩ := h.exists_suffix
  obtain ⟨c', call', text', heq, hsuffix', hkey', hcount'⟩ := h'.exists_suffix
  obtain rfl : text = text' := (List.cons.inj (List.cons.inj heq).2).2
  have hcalls : call = call' :=
    (List.suffix_of_suffix_length_le hsuffix hsuffix' (by omega)).eq_of_length (by omega)
  rw [hcalls, hkey'] at hkey
  exact (Option.some.inj hkey).symm

theorem SetsLast.unique (h : SetsLast line key) (h' : SetsLast line key') : key = key' := by
  obtain ⟨before, rest, hsets, hmost⟩ := h
  obtain ⟨before', rest', hsets', hmost'⟩ := h'
  have hle := hmost' before key rest hsets
  have hge := hmost before' key' rest' hsets'
  exact hsets.key_eq hsets' (by omega)

theorem setsLast_of_lineKey? (h : lineKey? line = some key) : SetsLast line key := by
  unfold lineKey? at h
  split at h
  · next c text =>
      obtain ⟨call, hcall, hkey, hleast⟩ := lastKey?_eq_some h
      obtain ⟨before, rest, hsets, hcount⟩ := sets_of_suffix c hcall hkey
      refine ⟨before, rest, hsets, ?_⟩
      intro before' key' rest' hsets'
      obtain ⟨c', call', text', heq, hcall', hkey', hcount'⟩ := hsets'.exists_suffix
      obtain rfl : text = text' := (List.cons.inj (List.cons.inj heq).2).2
      have := hleast call' hcall' (by rw [hkey']; exact Option.some_ne_none key')
      omega
  · cases h

theorem lineKey?_eq_none_iff :
    lineKey? line = none ↔ ¬ ∃ before key rest, Sets line before key rest := by
  constructor
  · rintro h ⟨before, key, rest, hsets⟩
    obtain ⟨c, call, text, rfl, hcall, hkey, -⟩ := hsets.exists_suffix
    have hnone : keyAt? call = none := lastKey?_eq_none h hcall
    rw [hnone] at hkey
    cases hkey
  · intro h
    cases hkey : lineKey? line with
    | none => rfl
    | some key =>
        obtain ⟨before, rest, hsets, -⟩ := setsLast_of_lineKey? hkey
        exact absurd ⟨before, key, rest, hsets⟩ h

theorem lineKey?_eq_some_iff : lineKey? line = some key ↔ SetsLast line key := by
  refine ⟨setsLast_of_lineKey?, fun h => ?_⟩
  cases hkey : lineKey? line with
  | none =>
      obtain ⟨before, rest, hsets, -⟩ := h
      exact absurd ⟨before, key, rest, hsets⟩ (lineKey?_eq_none_iff.mp hkey)
  | some key' => rw [(setsLast_of_lineKey? hkey).unique h]

end LastCall

theorem scanned_iff (lines : List (List Char)) (keys : List String) :
    Scanned lines keys ↔ (lines.filterMap lineKey?).map String.ofList = keys := by
  constructor
  · intro h
    induction h with
    | nil => rfl
    | key hline h ih =>
        rw [List.filterMap_cons_some (lineKey?_eq_some_iff.mpr hline), List.map_cons, ih]
    | skip hline h ih => rw [List.filterMap_cons_none (lineKey?_eq_none_iff.mpr hline), ih]
  · rintro rfl
    induction lines with
    | nil => exact .nil
    | cons line lines ih =>
        cases hkey : lineKey? line with
        | none =>
            rw [List.filterMap_cons_none hkey]
            exact .skip (lineKey?_eq_none_iff.mp hkey) ih
        | some key =>
            rw [List.filterMap_cons_some hkey]
            exact .key (lineKey?_eq_some_iff.mp hkey) ih

/-- The scan returns the keys that the lines of the source text set, one for each line that sets
one, and no others. -/
theorem keys_eq_iff (source : String) (ks : List String) :
    keys source = ks ↔ ∃ ls, Text.Lines source.toList ls ∧ Scanned ls ks := by
  simp only [Text.lines_iff, scanned_iff, exists_eq_left', keys]

/-- The last call of a line counts, and a call right after the tab does not. -/
example : keys "\tx = d.Set(\"a\", 1) + d.Set(\"b\", 2)\r\n\td.Set(\"c\", 3)\n" = ["b"] := by
  decide

end SetterScan

end ResourceLint
