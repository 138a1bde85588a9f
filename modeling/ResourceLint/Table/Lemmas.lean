import ResourceLint.Table

/-!
# Look-up in tables

Each operation on tables is described by what it does to a look-up. Main statement: two sorted
tables are equal when every key has the same value in both (`eq_of_find?_eq`).
-/

namespace ResourceLint.Table

variable {α : Type}

/-- Every key is less than all keys after it. -/
def Sorted (t : Table α) : Prop :=
  t.entries.Pairwise fun a b => a.1 < b.1

section Lookup

@[simp] theorem find?_empty (key : String) : (∅ : Table α).find? key = none := rfl

theorem lookup_entry (k key : String) (value : α) (rest : List (String × α)) :
    ((key, value) :: rest).lookup k = if k = key then some value else rest.lookup k := by
  rw [List.lookup_cons]
  by_cases h : k = key
  · simp [h]
  · simp [h, beq_eq_false_iff_ne.mpr h]

theorem lookup_place (entries : List (String × α)) (key k : String) (value : α) :
    (place key value entries).lookup k = if k = key then some value else entries.lookup k := by
  induction entries with
  | nil => simp only [place, lookup_entry, List.lookup_nil]
  | cons entry rest ih =>
      obtain ⟨k', v'⟩ := entry
      simp only [place]
      split
      · simp only [lookup_entry]
        grind
      · split
        · simp only [lookup_entry]
        · simp only [lookup_entry, ih]
          grind

@[simp] theorem find?_insert (t : Table α) (key k : String) (value : α) :
    (t.insert key value).find? k = if k = key then some value else t.find? k :=
  lookup_place t.entries key k value

theorem lookup_filter_ne (entries : List (String × α)) (key k : String) :
    (entries.filter fun entry => entry.1 ≠ key).lookup k =
      if k = key then none else entries.lookup k := by
  induction entries with
  | nil => simp
  | cons entry rest ih =>
      obtain ⟨k', v'⟩ := entry
      by_cases hk : k' = key
      · rw [List.filter_cons_of_neg (by simp [hk]), ih, lookup_entry]
        grind
      · rw [List.filter_cons_of_pos (by simp [hk]), lookup_entry, lookup_entry, ih]
        grind

@[simp] theorem find?_erase (t : Table α) (key k : String) :
    (t.erase key).find? k = if k = key then none else t.find? k :=
  lookup_filter_ne t.entries key k

theorem contains_eq (t : Table α) (key : String) : t.contains key = (t.find? key).isSome := rfl

theorem find?_insertNew (t : Table α) (key k : String) (value : α) :
    (t.insertNew key value).find? k =
      (t.find? k).or (if k = key then some value else none) := by
  unfold insertNew
  split
  · next h =>
      by_cases hk : k = key
      · subst hk
        obtain ⟨v, hv⟩ := Option.isSome_iff_exists.mp h
        simp [hv]
      · simp [hk]
  · next h =>
      rw [find?_insert]
      by_cases hk : k = key
      · subst hk
        have hnone : t.find? k = none := by simpa [contains_eq] using h
        simp [hnone]
      · simp [hk]

theorem find?_foldl_insertNew (entries : List (String × α)) (t : Table α) (k : String) :
    (entries.foldl (fun t entry => t.insertNew entry.1 entry.2) t).find? k =
      (t.find? k).or (entries.lookup k) := by
  induction entries generalizing t with
  | nil => simp
  | cons entry rest ih =>
      rw [List.foldl_cons, ih, find?_insertNew, Option.or_assoc, lookup_entry]
      by_cases hk : k = entry.1 <;> simp [hk]

theorem find?_orElse (t other : Table α) (k : String) :
    (t.orElse other).find? k = (t.find? k).or (other.find? k) :=
  find?_foldl_insertNew other.entries t k

theorem find?_foldl_insert (entries : List (String × α)) (t : Table α) (k : String) :
    (entries.foldl (fun t entry => t.insert entry.1 entry.2) t).find? k =
      (entries.reverse.lookup k).or (t.find? k) := by
  induction entries generalizing t with
  | nil => simp
  | cons entry rest ih =>
      rw [List.foldl_cons, ih, find?_insert, List.reverse_cons, List.lookup_append, Option.or_assoc,
        lookup_entry]
      by_cases hk : k = entry.1 <;> simp [hk]

/-- Of several entries of a key the last one counts. -/
theorem find?_ofList (entries : List (String × α)) (k : String) :
    (ofList entries).find? k = entries.reverse.lookup k := by
  rw [ofList, find?_foldl_insert, find?_empty, Option.or_none]

theorem mem_of_find?_ofList {entries : List (String × α)} {k : String} {value : α}
    (h : (ofList entries).find? k = some value) : (k, value) ∈ entries := by
  rw [find?_ofList] at h
  obtain ⟨before, after, heq, _⟩ := List.lookup_eq_some_iff.mp h
  exact List.mem_reverse.mp (heq ▸ by simp)

theorem contains_ofList (entries : List (String × α)) (k : String) :
    (ofList entries).contains k = entries.any fun entry => entry.1 = k := by
  rw [contains_eq, find?_ofList, Bool.eq_iff_iff, List.any_eq_true, Option.isSome_iff_ne_none, Ne,
    List.lookup_eq_none_iff]
  simp only [List.mem_reverse, bne_iff_ne, decide_eq_true_eq]
  grind

end Lookup

section DistinctKeys

theorem lookup_of_mem {entries : List (String × α)} (h : (entries.map Prod.fst).Nodup) {k : String}
    {value : α} (hmem : (k, value) ∈ entries) : entries.lookup k = some value := by
  induction entries with
  | nil => cases hmem
  | cons first rest ih =>
      rw [List.map_cons, List.nodup_cons] at h
      rw [lookup_entry]
      rcases List.mem_cons.mp hmem with rfl | hmem
      · rw [if_pos rfl]
      · have hne : k ≠ first.1 := fun heq => h.1 (heq ▸ List.mem_map_of_mem hmem)
        rw [if_neg hne, ih h.2 hmem]

theorem find?_ofList_of_mem {entries : List (String × α)} (h : (entries.map Prod.fst).Nodup)
    {k : String} {value : α} (hmem : (k, value) ∈ entries) :
    (ofList entries).find? k = some value := by
  rw [find?_ofList]
  exact lookup_of_mem (((List.reverse_perm entries).map Prod.fst).nodup_iff.mpr h)
    (List.mem_reverse.mpr hmem)

/-- A new key adds one entry. -/
theorem place_perm {key : String} (value : α) {entries : List (String × α)}
    (h : key ∉ entries.map Prod.fst) :
    (place key value entries).Perm ((key, value) :: entries) := by
  induction entries with
  | nil => exact .refl _
  | cons first rest ih =>
      obtain ⟨k, v⟩ := first
      rw [List.map_cons, List.mem_cons, not_or] at h
      simp only [place, if_neg h.1]
      split
      · exact .refl _
      · exact ((ih h.2).cons (k, v)).trans (.swap ..)

theorem foldl_insert_perm (entries : List (String × α)) {t : Table α}
    (h : ((t.entries ++ entries).map Prod.fst).Nodup) :
    (entries.foldl (fun t entry => t.insert entry.1 entry.2) t).entries.Perm
      (t.entries ++ entries) := by
  induction entries generalizing t with
  | nil => simp
  | cons entry rest ih =>
      have hplace : (t.insert entry.1 entry.2).entries.Perm (entry :: t.entries) := by
        refine place_perm entry.2 fun hmem => ?_
        rw [List.map_append, List.nodup_append] at h
        exact h.2.2 _ hmem _ List.mem_cons_self rfl
      have hmoved : ((t.insert entry.1 entry.2).entries ++ rest).Perm
          (t.entries ++ entry :: rest) :=
        (hplace.append_right rest).trans List.perm_middle.symm
      exact (ih ((hmoved.map Prod.fst).nodup_iff.mpr h)).trans hmoved

/-- Entries with different keys all get into the table. -/
theorem ofList_perm {entries : List (String × α)} (h : (entries.map Prod.fst).Nodup) :
    (ofList entries).entries.Perm entries :=
  foldl_insert_perm entries h

end DistinctKeys

section Order

theorem sorted_empty : (∅ : Table α).Sorted := List.Pairwise.nil

theorem lt_of_ne_of_not_lt {a b : String} (ne : a ≠ b) (notLt : ¬ a < b) : b < a :=
  Std.lt_of_le_of_ne (String.not_lt.mp notLt) ne.symm

theorem mem_place {key : String} {value : α} {entries : List (String × α)}
    {entry : String × α} (h : entry ∈ place key value entries) :
    entry = (key, value) ∨ entry ∈ entries := by
  induction entries with
  | nil => simpa [place] using h
  | cons first rest ih =>
      obtain ⟨k, v⟩ := first
      simp only [place] at h
      split at h
      · rcases List.mem_cons.mp h with h | h
        · exact Or.inl h
        · exact Or.inr (List.mem_cons_of_mem _ h)
      · split at h
        · rcases List.mem_cons.mp h with h | h
          · exact Or.inl h
          · exact Or.inr h
        · rcases List.mem_cons.mp h with h | h
          · exact Or.inr (h ▸ List.mem_cons_self)
          · rcases ih h with h | h
            · exact Or.inl h
            · exact Or.inr (List.mem_cons_of_mem _ h)

theorem pairwise_place {key : String} {value : α} {entries : List (String × α)}
    (h : entries.Pairwise fun a b => a.1 < b.1) :
    (place key value entries).Pairwise fun a b => a.1 < b.1 := by
  induction entries with
  | nil => simp [place]
  | cons first rest ih =>
      obtain ⟨k, v⟩ := first
      obtain ⟨hfirst, hrest⟩ := List.pairwise_cons.mp h
      simp only [place]
      split
      · next hk =>
          subst hk
          exact List.pairwise_cons.mpr ⟨hfirst, hrest⟩
      · next hk =>
          split
          · next hlt =>
              refine List.pairwise_cons.mpr ⟨?_, h⟩
              intro b hb
              rcases List.mem_cons.mp hb with rfl | hb
              · exact hlt
              · exact String.lt_trans hlt (hfirst b hb)
          · next hlt =>
              refine List.pairwise_cons.mpr ⟨?_, ih hrest⟩
              intro b hb
              rcases mem_place hb with rfl | hb
              · exact lt_of_ne_of_not_lt hk hlt
              · exact hfirst b hb

theorem Sorted.insert {t : Table α} (h : t.Sorted) (key : String) (value : α) :
    (t.insert key value).Sorted :=
  pairwise_place h

theorem Sorted.keys_nodup {t : Table α} (h : t.Sorted) : (t.entries.map Prod.fst).Nodup :=
  List.pairwise_map.mpr (h.imp Std.ne_of_lt)

theorem lookup_eq_none_of_lt {entries : List (String × α)} {k : String}
    (h : ∀ entry ∈ entries, k < entry.1) : entries.lookup k = none := by
  induction entries with
  | nil => rfl
  | cons first rest ih =>
      have hne : k ≠ first.1 := fun he =>
        String.lt_irrefl _ (he ▸ h first List.mem_cons_self)
      rw [lookup_entry, if_neg hne]
      exact ih fun entry hentry => h entry (List.mem_cons_of_mem _ hentry)

/-- Of two sorted tables with the same look-ups, neither starts before the other. -/
theorem not_lt_of_lookup_eq {as bs : List (String × α)} {a b : String × α}
    (hb : (b :: bs).Pairwise fun a b => a.1 < b.1)
    (h : ∀ k, (a :: as).lookup k = (b :: bs).lookup k) : ¬ a.1 < b.1 := by
  intro hlt
  have hbelow : ∀ entry ∈ b :: bs, a.1 < entry.1 := by
    rintro entry (_ | ⟨_, hentry⟩)
    · exact hlt
    · exact String.lt_trans hlt (List.rel_of_pairwise_cons hb hentry)
  have hk := h a.1
  rw [lookup_entry, if_pos rfl, lookup_eq_none_of_lt hbelow] at hk
  cases hk

theorem entries_eq_of_lookup_eq {as bs : List (String × α)}
    (ha : as.Pairwise fun a b => a.1 < b.1) (hb : bs.Pairwise fun a b => a.1 < b.1)
    (h : ∀ k, as.lookup k = bs.lookup k) : as = bs := by
  induction as generalizing bs with
  | nil =>
      cases bs with
      | nil => rfl
      | cons b bs =>
          have hk := h b.1
          rw [lookup_entry] at hk
          simp at hk
  | cons a as ih =>
      cases bs with
      | nil =>
          have hk := h a.1
          rw [lookup_entry] at hk
          simp at hk
      | cons b bs =>
          have hkey : a.1 = b.1 :=
            String.le_antisymm (String.not_lt.mp (not_lt_of_lookup_eq ha fun k => (h k).symm))
              (String.not_lt.mp (not_lt_of_lookup_eq hb h))
          obtain ⟨key, va⟩ := a
          obtain ⟨_, vb⟩ := b
          cases hkey
          have hvalue : va = vb := by
            have hk := h key
            rw [lookup_entry, lookup_entry, if_pos rfl, if_pos rfl] at hk
            exact Option.some.inj hk
          obtain ⟨hfa, hra⟩ := List.pairwise_cons.mp ha
          obtain ⟨hfb, hrb⟩ := List.pairwise_cons.mp hb
          have hrest : as = bs := by
            refine ih hra hrb fun k => ?_
            by_cases hk : k = key
            · rw [hk, lookup_eq_none_of_lt hfa, lookup_eq_none_of_lt hfb]
            · have hk' := h k
              rwa [lookup_entry, lookup_entry, if_neg hk, if_neg hk] at hk'
          rw [hvalue, hrest]

/-- Sorted tables are determined by their look-ups. -/
theorem eq_of_find?_eq {t u : Table α} (ht : t.Sorted) (hu : u.Sorted)
    (h : ∀ k, t.find? k = u.find? k) : t = u :=
  congrArg Table.mk (entries_eq_of_lookup_eq ht hu h)

end Order

end ResourceLint.Table
