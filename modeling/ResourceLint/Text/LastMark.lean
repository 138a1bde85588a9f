/-!
# The last mark in a text

Cutting a text at the last place where a given character stands. Main statements: without the
mark everything comes after it, and a mark followed by a text free of it cuts exactly there; nothing
else comes after the last mark (`afterLast_eq_iff`).
-/

namespace ResourceLint.Text

/-- What follows the last `mark`; everything when there is none. -/
def afterLast (mark : Char) (text : String) : String :=
  String.ofList (text.toList.reverse.takeWhile (· ≠ mark)).reverse

/-- What precedes the last `mark`; nothing when there is none. -/
def beforeLast (mark : Char) (text : String) : String :=
  String.ofList ((text.toList.reverse.dropWhile (· ≠ mark)).drop 1).reverse

theorem all_ne_of_notMem {mark : Char} {cs : List Char} (free : mark ∉ cs) :
    ∀ c ∈ cs.reverse, decide (c ≠ mark) = true := by
  intro c hc
  have : c ≠ mark := fun h => free (h ▸ List.mem_reverse.mp hc)
  simpa using this

theorem afterLast_of_notMem {mark : Char} {text : String} (free : mark ∉ text.toList) :
    afterLast mark text = text := by
  have h : (text.toList.reverse ++ []).takeWhile (fun c => decide (c ≠ mark)) =
      text.toList.reverse ++ [].takeWhile (fun c => decide (c ≠ mark)) :=
    List.takeWhile_append_of_pos (all_ne_of_notMem free)
  rw [List.append_nil, List.takeWhile_nil, List.append_nil] at h
  rw [afterLast, h, List.reverse_reverse, String.ofList_toList]

theorem afterLast_append {mark : Char} (head : String) {tail : String}
    (free : mark ∉ tail.toList) :
    afterLast mark (head ++ mark.toString ++ tail) = tail := by
  simp only [afterLast, String.toList_append, List.reverse_append]
  rw [List.takeWhile_append_of_pos (all_ne_of_notMem free)]
  simp

theorem notMem_afterLast (mark : Char) (text : String) : mark ∉ (afterLast mark text).toList := by
  intro h
  rw [afterLast, String.toList_ofList, List.mem_reverse] at h
  have hne := List.all_eq_true.mp List.all_takeWhile mark h
  simp at hne

theorem eq_afterLast_or (mark : Char) (text : String) :
    text = afterLast mark text ∨ ∃ head, text = head ++ mark.toString ++ afterLast mark text := by
  have hcut := List.takeWhile_append_dropWhile (p := (· ≠ mark)) (l := text.toList.reverse)
  have hfirst := List.head?_dropWhile_not (· ≠ mark) text.toList.reverse
  cases hrest : text.toList.reverse.dropWhile (· ≠ mark) with
  | nil =>
      left
      rw [hrest, List.append_nil] at hcut
      rw [afterLast, hcut, List.reverse_reverse, String.ofList_toList]
  | cons c rest =>
      right
      rw [hrest] at hcut hfirst
      obtain rfl : c = mark := by simpa using hfirst
      refine ⟨String.ofList rest.reverse, String.toList_inj.mp ?_⟩
      simpa [afterLast] using (congrArg List.reverse hcut).symm

theorem afterLast_eq_iff {mark : Char} {text part : String} :
    afterLast mark text = part ↔
      mark ∉ part.toList ∧ (text = part ∨ ∃ head, text = head ++ mark.toString ++ part) := by
  constructor
  · rintro rfl
    exact ⟨notMem_afterLast mark text, eq_afterLast_or mark text⟩
  · rintro ⟨free, rfl | ⟨head, rfl⟩⟩
    · exact afterLast_of_notMem free
    · exact afterLast_append head free

theorem beforeLast_append {mark : Char} (head : String) {tail : String}
    (free : mark ∉ tail.toList) :
    beforeLast mark (head ++ mark.toString ++ tail) = head := by
  simp only [beforeLast, String.toList_append, List.reverse_append]
  rw [List.dropWhile_append_of_pos (all_ne_of_notMem free)]
  simp

theorem append_mark_inj {mark : Char} {head head' tail tail' : String}
    (free : mark ∉ tail.toList) (free' : mark ∉ tail'.toList) :
    head ++ mark.toString ++ tail = head' ++ mark.toString ++ tail' ↔
      head = head' ∧ tail = tail' := by
  constructor
  · intro h
    have hbefore := congrArg (beforeLast mark) h
    have hafter := congrArg (afterLast mark) h
    rw [beforeLast_append head free, beforeLast_append head' free'] at hbefore
    rw [afterLast_append head free, afterLast_append head' free'] at hafter
    exact ⟨hbefore, hafter⟩
  · rintro ⟨rfl, rfl⟩
    rfl

end ResourceLint.Text
