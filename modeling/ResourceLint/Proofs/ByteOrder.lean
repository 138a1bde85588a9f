/-!
# The order of bytes

Texts are compared character by character, by code points. Their bytes in UTF-8 come in the same
order (`bytes_lt_bytes`). A code point is cut into groups of six bits, the first of which is marked
by how many follow, and more groups have a greater mark. So of two different code points the lesser
one has the lesser byte at the first place where they differ, and there is such a place before
either of them ends.
-/

namespace ResourceLint.Text

/-- The bytes of a text in UTF-8. -/
def bytes (text : String) : List UInt8 :=
  text.toUTF8.data.toList

theorem bytes_eq (text : String) : bytes text = text.toList.flatMap String.utf8EncodeChar := by
  obtain ⟨cs, rfl⟩ := String.exists_eq_ofList text
  rw [String.toList_ofList, bytes, String.toUTF8_eq_toByteArray, String.toByteArray_ofList,
    List.utf8Encode, List.data_toByteArray]

/-- Two lists differ before either of them ends, and at the first place where they do the first one
is less. -/
def Below : List UInt8 → List UInt8 → Prop
  | a :: as, b :: bs => a < b ∨ a = b ∧ Below as bs
  | _, _ => False

namespace Below

variable {as bs : List UInt8}

theorem append (h : Below as bs) (xs ys : List UInt8) : Below (as ++ xs) (bs ++ ys) := by
  induction as generalizing bs with
  | nil => exact h.elim
  | cons a as ih =>
      cases bs with
      | nil => exact h.elim
      | cons b bs => exact h.imp_right (And.imp_right ih)

theorem append_left (h : Below as bs) (xs : List UInt8) : Below (xs ++ as) (xs ++ bs) := by
  induction xs with
  | nil => exact h
  | cons x xs ih => exact .inr ⟨rfl, ih⟩

theorem lt (h : Below as bs) : as < bs := by
  induction as generalizing bs with
  | nil => exact h.elim
  | cons a as ih =>
      cases bs with
      | nil => exact h.elim
      | cons b bs => exact List.cons_lt_cons_iff.mpr (h.imp_right (And.imp_right ih))

theorem singleton {v w : Nat} (h : v < w) (hw : w < 0x100) :
    Below [UInt8.ofNat v] [UInt8.ofNat w] := by
  refine .inl ?_
  rw [UInt8.lt_iff_toNat_lt, UInt8.toNat_ofNat', UInt8.toNat_ofNat']
  omega

end Below

section CodePoints

/-- A number in groups of six bits. The first group may be longer and is marked by what is added to
it, all others have the mark `0x80`. -/
def spread (mark : Nat) : Nat → Nat → List UInt8
  | 0, v => [UInt8.ofNat (v + mark)]
  | n + 1, v => spread mark n (v / 64) ++ [UInt8.ofNat (v % 64 + 0x80)]

/-- The first group of a number that is cut into `n` more groups. -/
def front : Nat → Nat → Nat
  | 0, v => v
  | n + 1, v => front n (v / 64)

/-- Numbers with equally many groups are in the order of their bytes. -/
theorem below_spread {mark n v w : Nat} (h : v < w) (hw : front n w + mark < 0x100) :
    Below (spread mark n v) (spread mark n w) := by
  induction n generalizing v w with
  | zero => exact .singleton (Nat.add_lt_add_right h mark) hw
  | succ n ih =>
      by_cases hfront : v / 64 < w / 64
      · exact (ih hfront hw).append _ _
      · -- The numbers differ in the last group only.
        have hfront : v / 64 = w / 64 := by omega
        rw [spread, spread, hfront]
        exact (Below.singleton (by omega) (by omega)).append_left _

theorem spread_eq_cons (mark n v : Nat) :
    ∃ rest, spread mark n v = UInt8.ofNat (front n v + mark) :: rest := by
  induction n generalizing v with
  | zero => exact ⟨[], rfl⟩
  | succ n ih =>
      obtain ⟨rest, h⟩ := ih (v / 64)
      rw [spread, h]
      exact ⟨_, rfl⟩

/-- How many bytes follow the first one. -/
def followers (v : Nat) : Nat :=
  if v ≤ 0x7f then 0 else if v ≤ 0x7ff then 1 else if v ≤ 0xffff then 2 else 3

/-- The mark of a first byte that so many bytes follow. -/
def firstMark (n : Nat) : Nat :=
  if n = 0 then 0 else if n = 1 then 0xc0 else if n = 2 then 0xe0 else if n = 3 then 0xf0 else 0x100

/-- A code point in UTF-8. -/
def encoded (v : Nat) : List UInt8 :=
  spread (firstMark (followers v)) (followers v) v

theorem toNat_val_lt (c : Char) : c.val.toNat < 0x110000 := by
  rcases c.valid with h | h <;> omega

theorem utf8EncodeChar_eq (c : Char) : String.utf8EncodeChar c = encoded c.val.toNat := by
  have hvalid := toNat_val_lt c
  unfold String.utf8EncodeChar encoded followers
  generalize c.val.toNat = v at *
  dsimp only
  split
  · rfl
  · split
    · rw [show v / 64 % 0x20 = v / 64 by omega]
      rfl
    · split
      · rw [show v / 4096 % 0x10 = v / 64 / 64 by omega]
        rfl
      · rw [show v / 262144 % 0x08 = v / 64 / 64 / 64 by omega,
          show v / 4096 % 0x40 = v / 64 / 64 % 0x40 by omega]
        rfl

theorem followers_mono {v w : Nat} (h : v ≤ w) : followers v ≤ followers w := by
  grind [followers]

theorem firstMark_mono {n k : Nat} (h : n ≤ k) : firstMark n ≤ firstMark k := by
  grind [firstMark]

theorem firstMark_le (n : Nat) : firstMark n ≤ 0x100 := by
  grind [firstMark]

/-- A first byte is less than any that more bytes follow. -/
theorem firstByte_lt {v : Nat} (hv : v < 0x110000) :
    front (followers v) v + firstMark (followers v) < firstMark (followers v + 1) := by
  unfold followers
  split
  · change v + 0 < 0xc0
    omega
  · split
    · change v / 64 + 0xc0 < 0xe0
      omega
    · split
      · change v / 64 / 64 + 0xe0 < 0xf0
        omega
      · change v / 64 / 64 / 64 + 0xf0 < 0x100
        omega

theorem below_encoded {v w : Nat} (h : v < w) (hw : w < 0x110000) :
    Below (encoded v) (encoded w) := by
  have hbyte := Nat.lt_of_lt_of_le (firstByte_lt hw) (firstMark_le _)
  rcases Nat.lt_or_eq_of_le (followers_mono (Nat.le_of_lt h)) with hmore | hsame
  · obtain ⟨vs, hvs⟩ := spread_eq_cons (firstMark (followers v)) (followers v) v
    obtain ⟨ws, hws⟩ := spread_eq_cons (firstMark (followers w)) (followers w) w
    have hmark : front (followers v) v + firstMark (followers v) < firstMark (followers w) :=
      Nat.lt_of_lt_of_le (firstByte_lt (by omega)) (firstMark_mono hmore)
    rw [encoded, encoded, hvs, hws]
    exact (Below.singleton (by omega) hbyte).append vs ws
  · rw [encoded, encoded, hsame]
    exact below_spread h hbyte

end CodePoints

theorem below_utf8EncodeChar {c d : Char} (h : c < d) :
    Below (String.utf8EncodeChar c) (String.utf8EncodeChar d) := by
  rw [utf8EncodeChar_eq, utf8EncodeChar_eq]
  exact below_encoded h (toNat_val_lt d)

theorem flatMap_utf8EncodeChar_lt {cs ds : List Char} (h : cs < ds) :
    cs.flatMap String.utf8EncodeChar < ds.flatMap String.utf8EncodeChar := by
  induction h with
  | @nil d ds =>
      rw [List.flatMap_nil, List.flatMap_cons]
      cases hd : String.utf8EncodeChar d with
      | nil => exact absurd hd String.utf8EncodeChar_ne_nil
      | cons b bs => exact List.nil_lt_cons b _
  | rel h =>
      rw [List.flatMap_cons, List.flatMap_cons]
      exact ((below_utf8EncodeChar h).append _ _).lt
  | cons _ ih =>
      rw [List.flatMap_cons, List.flatMap_cons]
      exact List.append_left_lt ih

/-- Texts in ascending order have their bytes in ascending order. -/
theorem bytes_lt_bytes {a b : String} (h : a < b) : bytes a < bytes b := by
  rw [bytes_eq, bytes_eq]
  exact flatMap_utf8EncodeChar_lt h

end ResourceLint.Text
