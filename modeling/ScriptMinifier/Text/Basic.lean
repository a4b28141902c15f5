/-!
# Text

Scripts, names and paths are lists of characters. Sizes are counted in UTF-8
bytes.
-/

namespace ScriptMinifier

abbrev Text := List Char

namespace Text

def byteSize (s : Text) : Nat := s.foldr (fun c n => c.utf8Size + n) 0

/-- The text without the characters at its two ends that satisfy `p`. -/
def stripEnds (p : Char → Bool) (s : Text) : Text :=
  ((s.dropWhile p).reverse.dropWhile p).reverse

def firstLine (s : Text) : Text := s.takeWhile (· != '\n')

@[simp] theorem byteSize_nil : byteSize [] = 0 := rfl

@[simp] theorem byteSize_cons (c : Char) (s : Text) :
    byteSize (c :: s) = c.utf8Size + byteSize s := rfl

@[simp] theorem byteSize_append (s t : Text) :
    byteSize (s ++ t) = byteSize s + byteSize t := by
  induction s with
  | nil => simp
  | cons c s ih => simp [ih, Nat.add_assoc]

theorem byteSize_pos {s : Text} (h : s ≠ []) : 0 < byteSize s := by
  obtain ⟨c, t, rfl⟩ := List.exists_cons_of_ne_nil h
  have hc := c.utf8Size_pos
  rw [byteSize_cons]
  omega

theorem any_head?_dropWhile (p : Char → Bool) (s : Text) :
    (s.dropWhile p).head?.any p = false := by
  induction s with
  | nil => rfl
  | cons c s ih => cases h : p c <;> simp [h, ih]

theorem takeWhile_eq_nil {p : Char → Bool} {s : Text}
    (h : s.head?.any p = false) : s.takeWhile p = [] := by
  cases s with
  | nil => rfl
  | cons c s => exact List.takeWhile_cons_of_neg (by simpa using h)

/-- What is taken ends where the next character does not belong to it. -/
theorem takeWhile_append_eq {p : Char → Bool} {s t : Text}
    (hs : ∀ c ∈ s, p c = true) (ht : t.head?.any p = false) :
    (s ++ t).takeWhile p = s := by
  rw [List.takeWhile_append_of_pos hs, takeWhile_eq_nil ht, List.append_nil]

end Text

end ScriptMinifier
