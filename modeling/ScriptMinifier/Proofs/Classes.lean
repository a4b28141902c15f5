import ScriptMinifier.Script.Scan
import ScriptMinifier.Text.Class

/-!
# Classes of characters side by side

Blanks are in no identifier and in no word. The flags of a regular expression
are identifier characters.
-/

namespace ScriptMinifier

/-- Ranges that do not meet have no members in common. -/
theorem inRanges_eq_false {ranges others : List (Nat × Nat)}
    (hapart : ∀ r ∈ ranges, ∀ k < r.2 + 1 - r.1,
      inRanges (r.1 + k) others = false) {n : Nat}
    (h : inRanges n ranges = true) : inRanges n others = false := by
  induction ranges with
  | nil => simp [inRanges] at h
  | cons r ranges ih =>
      rw [List.forall_mem_cons] at hapart
      obtain ⟨low, high⟩ := r
      rw [inRanges] at h
      split at h
      · exact absurd h (by simp)
      · next hlow =>
          rw [Bool.or_eq_true, decide_eq_true_iff] at h
          rcases h with hhigh | h
          · have hn := hapart.1 (n - low) (by dsimp only; omega)
            rwa [Nat.add_sub_cancel' (by omega)] at hn
          · exact ih hapart.2 h

theorem not_isIdentifierChar_of_isBlank {c : Char} (h : isBlank c = true) :
    isIdentifierChar c = false := by
  have hletter : isAlphabetic c = false := by
    unfold isBlank at h
    exact inRanges_eq_false (by decide +kernel) h
  have hnumber : isNumber c = false := by
    unfold isBlank at h
    exact inRanges_eq_false (by decide +kernel) h
  have hunder : c ≠ '_' := by rintro rfl; exact absurd h (by decide)
  have hdollar : c ≠ '$' := by rintro rfl; exact absurd h (by decide)
  simp [isIdentifierChar, hletter, hnumber, hunder, hdollar]

theorem toNat_lt_of_isFlagChar {c : Char} (h : Script.isFlagChar c = true) :
    c.toNat < 128 := by
  have hcases : ((c.isUpper || c.isLower) || c.isDigit || c == '_' ||
    c == '$') = true := h
  delta Char.isUpper Char.isLower Char.isDigit at hcases
  simp only [Bool.or_eq_true, Bool.and_eq_true, decide_eq_true_eq,
    beq_iff_eq, UInt32.le_iff_toNat_le] at hcases
  rcases hcases with (((hc | hc) | hc) | rfl) | rfl
  · exact Nat.lt_of_le_of_lt hc.2 (by decide)
  · exact Nat.lt_of_le_of_lt hc.2 (by decide)
  · exact Nat.lt_of_le_of_lt hc.2 (by decide)
  · decide
  · decide

theorem isIdentifierChar_of_isFlagChar {c : Char}
    (h : Script.isFlagChar c = true) : isIdentifierChar c = true := by
  have hall : ∀ n < 128, Script.isFlagChar (Char.ofNat n) = true →
      isIdentifierChar (Char.ofNat n) = true := by decide +kernel
  have hascii := toNat_lt_of_isFlagChar h
  rw [← Char.ofNat_toNat c] at h ⊢
  exact hall _ hascii h

theorem any_isFlagChar_eq_false {o : Option Char}
    (h : o.any isIdentifierChar = false) :
    o.any Script.isFlagChar = false := by
  rw [Bool.eq_false_iff] at h ⊢
  intro hflag
  rw [Option.any_eq_true] at hflag
  obtain ⟨c, rfl, hc⟩ := hflag
  exact h (isIdentifierChar_of_isFlagChar hc)

theorem not_isWordChar_of_isBlank {c : Char} (h : isBlank c = true) :
    isWordChar c = false := by
  unfold isBlank at h
  have hletter : isAlphabetic c = false :=
    inRanges_eq_false (by decide +kernel) h
  have hdigit : isDecimalDigit c = false :=
    inRanges_eq_false (by decide +kernel) h
  have hconnector : isConnector c = false :=
    inRanges_eq_false (by decide +kernel) h
  have hmark : isMark c = false := inRanges_eq_false (by decide +kernel) h
  simp [isWordChar, hletter, hdigit, hconnector, hmark]

end ScriptMinifier
