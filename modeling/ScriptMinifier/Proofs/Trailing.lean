import ScriptMinifier.Minifier
import ScriptMinifier.Proofs.Placeholder

/-!
# A space at the end

Neither renaming nor putting literals back sees a space at the very end of the
code, and trimming takes it away, so the output is the same with it and without.
-/

namespace ScriptMinifier

open Text Spacing

theorem not_isWordChar_space : isWordChar ' ' = false := by decide +kernel

/-! ## Renaming -/

namespace Renamer

/-- The end of the text and a space are the same edge of a word. -/
theorem isWordEdge_head?_concat (before : Option Char) (s : Text) :
    isWordEdge before (s ++ [' ']).head? = isWordEdge before s.head? := by
  cases s with
  | nil => simp [isWordEdge, not_isWordChar_space]
  | cons c s => rfl

theorem occursAt_concat_space (before : Option Char) (s name : Text) :
    occursAt before (s ++ [' ']) name = occursAt before s name := by
  by_cases hname : name <+: s
  · have hlonger : name <+: s ++ [' '] := hname.trans (List.prefix_append _ _)
    have hdrop : (s ++ [' ']).drop name.length = s.drop name.length ++ [' '] :=
      List.drop_append_of_le_length hname.length_le
    rw [occursAt, occursAt, hdrop, isWordEdge_head?_concat,
      List.isPrefixOf_iff_prefix.mpr hname,
      List.isPrefixOf_iff_prefix.mpr hlonger]
  · have hshort : occursAt before s name = false := by
      rw [occursAt, Bool.eq_false_iff.mpr
        (mt List.isPrefixOf_iff_prefix.mp hname), Bool.false_and,
        Bool.false_and]
    rw [hshort]
    by_cases hlonger : name <+: s ++ [' ']
    · obtain rfl := (List.prefix_concat_iff.mp hlonger).resolve_right hname
      simp [occursAt, isWordEdge, not_isWordChar_space]
    · rw [occursAt, Bool.eq_false_iff.mpr
        (mt List.isPrefixOf_iff_prefix.mp hlonger), Bool.false_and,
        Bool.false_and]

theorem occursAt_nil (before : Option Char) (name : Text) :
    occursAt before [] name = false := by
  cases name with
  | nil => simp [occursAt, isWordEdge]
  | cons c name => rfl

theorem apply_concat_space (renamer : Renamer) (s : Text) :
    renamer.apply (s ++ [' ']) = renamer.apply s ++ [' '] := by
  apply replace_concat
  · intro before s edit h
    obtain ⟨b, hb, rfl⟩ := Option.map_eq_some_iff.mp h
    have hoccurs := List.find?_some hb
    simp only [occursAt, Bool.and_eq_true] at hoccurs
    exact (List.isPrefixOf_iff_prefix.mp hoccurs.1.1).length_le
  · intro before
    simp [rule, occursAt_nil]
  · intro before s
    simp only [rule, occursAt_concat_space]

end Renamer

/-! ## Putting literals back -/

theorem not_isWordDigit_space : isWordDigit ' ' = false := by decide +kernel

theorem placeholderDigits?_concat_space (s : Text) :
    placeholderDigits? (s ++ [' ']) = placeholderDigits? s := by
  ext digits
  rw [placeholderDigits?_eq_some_iff, placeholderDigits?_eq_some_iff]
  refine and_congr_right fun _ => and_congr_right fun hdigits => ?_
  have hspace : ' ' ∉ placeholderOpening ++ (digits ++ placeholderClosing) := by
    intro hmem
    rw [List.mem_append, List.mem_append] at hmem
    rcases hmem with hmem | hmem | hmem
    · exact absurd hmem (by decide)
    · exact absurd (hdigits _ hmem) (by simp [not_isWordDigit_space])
    · exact absurd hmem (by decide)
  rw [List.prefix_concat_iff, or_iff_right]
  intro heq
  exact hspace (by rw [heq]; simp)

theorem LiteralTable.restore_concat_space (table : LiteralTable) (s : Text) :
    table.restore (s ++ [' ']) = table.restore s ++ [' '] := by
  apply replace_concat
  · intro before s edit h
    obtain ⟨digits, hdigits, rfl⟩ := Option.map_eq_some_iff.mp h
    have hpre := (placeholderDigits?_eq_some_iff.mp hdigits).2.2
    rw [← List.append_assoc] at hpre
    exact hpre.length_le
  · intro before
    rfl
  · intro before s
    simp only [restoreRule, placeholderDigits?_concat_space]

/-! ## Trimming -/

theorem trim_concat_space (s : Text) : trim (s ++ [' ']) = trim s := by
  rw [trim_eq, trim_eq, List.dropWhile_append]
  split
  · next hblank =>
      rw [List.isEmpty_iff.mp hblank]
      decide
  · rw [List.rdropWhile_concat_pos _ _ _ isBlank_space]

/-- What follows compression is blind to a space at the end. -/
theorem trim_restore_apply_concat (table : LiteralTable) (renamer : Renamer)
    (s : Text) : trim (table.restore (renamer.apply (s ++ [' ']))) =
      trim (table.restore (renamer.apply s)) := by
  rw [Renamer.apply_concat_space, LiteralTable.restore_concat_space,
    trim_concat_space]

end ScriptMinifier
