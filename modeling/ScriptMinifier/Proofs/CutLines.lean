import Mathlib.Data.List.Forall2
import ScriptMinifier.Proofs.Comments

/-!
# Lines cut at a comment mark

Stripping line comments works on each line by itself: the line is cut at its
first `//`, or stays as it is, and its line feed stays too. Together with what
is known of block comments this says what stripping leaves and that doing it
again changes nothing.
-/

namespace ScriptMinifier.Comment

open Text Script

/-- `cut` is the line up to its first `//`, or all of it if it has none. -/
def IsCut (line cut : Text) : Prop :=
  (cut = line ∧ ¬ lineMark <:+: line) ∨
  (cut ++ lineMark <+: line ∧ ¬ lineMark <:+: cut ++ ['/'])

/-! ## One line -/

theorem isCut_nil : IsCut [] [] := Or.inl ⟨rfl, by simp [lineMark]⟩

theorem isCut_lineMark (s : Text) : IsCut (lineMark ++ s) [] :=
  Or.inr ⟨List.prefix_append lineMark s,
    by simp [lineMark, pair_isInfix_cons_iff]⟩

theorem IsCut.isPrefix {line cut : Text} (h : IsCut line cut) :
    cut <+: line := by
  rcases h with ⟨rfl, -⟩ | ⟨hpre, -⟩
  · exact List.prefix_refl _
  · exact (List.prefix_append _ _).trans hpre

/-- A character that opens no mark belongs to the line before the cut. -/
theorem IsCut.cons {c : Char} {line cut : Text}
    (hc : ¬ (c = '/' ∧ line.head? = some '/')) (h : IsCut line cut) :
    IsCut (c :: line) (c :: cut) := by
  rcases h with ⟨rfl, hmark⟩ | ⟨⟨rest, rfl⟩, hmark⟩
  · refine Or.inl ⟨rfl, ?_⟩
    rw [lineMark, pair_isInfix_cons_iff, not_or]
    exact ⟨hc, hmark⟩
  · refine Or.inr ⟨⟨rest, rfl⟩, ?_⟩
    rw [List.cons_append, lineMark, pair_isInfix_cons_iff, not_or]
    refine ⟨?_, hmark⟩
    rintro ⟨rfl, hhead⟩
    apply hc
    cases cut with
    | nil => exact ⟨rfl, rfl⟩
    | cons d cut => exact ⟨rfl, hhead⟩

theorem stripLine_line {line rest : Text} (hline : '\n' ∉ line)
    (hrest : EndsLine rest) : ∃ cut, IsCut line cut ∧
      stripLine (line ++ rest) = cut ++ stripLine rest := by
  induction line with
  | nil => exact ⟨[], isCut_nil, rfl⟩
  | cons c line ih =>
      rw [List.mem_cons, not_or] at hline
      by_cases hmark : c = '/' ∧ line.head? = some '/'
      · obtain ⟨rfl, hhead⟩ := hmark
        obtain ⟨body, rfl⟩ := List.head?_eq_some_iff.mp hhead
        rw [List.mem_cons, not_or] at hline
        exact ⟨[], isCut_lineMark body, stripLine_comment hline.2.2 hrest⟩
      · obtain ⟨cut, hcut, hstrip⟩ := ih hline.2
        refine ⟨c :: cut, hcut.cons hmark, ?_⟩
        have hcons : ¬ (c = '/' ∧ (line ++ rest).head? = some '/') := by
          rintro ⟨rfl, hhead⟩
          cases line with
          | nil => rcases hrest with rfl | hrest <;> simp_all
          | cons d line => exact hmark ⟨rfl, hhead⟩
        rw [List.cons_append, stripLine_cons hcons, hstrip]
        rfl

/-! ## All lines -/

/-- A text is its last line, or a line with a line feed and a text behind it. -/
@[elab_as_elim]
theorem line_induction {P : Text → Prop} (last : ∀ line, '\n' ∉ line → P line)
    (cons : ∀ line s, '\n' ∉ line → P s → P (line ++ '\n' :: s)) (s : Text) :
    P s := by
  induction hn : s.length using Nat.strong_induction_on generalizing s with
  | _ n ih =>
      obtain ⟨line, rest, rfl, hline, rfl | hrest⟩ := exists_line s
      · rw [List.append_nil]
        exact last line hline
      · obtain ⟨rest, rfl⟩ := List.head?_eq_some_iff.mp hrest
        refine cons line rest hline (ih rest.length ?_ rest rfl)
        rw [← hn, List.length_append, List.length_cons]
        omega

theorem splitOn_line_append {line : Text} (h : '\n' ∉ line) (s : Text) :
    (line ++ '\n' :: s).splitOn '\n' = line :: s.splitOn '\n' := by
  rw [List.splitOn_append_cons_self, List.splitOn_eq_singleton h]
  rfl

theorem length_splitOn_lineFeed (s : Text) :
    (s.splitOn '\n').length = s.count '\n' + 1 := by
  induction s using line_induction with
  | last line hline =>
      rw [List.splitOn_eq_singleton hline, List.count_eq_zero_of_not_mem hline]
      rfl
  | cons line s hline ih =>
      rw [splitOn_line_append hline, List.length_cons, ih, List.count_append,
        List.count_eq_zero_of_not_mem hline, List.count_cons_self,
        Nat.zero_add]

/-- **Every line is cut at its first mark.** -/
theorem forall₂_isCut_stripLine (s : Text) :
    List.Forall₂ IsCut (s.splitOn '\n') ((stripLine s).splitOn '\n') := by
  induction s using line_induction with
  | last line hline =>
      obtain ⟨cut, hcut, hstrip⟩ := stripLine_line hline (Or.inl rfl)
      have hfree : '\n' ∉ cut := fun h => hline (hcut.isPrefix.subset h)
      have hnil : stripLine [] = [] := rfl
      rw [hnil, List.append_nil, List.append_nil] at hstrip
      rw [hstrip, List.splitOn_eq_singleton hline,
        List.splitOn_eq_singleton hfree]
      exact .cons hcut .nil
  | cons line s hline ih =>
      have hrest : EndsLine ('\n' :: s) := Or.inr rfl
      obtain ⟨cut, hcut, hstrip⟩ := stripLine_line hline hrest
      have hfree : '\n' ∉ cut := fun h => hline (hcut.isPrefix.subset h)
      rw [hstrip, stripLine_cons (by simp), splitOn_line_append hline,
        splitOn_line_append hfree]
      exact .cons hcut ih

theorem count_lineFeed_stripLine (s : Text) :
    (stripLine s).count '\n' = s.count '\n' := by
  have hlength := (forall₂_isCut_stripLine s).length_eq
  rw [length_splitOn_lineFeed, length_splitOn_lineFeed] at hlength
  exact (Nat.succ.inj hlength).symm

/-! ## Nothing is left to strip -/

/-- Taking out the comment in the middle brings a slash and a star together. -/
theorem stripBlock_not_idempotent :
    ∃ s, stripBlock (stripBlock s) ≠ stripBlock s :=
  ⟨"//**/*b*/".toList, by decide⟩

/-- **Stripping comments is complete and stable.** No line mark and no block
comment is left, so neither pass has anything left to do, although stripping
block comments alone may make new ones. Stripping line comments cuts every line
at its first mark and keeps the line feeds. -/
theorem strip_complete_stable (s : Text) :
    ¬ lineMark <:+: strip s ∧ ¬ HasBlock (strip s) ∧
    stripLine (strip s) = strip s ∧ stripBlock (strip s) = strip s ∧
    strip (strip s) = strip s ∧
    (∃ t, stripBlock (stripBlock t) ≠ stripBlock t) ∧
    List.Forall₂ IsCut (s.splitOn '\n') ((stripLine s).splitOn '\n') ∧
    (stripLine s).count '\n' = s.count '\n' := by
  have hline := not_lineMark_strip s
  have hblock := not_hasBlock_strip s
  exact ⟨hline, hblock, stripLine_eq_self hline, stripBlock_eq_self hblock,
    strip_eq_self hline hblock, stripBlock_not_idempotent,
    forall₂_isCut_stripLine s, count_lineFeed_stripLine s⟩

end ScriptMinifier.Comment
