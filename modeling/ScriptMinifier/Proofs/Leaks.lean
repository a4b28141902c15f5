import ScriptMinifier.Proofs.Slashes
import ScriptMinifier.Proofs.Weaving

/-!
# No word is put together

Dropping comments, compressing white space and putting literals back bring
pieces of a script together that were apart. None of it puts a word together:
where a run of identifier characters stands in the output, it stands in the
script. A literal starts with a delimiter, so no word runs into one. Behind an
identifier character a comment leaves a blank if another one follows, and it
does so behind every literal, because the placeholder ends in one.

The opening of a placeholder is such a word. A script without it has an output
without it.
-/

namespace ScriptMinifier

open Text Spacing

/-- Made of identifier characters. -/
def IsIdentifier (word : Text) : Prop :=
  ∀ c ∈ word, isIdentifierChar c = true

theorem isIdentifier_placeholderOpening : IsIdentifier placeholderOpening :=
  List.all_eq_true.mp (by decide +kernel)

/-! ## Words and seams -/

theorem prefix_append_cases {word s t : Text} (h : word <+: s ++ t) :
    word <+: s ∨ ∃ rest, word = s ++ rest ∧ rest <+: t := by
  rcases List.prefix_or_prefix_of_prefix h (List.prefix_append s t)
    with hpre | ⟨rest, rfl⟩
  · exact Or.inl hpre
  · exact Or.inr ⟨rest, rfl, (List.prefix_append_right_inj s).mp h⟩

theorem infix_append_of {u v s t : Text} (hu : u <:+ s) (hv : v <+: t) :
    u ++ v <:+: s ++ t := by
  obtain ⟨a, rfl⟩ := hu
  obtain ⟨b, rfl⟩ := hv
  exact ⟨a, b, by simp⟩

namespace IsIdentifier

variable {word s t : Text}

theorem isPlain (h : IsIdentifier word) : ∀ c ∈ word, isPlain c = true :=
  fun c hc => Script.isPlain_of_isIdentifierChar (h c hc)

theorem of_infix {part : Text} (h : IsIdentifier word)
    (hpart : part <:+: word) : IsIdentifier part :=
  fun c hc => h c (hpart.subset hc)

/-- No word stands where no identifier character does. -/
theorem eq_nil (h : IsIdentifier word)
    (hs : s.head?.any isIdentifierChar = false) (hpre : word <+: s) :
    word = [] := by
  cases word with
  | nil => rfl
  | cons c word =>
      obtain ⟨t, rfl⟩ := hpre
      have hc := h c List.mem_cons_self
      rw [List.cons_append, List.head?_cons, Option.any_some, hc] at hs
      exact absurd hs (by decide)

/-- A word does not run into what starts with no identifier character. -/
theorem isPrefix_left (h : IsIdentifier word)
    (ht : t.head?.any isIdentifierChar = false) (hpre : word <+: s ++ t) :
    word <+: s := by
  rcases prefix_append_cases hpre with hpre | ⟨rest, rfl, hrest⟩
  · exact hpre
  · rw [(h.of_infix (List.suffix_append s rest).isInfix).eq_nil ht hrest,
      List.append_nil]

/-- A word does not start in blanks. -/
theorem isInfix_right (h : IsIdentifier word) (hne : word ≠ [])
    (hs : ∀ c ∈ s, isBlank c = true) (hin : word <:+: s ++ t) :
    word <:+: t := by
  have hapart : ∀ c ∈ s, c ∉ word := by
    intro c hc hmem
    have hident := h c hmem
    rw [not_isIdentifierChar_of_isBlank (hs c hc)] at hident
    exact absurd hident (by decide)
  rcases List.infix_append_iff.mp hin with hin | hin | ⟨u, v, rfl, hu, hv⟩
  · obtain ⟨c, w, rfl⟩ := List.exists_cons_of_ne_nil hne
    exact absurd List.mem_cons_self
      (hapart c (hin.subset List.mem_cons_self))
  · exact hin
  · cases u with
    | nil => exact hv.isInfix
    | cons c u =>
        exact absurd (by simp) (hapart c (hu.subset List.mem_cons_self))

end IsIdentifier

/-! ## Dropping comments -/

namespace Script

theorem isBlank_of_mem_commentTrace {comment : Text}
    {before after : Option Char} :
    ∀ c ∈ commentTrace comment before after, isBlank c = true := by
  unfold commentTrace
  split
  · simp [isBlank_newline]
  · split <;> simp [isBlank_space]

theorem Region.Shaped.head?_any {r : Region} (h : r.Shaped)
    (hkind : r.kind = .literal) (s : Text) :
    (r.text ++ s).head?.any isIdentifierChar = false := by
  rw [Region.Shaped, hkind] at h
  obtain ⟨c, hc, hhead⟩ := h
  obtain ⟨t, ht⟩ := List.head?_eq_some_iff.mp hhead
  have hall : ['\'', '"', '`', '/'].all (!isIdentifierChar ·) = true := by
    decide +kernel
  rw [ht, List.cons_append, List.head?_cons, Option.any_some]
  simpa using List.all_eq_true.mp hall c hc

/-- A word that runs over the end of a region holds its last character. -/
theorem Region.any_getLast? {r : Region} {u v : Text}
    (hword : IsIdentifier (u ++ v)) (hne : u ≠ []) (hu : u <:+ r.text) :
    r.text.getLast?.any isIdentifierChar = true := by
  obtain ⟨s, d, rfl⟩ := (List.eq_nil_or_concat u).resolve_left hne
  obtain ⟨t, ht⟩ := hu
  rw [← ht]
  simpa using hword d (by simp)

/-- Behind an identifier character, a word at the start of what regions leave is
at the start of the regions. -/
theorem isPrefix_joined {word : Text} (hword : IsIdentifier word)
    {regions : List Region} (hshaped : ∀ r ∈ regions, r.Shaped)
    {before : Option Char} (hbefore : before.any isIdentifierChar = true)
    (h : word <+: (weaveRegions before regions).text) :
    word <+: joined regions := by
  induction regions generalizing before word with
  | nil => exact h
  | cons r regions ih =>
      rw [List.forall_mem_cons] at hshaped
      rw [weaveRegions] at h
      rw [joined_cons]
      cases hkind : r.kind with
      | code =>
          simp only [hkind, Woven.text_prepend] at h
          rcases prefix_append_cases h with hpre | ⟨rest, rfl, hrest⟩
          · exact hpre.trans (List.prefix_append _ _)
          · rw [List.prefix_append_right_inj]
            exact ih (hword.of_infix (List.suffix_append _ _).isInfix)
              hshaped.2 (Region.any_getLast? hword r.nonempty
                (List.suffix_refl _)) hrest
      | literal =>
          simp only [hkind, Woven.text_cons, List.nil_append] at h
          rw [hword.eq_nil (hshaped.1.head?_any hkind _) h]
          exact List.nil_prefix
      | comment =>
          simp only [hkind, Woven.text_prepend] at h
          have hnil : word = [] := by
            rcases commentTrace_cases r.text hbefore (joined regions).head?
              with ⟨htrace, hafter⟩ | ⟨b, htrace, hb⟩
            · rw [htrace] at h
              exact hword.eq_nil hafter (ih hword hshaped.2 hbefore h)
            · rw [htrace] at h
              exact hword.eq_nil (s := b :: _)
                (not_isIdentifierChar_of_isBlank hb) h
          rw [hnil]
          exact List.nil_prefix

/-- A word of what regions leave is a word of the regions. -/
theorem isInfix_joined {word : Text} (hword : IsIdentifier word)
    (hne : word ≠ []) {regions : List Region}
    (hshaped : ∀ r ∈ regions, r.Shaped) {before : Option Char}
    (h : word <:+: (weaveRegions before regions).text) :
    word <:+: joined regions := by
  induction regions generalizing before with
  | nil => exact h
  | cons r regions ih =>
      rw [List.forall_mem_cons] at hshaped
      have hbehind : ∀ {last : Option Char},
          word <:+: (weaveRegions last regions).text →
          word <:+: r.text ++ joined regions :=
        fun hin => (ih hshaped.2 hin).trans (List.suffix_append _ _).isInfix
      have hfrom : ∀ {last : Option Char},
          (∀ {u v}, word = u ++ v → u ≠ [] → u <:+ r.text →
            last.any isIdentifierChar = true) →
          word <:+: r.text ++ (weaveRegions last regions).text →
          word <:+: r.text ++ joined regions := by
        intro last hlast hin
        rcases List.infix_append_iff.mp hin with hin | hin | ⟨u, v, rfl, hu, hv⟩
        · exact hin.trans (List.prefix_append _ _).isInfix
        · exact hbehind hin
        · by_cases hnil : u = []
          · subst hnil
            exact hbehind hv.isInfix
          · exact infix_append_of hu (isPrefix_joined
              (hword.of_infix (List.suffix_append u v).isInfix) hshaped.2
              (hlast rfl hnil hu) hv)
      rw [weaveRegions] at h
      rw [joined_cons]
      cases hkind : r.kind with
      | code =>
          simp only [hkind, Woven.text_prepend] at h
          refine hfrom ?_ h
          rintro u v rfl hnil hu
          exact Region.any_getLast? hword hnil hu
      | literal =>
          simp only [hkind, Woven.text_cons, List.nil_append] at h
          refine hfrom ?_ h
          intros
          rw [placeholderClosing_eq]
          decide +kernel
      | comment =>
          simp only [hkind, Woven.text_prepend] at h
          exact hbehind (hword.isInfix_right hne isBlank_of_mem_commentTrace h)

end Script

/-! ## Compressing gaps -/

namespace Woven

theorem isInfix_text {w : Woven Text} {gap : Text} (h : gap ∈ w.gaps) :
    gap <:+: w.text := by
  induction w with
  | last g => rw [List.mem_singleton.mp h, text_last]
  | cons g item rest ih =>
      rw [text_cons]
      rcases List.mem_cons.mp h with rfl | h
      · exact (List.prefix_append _ _).isInfix
      · rw [← List.append_assoc]
        exact (ih h).trans (List.suffix_append _ _).isInfix

variable {word : Text} (hword : IsIdentifier word) {w : Woven Text}
  (hitems : ∀ item ∈ w.items, ∀ s : Text,
    (item ++ s).head?.any isIdentifierChar = false)

include hword hitems

theorem isPrefix_text_of_compress
    (h : word <+: (w.mapGaps compress).text) : word <+: w.text := by
  cases w with
  | last gap =>
      rw [mapGaps, text_last, compress_eq_tighten] at h
      exact isPrefix_of_isPrefix_tighten hword.isPlain h
  | cons gap item rest =>
      rw [items, List.forall_mem_cons] at hitems
      rw [mapGaps, text_cons] at h
      have hgap := hword.isPrefix_left (hitems.1 _) h
      rw [compress_eq_tighten] at hgap
      rw [text_cons]
      exact (isPrefix_of_isPrefix_tighten hword.isPlain hgap).trans
        (List.prefix_append _ _)

/-- Compressing the gaps puts no word together. -/
theorem isInfix_text_of_compress (hne : word ≠ [])
    (h : word <:+: (w.mapGaps compress).text) : word <:+: w.text := by
  induction w with
  | last gap => exact isInfix_of_isInfix_compress hne hword.isPlain h
  | cons gap item rest ih =>
      rw [items, List.forall_mem_cons] at hitems
      rw [mapGaps, text_cons] at h
      rw [text_cons]
      have hgap :
          word <:+: compress gap → word <:+: gap ++ (item ++ rest.text) :=
        fun hin => (isInfix_of_isInfix_compress hne hword.isPlain hin).trans
          (List.prefix_append _ _).isInfix
      have hrest : word <:+: item ++ rest.text →
          word <:+: gap ++ (item ++ rest.text) :=
        fun hin => hin.trans (List.suffix_append _ _).isInfix
      rcases List.infix_append_iff.mp h with h | h | ⟨u, v, rfl, hu, hv⟩
      · exact hgap h
      · apply hrest
        rcases List.infix_append_iff.mp h with h | h | ⟨u, v, rfl, hu, hv⟩
        · exact h.trans (List.prefix_append _ _).isInfix
        · exact (ih hitems.2 h).trans (List.suffix_append _ _).isInfix
        · exact infix_append_of hu (isPrefix_text_of_compress
            (hword.of_infix (List.suffix_append u v).isInfix) hitems.2 hv)
      · have hnil := (hword.of_infix (List.suffix_append u v).isInfix).eq_nil
          (hitems.1 _) hv
        subst hnil
        rw [List.append_nil] at hgap ⊢
        exact hgap hu.isInfix

end Woven

/-! ## The output -/

theorem isInfix_source_of_weave {word : Text} (hword : IsIdentifier word)
    (hne : word ≠ []) {source : Text}
    (h : word <:+: (weave .lexical source).text) : word <:+: source := by
  have hin := Script.isInfix_joined hword hne
    (Script.Progress.regions_shaped {} source) h
  rwa [Script.Progress.joined_regions] at hin

theorem hasNoOpening_weave {source : Text} (h : HasNoOpening source) :
    ∀ gap ∈ (weave .lexical source).gaps, HasNoOpening gap := by
  intro gap hgap hin
  exact h (isInfix_source_of_weave isIdentifier_placeholderOpening (by decide)
    (hin.trans (Woven.isInfix_text hgap)))

/-- Every word of the output is a word of the script. -/
theorem isInfix_source_of_minify {word : Text} (hword : IsIdentifier word)
    (hne : word ≠ []) {source : Text} (hsource : HasNoOpening source)
    (h : word <:+: minify .lexical source) : word <:+: source := by
  rw [minify_of_masked (text_prepare _ _) (literals_prepare _ _)
    (hasNoOpening_weave hsource), trim_eq] at h
  have htext := (h.trans (List.rdropWhile_prefix _ _).isInfix).trans
    (List.dropWhile_suffix _).isInfix
  refine isInfix_source_of_weave hword hne
    (Woven.isInfix_text_of_compress hword ?_ hne htext)
  intro item hitem s
  rw [weave, Script.items_weaveRegions] at hitem
  obtain ⟨r, hr, rfl⟩ := List.mem_map.mp hitem
  obtain ⟨hr, hkind⟩ := List.mem_filter.mp hr
  exact (Script.Progress.regions_shaped {} source r hr).head?_any
    (of_decide_eq_true hkind) s

/-- Pieces of an opening on both sides of comments, of a line break behind an
open string, and of the flags of a regular expression. -/
def shreddedSource : Text :=
  "__STR/**//* */ING_0__ = /x/__STR//\nING_ + '__STR\nING_0__".toList

/-- **No placeholder leaks.** If the opening of a placeholder is not in the
script, it is not in the output. -/
theorem hasNoOpening_minify (source : Text) (h : HasNoOpening source) :
    HasNoOpening (Minifier.minify { strategy := .lexical } source).output := by
  intro hin
  exact h (isInfix_source_of_minify isIdentifier_placeholderOpening
    (by decide) h hin)

theorem hasNoOpening_minify_shreddedSource :
    HasNoOpening shreddedSource ∧
    (Minifier.minify { strategy := .lexical } shreddedSource).output =
      "__STR ING_0__=/x/__STR ING_+'__STR ING_0__".toList ∧
    HasNoOpening
      (Minifier.minify { strategy := .lexical } shreddedSource).output := by
  have h : HasNoOpening shreddedSource := by decide +kernel
  have houtput : (Minifier.minify { strategy := .lexical }
      shreddedSource).output =
        "__STR ING_0__=/x/__STR ING_+'__STR ING_0__".toList :=
    (minify_of_masked (text_prepare _ _) (literals_prepare _ _)
      (hasNoOpening_weave h)).trans (by decide +kernel)
  exact ⟨h, houtput, hasNoOpening_minify shreddedSource h⟩

end ScriptMinifier
