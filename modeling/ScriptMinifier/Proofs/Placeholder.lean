import Mathlib.Data.List.Infix
import ScriptMinifier.Proofs.Woven

/-!
# Placeholders and their literals

White space passes leave placeholders alone, and putting the literals back
finds exactly the placeholders that were put in, provided that no gap holds the
opening `__STRING_` of one. A gap may still end in a part of the opening; the
overlap with the next placeholder is then short of a digit.
-/

namespace ScriptMinifier

open Text Spacing

theorem placeholderOpening_eq :
    placeholderOpening = ['_', '_', 'S', 'T', 'R', 'I', 'N', 'G', '_'] := by
  decide

theorem placeholderClosing_eq : placeholderClosing = ['_', '_'] := by decide

theorem not_isWordDigit_underscore : isWordDigit '_' = false := by decide

/-! ## Digits -/

theorem inRanges_of_lt {n low high : Nat} {rest : List (Nat × Nat)}
    (h : n < low) : inRanges n ((low, high) :: rest) = false := by
  rw [inRanges, if_pos h]

theorem inRanges_of_mem {n low high : Nat} {rest : List (Nat × Nat)}
    (hlow : low ≤ n) (hhigh : n ≤ high) :
    inRanges n ((low, high) :: rest) = true := by
  rw [inRanges, if_neg (Nat.not_lt.mpr hlow)]
  simp [hhigh]

theorem isWordDigit_of_isDigit {c : Char} (h : c.isDigit = true) :
    isWordDigit c = true := by
  obtain ⟨hlow, hhigh⟩ := Char.isDigit_iff_toNat.mp h
  have hrecent : isRecent c = false :=
    inRanges_of_lt (Nat.lt_of_le_of_lt hhigh (by decide))
  have hdecimal : isDecimalDigit c = true := inRanges_of_mem hlow hhigh
  rw [isWordDigit, hrecent, hdecimal]
  rfl

theorem isPlain_of_isDigit {c : Char} (h : c.isDigit = true) :
    isPlain c = true := by
  obtain ⟨hlow, hhigh⟩ := Char.isDigit_iff_toNat.mp h
  have hblank : isBlank c = false := by
    have hlow' : 48 ≤ c.toNat := hlow
    have hhigh' : c.toNat ≤ 57 := hhigh
    simp only [isBlank, inRanges]
    grind
  have hpunct : isPunctuation c = false := by
    rw [isPunctuation, List.contains_eq_mem, decide_eq_false_iff_not]
    intro hc
    have hall : punctuation.all (!Char.isDigit ·) = true := by decide
    simpa [h] using List.all_eq_true.mp hall c hc
  rw [isPlain, hblank, hpunct]
  rfl

theorem isDigit_of_mem_toDigits {n : Nat} {c : Char}
    (h : c ∈ Nat.toDigits 10 n) : c.isDigit = true :=
  Nat.isDigit_of_mem_toDigits (by decide) (by decide) h

/-! ## The text of a placeholder -/

theorem placeholder_ne_nil (n : Nat) : placeholder n ≠ [] := by
  rw [placeholder, placeholderOpening_eq]
  simp

theorem isPlain_of_mem_placeholderOpening :
    ∀ c ∈ placeholderOpening, isPlain c = true :=
  List.all_eq_true.mp (by decide)

theorem isPlain_of_mem_placeholder {n : Nat} {c : Char}
    (h : c ∈ placeholder n) : isPlain c = true := by
  rw [placeholder, List.mem_append, List.mem_append] at h
  have hclosing : placeholderClosing.all isPlain = true := by decide
  rcases h with (h | h) | h
  · exact isPlain_of_mem_placeholderOpening c h
  · exact isPlain_of_isDigit (isDigit_of_mem_toDigits h)
  · exact List.all_eq_true.mp hclosing c h

/-- The digits of a placeholder are those between an opening and a closing. -/
theorem placeholderDigits?_eq_some_iff {s digits : Text} :
    placeholderDigits? s = some digits ↔ digits ≠ [] ∧
      (∀ c ∈ digits, isWordDigit c = true) ∧
      placeholderOpening ++ (digits ++ placeholderClosing) <+: s := by
  constructor
  · intro h
    unfold placeholderDigits? at h
    split at h
    · next hopening =>
        obtain ⟨r, rfl⟩ := List.isPrefixOf_iff_prefix.mp hopening
        dsimp only at h
        rw [← List.drop_drop, List.drop_left, drop_length_takeWhile] at h
        split at h
        · next hcond =>
            obtain rfl := Option.some.inj h
            obtain ⟨rest, hrest⟩ := List.isPrefixOf_iff_prefix.mp hcond.2
            refine ⟨hcond.1, List.all_eq_true.mp List.all_takeWhile, rest, ?_⟩
            rw [List.append_assoc, List.append_assoc, hrest,
              List.takeWhile_append_dropWhile]
        · exact absurd h (by simp)
    · exact absurd h (by simp)
  · rintro ⟨hne, hdigits, rest, rfl⟩
    have hopening : placeholderOpening.isPrefixOf (placeholderOpening ++
        (digits ++ placeholderClosing) ++ rest) = true := by
      rw [List.isPrefixOf_iff_prefix, List.append_assoc]
      exact List.prefix_append _ _
    have htake : (digits ++ (placeholderClosing ++ rest)).takeWhile
        isWordDigit = digits := by
      rw [List.takeWhile_append_of_pos hdigits, placeholderClosing_eq]
      simp [not_isWordDigit_underscore]
    rw [placeholderDigits?, if_pos hopening]
    dsimp only
    rw [← List.drop_drop, List.append_assoc, List.drop_left,
      List.append_assoc, htake, List.drop_left]
    exact if_pos ⟨hne, List.isPrefixOf_iff_prefix.mpr
      (List.prefix_append _ _)⟩

theorem placeholderDigits?_placeholder (n : Nat) (s : Text) :
    placeholderDigits? (placeholder n ++ s) = some (Nat.toDigits 10 n) := by
  rw [placeholderDigits?_eq_some_iff]
  refine ⟨Nat.toDigits_ne_nil, fun c hc =>
    isWordDigit_of_isDigit (isDigit_of_mem_toDigits hc), ?_⟩
  rw [placeholder, List.append_assoc placeholderOpening]
  exact List.prefix_append _ _

/-! ## Where no placeholder starts -/

/-- The opening of a placeholder is not held by a gap. -/
def HasNoOpening (gap : Text) : Prop := ¬ placeholderOpening <:+: gap

instance (gap : Text) : Decidable (HasNoOpening gap) :=
  inferInstanceAs (Decidable (¬ placeholderOpening <:+: gap))

theorem HasNoOpening.of_cons {c : Char} {gap : Text}
    (h : HasNoOpening (c :: gap)) : HasNoOpening gap :=
  fun hin => h (List.infix_cons hin)

theorem HasNoOpening.compress {gap : Text} (h : HasNoOpening gap) :
    HasNoOpening (compress gap) := by
  intro hin
  exact h (isInfix_of_isInfix_compress (by decide)
    isPlain_of_mem_placeholderOpening hin)

/-- An opening that starts in a gap and ends in a placeholder has only its last
character in the placeholder. -/
theorem eq_of_opening_overlaps {gap s : Text} (hne : gap ≠ [])
    (hgap : HasNoOpening gap)
    (h : placeholderOpening <+: gap ++ (placeholderOpening ++ s)) :
    gap = placeholderOpening.dropLast := by
  rcases List.prefix_or_prefix_of_prefix h (List.prefix_append gap _)
    with hpre | hpre
  · exact absurd hpre.isInfix hgap
  · have hmem : gap ∈ placeholderOpening.inits := (List.mem_inits _ _).mpr hpre
    rw [HasNoOpening] at hgap
    rw [placeholderOpening_eq] at hmem h hgap ⊢
    simp only [List.inits, List.map_cons, List.map_nil, List.mem_cons,
      List.not_mem_nil, or_false] at hmem
    rcases hmem with rfl | rfl | rfl | rfl | rfl | rfl | rfl | rfl | rfl | rfl
    · exact absurd rfl hne
    · simp at h
    · simp at h
    · simp at h
    · simp at h
    · simp at h
    · simp at h
    · simp at h
    · rfl
    · exact absurd (List.infix_refl _) hgap

/-- What may follow a gap: nothing, or a placeholder. -/
def StartsWithPlaceholder (s : Text) : Prop :=
  s = [] ∨ ∃ n t, s = placeholder n ++ t

theorem placeholderDigits?_gap {gap s : Text} (hne : gap ≠ [])
    (hgap : HasNoOpening gap) (hs : StartsWithPlaceholder s) :
    placeholderDigits? (gap ++ s) = none := by
  rw [placeholderDigits?]
  split
  · next hpre =>
      rw [List.isPrefixOf_iff_prefix] at hpre
      rcases hs with rfl | ⟨n, t, rfl⟩
      · rw [List.append_nil] at hpre
        exact absurd hpre.isInfix hgap
      · have hshape : placeholder n ++ t = placeholderOpening ++
            (Nat.toDigits 10 n ++ (placeholderClosing ++ t)) := by
          simp [placeholder]
        rw [hshape] at hpre ⊢
        rw [eq_of_opening_overlaps hne hgap hpre]
        have hdigits : ((placeholderOpening.dropLast ++ (placeholderOpening ++
            (Nat.toDigits 10 n ++ (placeholderClosing ++ t)))).drop
              placeholderOpening.length).takeWhile isWordDigit = [] := by
          rw [placeholderOpening_eq]
          simp [not_isWordDigit_underscore]
        simp only [hdigits, ne_eq, not_true_eq_false, false_and, if_false]
  · rfl

/-! ## Putting literals back -/

namespace LiteralTable

/-- What stands in for the placeholder with number `n`. -/
def entry (table : LiteralTable) (n : Nat) : Text :=
  (table.get? n).getD (placeholder n)

theorem named?_toDigits (table : LiteralTable) (n : Nat) :
    table.named? (Nat.toDigits 10 n) = table.get? n := by
  have hall : (Nat.toDigits 10 n).all Char.isDigit = true :=
    List.all_eq_true.mpr fun c hc => isDigit_of_mem_toDigits hc
  rw [named?, if_pos hall, Nat.ofDigitChars_ten_toDigits]

theorem restoreRule_blind (table : LiteralTable) :
    Rule.Blind table.restoreRule := fun _ _ => rfl

theorem restoreRule_placeholder (table : LiteralTable) (n : Nat) (s : Text) :
    table.restoreRule none (placeholder n ++ s) =
      some ⟨(placeholder n).length, table.entry n⟩ := by
  rw [restoreRule, placeholderDigits?_placeholder, Option.map_some,
    named?_toDigits]
  rfl

theorem restore_placeholder (table : LiteralTable) (n : Nat) (s : Text) :
    table.restore (placeholder n ++ s) = table.entry n ++ table.restore s := by
  obtain ⟨c, cs, hcs⟩ := List.exists_cons_of_ne_nil (placeholder_ne_nil n)
  have hrule := table.restoreRule_placeholder n s
  have hpos : 0 < (placeholder n).length := by simp [hcs]
  have hdrop : (placeholder n ++ s).drop (placeholder n).length = s :=
    List.drop_left
  rw [hcs, List.cons_append] at hrule hdrop
  rw [restore, hcs, List.cons_append,
    table.restoreRule_blind.replace_of_some hrule (by simp), hdrop]
  rfl

theorem restore_gap (table : LiteralTable) {s : Text}
    (hs : StartsWithPlaceholder s) : ∀ {gap : Text}, HasNoOpening gap →
    table.restore (gap ++ s) = gap ++ table.restore s
  | [], _ => rfl
  | c :: gap, hgap => by
      have hnone : table.restoreRule none (c :: (gap ++ s)) = none := by
        rw [restoreRule, ← List.cons_append,
          placeholderDigits?_gap (by simp) hgap hs, Option.map_none]
      rw [List.cons_append, restore,
        table.restoreRule_blind.replace_of_none hnone]
      have ih := restore_gap table hs hgap.of_cons
      rw [restore] at ih
      rw [ih]
      rfl

/-- **Restoring is one simultaneous substitution.** Between gaps without an
opening, exactly the placeholders are replaced. -/
theorem restore_render (table : LiteralTable) : ∀ {w : Woven Nat},
    (∀ gap ∈ w.gaps, HasNoOpening gap) →
    table.restore (w.render placeholder) = w.render table.entry
  | .last gap, h => by
      have hgap := table.restore_gap (Or.inl rfl) (h gap (by simp [Woven.gaps]))
      rw [List.append_nil] at hgap
      simpa [Woven.render, restore, replace, replaceFrom] using hgap
  | .cons gap n w, h => by
      have hrest := restore_render table (w := w)
        (fun g hg => h g (List.mem_cons_of_mem _ hg))
      rw [Woven.render, Woven.render,
        table.restore_gap (Or.inr ⟨n, _, rfl⟩) (h gap (by simp [Woven.gaps])),
        restore_placeholder, hrest]

/-- With the items of `w` in the table, counted from `first`, the numbers stand
for the items. -/
theorem render_number_entry (table : LiteralTable) : ∀ (w : Woven Text)
    (first : Nat), table.toList.drop first = w.items →
    (w.number first).render table.entry = w.text
  | .last gap, _, _ => rfl
  | .cons gap item w, first, h => by
      rw [Woven.items] at h
      have hget : table.get? first = some item := by
        have hhead := congrArg List.head? h
        rw [List.head?_drop] at hhead
        simpa [get?, toList] using hhead
      have htail : table.toList.drop (first + 1) = w.items := by
        have htl := congrArg List.tail h
        rwa [List.tail_drop] at htl
      rw [Woven.number, Woven.render, render_number_entry table w _ htail,
        entry, hget, Woven.text_cons]
      rfl

theorem restore_masked {table : LiteralTable} {w : Woven Text}
    (hitems : table.toList = w.items)
    (hgaps : ∀ gap ∈ w.gaps, HasNoOpening gap) :
    table.restore (w.masked 0) = w.text := by
  rw [Woven.masked, table.restore_render (by simpa using hgaps)]
  exact table.render_number_entry w 0 (by simpa using hitems)

end LiteralTable

/-! ## White space around placeholders -/

/-- Compressing a text with placeholders compresses its gaps. -/
theorem compress_render : ∀ w : Woven Nat,
    compress (w.render placeholder) = (w.mapGaps compress).render placeholder
  | .last _ => rfl
  | .cons gap n w => by
      rw [Woven.render, compress_append_word (placeholder_ne_nil n)
        (fun _ hc => isPlain_of_mem_placeholder hc), compress_render w]
      rfl

theorem compress_masked (first : Nat) (w : Woven Text) :
    compress (w.masked first) = (w.mapGaps compress).masked first := by
  rw [Woven.masked, compress_render, Woven.masked, Woven.number_mapGaps]

end ScriptMinifier
