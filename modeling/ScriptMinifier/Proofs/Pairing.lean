import ScriptMinifier.Proofs.Weaving

/-!
# Quotes in pairs

Quotes pair up from the left, so a text has one decomposition into gaps without
quotes and quoted literals: `Paired` describes it, `weaveQuoted` finds it, and a
paired text is read back as it was put together. At most one quote is left over,
in the last gap.
-/

namespace ScriptMinifier

open Spacing

/-- A quote, no quotes, and a quote. -/
inductive QuotedLiteral : Text → Prop
  | mk {q r : Char} {body : Text} (hq : isQuote q = true)
      (hbody : body.countP isQuote = 0) (hr : isQuote r = true) :
      QuotedLiteral (q :: (body ++ [r]))

/-- Gaps without quotes and quoted literals, but for a last quote without a
partner. -/
inductive Paired : Woven Text → Prop
  | last {gap : Text} (hgap : gap.countP isQuote ≤ 1) : Paired (.last gap)
  | cons {gap literal : Text} {w : Woven Text}
      (hgap : gap.countP isQuote = 0) (hliteral : QuotedLiteral literal)
      (hw : Paired w) : Paired (.cons gap literal w)

/-! ## Quotes -/

theorem isQuote_iff {c : Char} : isQuote c = true ↔ c = '"' ∨ c = '\'' := by
  simp [isQuote]

theorem not_isBlank_of_isQuote {c : Char} (h : isQuote c = true) :
    isBlank c = false := by
  rcases isQuote_iff.mp h with rfl | rfl <;> decide

/-! ## The next quote -/

theorem countP_isQuote_cons_of_true {c : Char} (hc : isQuote c = true)
    (s : Text) : (c :: s).countP isQuote = s.countP isQuote + 1 :=
  List.countP_cons_of_pos hc

theorem countP_isQuote_cons_of_false {c : Char} (hc : isQuote c = false)
    (s : Text) : (c :: s).countP isQuote = s.countP isQuote :=
  List.countP_cons_of_neg (by simp [hc])

theorem isQuote_eq_false_of_countP {c : Char} {s : Text}
    (h : (c :: s).countP isQuote = 0) :
    isQuote c = false ∧ s.countP isQuote = 0 := by
  cases hc : isQuote c with
  | true => rw [countP_isQuote_cons_of_true hc] at h; omega
  | false =>
      rw [countP_isQuote_cons_of_false hc] at h
      exact ⟨rfl, h⟩

theorem nextQuote?_append {body : Text} (hbody : body.countP isQuote = 0)
    {r : Char} (hr : isQuote r = true) (rest : Text) :
    nextQuote? (body ++ r :: rest) = some (body.length + 1) := by
  induction body with
  | nil => rw [List.nil_append, nextQuote?, if_pos hr, List.length_nil]
  | cons c body ih =>
      obtain ⟨hc, hbody⟩ := isQuote_eq_false_of_countP hbody
      rw [List.cons_append, nextQuote?, if_neg (by simp [hc]), ih hbody]
      simp

theorem nextQuote?_of_countP {s : Text} (h : s.countP isQuote = 0) :
    nextQuote? s = none := by
  induction s with
  | nil => rfl
  | cons c s ih =>
      obtain ⟨hc, h⟩ := isQuote_eq_false_of_countP h
      rw [nextQuote?, if_neg (by simp [hc]), ih h, Option.map_none]

theorem countP_of_nextQuote?_eq_none {s : Text} (h : nextQuote? s = none) :
    s.countP isQuote = 0 := by
  induction s with
  | nil => rfl
  | cons c s ih =>
      cases hc : isQuote c with
      | true =>
          rw [nextQuote?, if_pos hc] at h
          exact absurd h (by simp)
      | false =>
          rw [nextQuote?, if_neg (by simp [hc]), Option.map_eq_none_iff] at h
          rw [countP_isQuote_cons_of_false hc, ih h]

theorem eq_of_nextQuote?_eq_some {s : Text} {n : Nat}
    (h : nextQuote? s = some n) : ∃ body r rest, s = body ++ r :: rest ∧
      body.countP isQuote = 0 ∧ isQuote r = true ∧ n = body.length + 1 := by
  induction s generalizing n with
  | nil => simp [nextQuote?] at h
  | cons c s ih =>
      cases hc : isQuote c with
      | true =>
          rw [nextQuote?, if_pos hc] at h
          exact ⟨[], c, s, rfl, rfl, hc, by simpa using h.symm⟩
      | false =>
          rw [nextQuote?, if_neg (by simp [hc])] at h
          obtain ⟨m, hm, rfl⟩ := Option.map_eq_some_iff.mp h
          obtain ⟨body, r, rest, rfl, hbody, hr, rfl⟩ := ih hm
          refine ⟨c :: body, r, rest, rfl, ?_, hr, by simp⟩
          rw [countP_isQuote_cons_of_false hc, hbody]

/-! ## Weaving by parts -/

theorem weaveQuoted_cons_of_none {c : Char} {cs : Text}
    (h : quotedLength? c cs = none) :
    weaveQuoted (c :: cs) = (weaveQuoted cs).prepend [c] := by
  rw [weaveQuoted, h]

theorem Woven.prepend_prepend {α : Type} (s t : Text) (w : Woven α) :
    (w.prepend t).prepend s = w.prepend (s ++ t) := by
  cases w <;> simp [Woven.prepend]

theorem Woven.prepend_nil {α : Type} (w : Woven α) : w.prepend [] = w := by
  cases w <;> rfl

/-- Text without quotes becomes part of the first gap. -/
theorem weaveQuoted_append {t : Text} (ht : t.countP isQuote = 0) (s : Text) :
    weaveQuoted (t ++ s) = (weaveQuoted s).prepend t := by
  induction t with
  | nil => rw [List.nil_append, Woven.prepend_nil]
  | cons c t ih =>
      obtain ⟨hc, ht⟩ := isQuote_eq_false_of_countP ht
      have hnone : quotedLength? c (t ++ s) = none := if_neg (by simp [hc])
      rw [List.cons_append, weaveQuoted_cons_of_none hnone, ih ht,
        Woven.prepend_prepend]
      rfl

/-- A quoted literal becomes the first item. -/
theorem weaveQuoted_literal {literal : Text} (h : QuotedLiteral literal)
    (s : Text) :
    weaveQuoted (literal ++ s) = .cons [] literal (weaveQuoted s) := by
  cases h with
  | @mk q r body hq hbody hr =>
      have hsome : quotedLength? q (body ++ [r] ++ s) =
          some (body ++ [r]).length := by
        rw [quotedLength?, if_pos hq, List.append_assoc,
          List.singleton_append, nextQuote?_append hbody hr]
        simp
      rw [List.cons_append, weaveQuoted, hsome]
      simp only [List.take_left, List.drop_left]

/-- One quote alone begins no literal. -/
theorem weaveQuoted_last {s : Text} (h : s.countP isQuote ≤ 1) :
    weaveQuoted s = .last s := by
  induction s with
  | nil => rw [weaveQuoted]
  | cons c s ih =>
      have hnone : quotedLength? c s = none := by
        cases hc : isQuote c with
        | false => exact if_neg (by simp [hc])
        | true =>
            rw [countP_isQuote_cons_of_true hc] at h
            rw [quotedLength?, if_pos hc]
            exact nextQuote?_of_countP (by omega)
      have hle : s.countP isQuote ≤ 1 := by
        rw [List.countP_cons] at h
        omega
      rw [weaveQuoted_cons_of_none hnone, ih hle]
      rfl

/-- **Paired text is read back.** -/
theorem weaveQuoted_text {w : Woven Text} (h : Paired w) :
    weaveQuoted w.text = w := by
  induction h with
  | last hgap => exact weaveQuoted_last hgap
  | cons hgap hliteral _ ih =>
      rw [Woven.text_cons, weaveQuoted_append hgap,
        weaveQuoted_literal hliteral, ih, Woven.prepend, List.append_nil]

/-! ## What weaving finds is paired -/

theorem text_weaveQuoted (s : Text) : (weaveQuoted s).text = s := by
  fun_induction weaveQuoted s with
  | case1 => rfl
  | case2 c cs n h ih => simp [ih]
  | case3 c cs h ih => simp [ih]

theorem Paired.prepend {c : Char} (hc : isQuote c = false) {w : Woven Text}
    (h : Paired w) : Paired (w.prepend [c]) := by
  cases h with
  | last hgap =>
      refine .last ?_
      rwa [List.singleton_append, countP_isQuote_cons_of_false hc]
  | cons hgap hliteral hw =>
      refine .cons ?_ hliteral hw
      rwa [List.singleton_append, countP_isQuote_cons_of_false hc]

theorem paired_weaveQuoted (s : Text) : Paired (weaveQuoted s) := by
  fun_induction weaveQuoted s with
  | case1 => exact .last (Nat.zero_le _)
  | case2 c cs n h ih =>
      have hc : isQuote c = true := by
        by_contra hc
        rw [quotedLength?, if_neg hc] at h
        exact absurd h (by simp)
      rw [quotedLength?, if_pos hc] at h
      obtain ⟨body, r, rest, rfl, hbody, hr, rfl⟩ := eq_of_nextQuote?_eq_some h
      have htake : (body ++ r :: rest).take (body.length + 1) =
          body ++ [r] := by
        simp [List.take_append]
      rw [htake]
      exact .cons rfl (.mk hc hbody hr) ih
  | case3 c cs h ih =>
      cases hc : isQuote c with
      | false => exact ih.prepend hc
      | true =>
          rw [quotedLength?, if_pos hc] at h
          have hcount := countP_of_nextQuote?_eq_none h
          rw [weaveQuoted_last (by omega)]
          refine .last ?_
          rw [List.singleton_append, countP_isQuote_cons_of_true hc, hcount]

/-! ## Changes to the gaps that keep the pairing -/

theorem Paired.mapGaps {f : Text → Text}
    (hf : ∀ g, (f g).countP isQuote ≤ g.countP isQuote) {w : Woven Text}
    (h : Paired w) : Paired (w.mapGaps f) := by
  induction h with
  | last hgap => exact .last ((hf _).trans hgap)
  | cons hgap hliteral _ ih =>
      exact .cons (Nat.le_zero.mp ((hf _).trans hgap.le)) hliteral ih

theorem Paired.mapFirst {f : Text → Text}
    (hf : ∀ g, (f g).countP isQuote ≤ g.countP isQuote) {w : Woven Text}
    (h : Paired w) : Paired (w.mapFirst f) := by
  cases h with
  | last hgap => exact .last ((hf _).trans hgap)
  | cons hgap hliteral hw =>
      exact .cons (Nat.le_zero.mp ((hf _).trans hgap.le)) hliteral hw

theorem Paired.mapLast {f : Text → Text}
    (hf : ∀ g, (f g).countP isQuote ≤ g.countP isQuote) {w : Woven Text}
    (h : Paired w) : Paired (w.mapLast f) := by
  induction h with
  | last hgap => exact .last ((hf _).trans hgap)
  | cons hgap hliteral _ ih => exact .cons hgap hliteral ih

theorem Paired.quotedLiteral {w : Woven Text} (h : Paired w) :
    ∀ literal ∈ w.items, QuotedLiteral literal := by
  induction h with
  | last _ => simp [Woven.items]
  | cons _ hliteral _ ih =>
      rw [Woven.items, List.forall_mem_cons]
      exact ⟨hliteral, ih⟩

/-- Compression keeps every quote. -/
theorem countP_isQuote_compress (s : Text) :
    (compress s).countP isQuote = s.countP isQuote := by
  have hquote : ∀ c, (isQuote c && !isBlank c) = isQuote c := by
    intro c
    cases hc : isQuote c with
    | false => rfl
    | true => rw [not_isBlank_of_isQuote hc, Bool.not_false, Bool.and_true]
  have hcount : ∀ t : Text,
      (t.filter (!isBlank ·)).countP isQuote = t.countP isQuote := by
    intro t
    rw [List.countP_filter]
    simp only [hquote]
  rw [← hcount, filter_compress, hcount]

end ScriptMinifier
