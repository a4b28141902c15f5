import Mathlib.Data.List.Basic
import ScriptMinifier.Proofs.Pairing

/-!
# Literals out and back in

Putting literals back replaces every placeholder at once, whatever the literals
look like. Taking quoted literals out goes by the positions of the quotes alone:
the first and the second quote bound a literal, the third and the fourth bound
the next one, and so on. Putting them back then gives the text again.
-/

namespace ScriptMinifier

/-! ## Placeholders in a row -/

namespace Woven

variable {α : Type}

/-- A first gap, and items with the gap behind each. -/
def ofList (gap : Text) : List (α × Text) → Woven α
  | [] => .last gap
  | (item, next) :: rest => .cons gap item (ofList next rest)

theorem render_ofList (write : α → Text) (gap : Text)
    (rest : List (α × Text)) : (ofList gap rest).render write =
      gap ++ rest.flatMap fun p => write p.1 ++ p.2 := by
  induction rest generalizing gap with
  | nil => simp [ofList, render]
  | cons p rest ih => simp [ofList, render, ih]

theorem gaps_ofList (gap : Text) (rest : List (α × Text)) :
    (ofList gap rest).gaps = gap :: rest.map Prod.snd := by
  induction rest generalizing gap with
  | nil => rfl
  | cons p rest ih => simp [ofList, gaps, ih]

end Woven

/-- **Placeholders give way all at once.** Their numbers may come in any order,
twice or with no literal to them. Each placeholder gives way to its literal, or
stays if there is none, and the literals are not searched again. -/
theorem LiteralTable.restore_simultaneous (table : LiteralTable) (gap : Text)
    (rest : List (Nat × Text)) (hgap : HasNoOpening gap)
    (hrest : ∀ p ∈ rest, HasNoOpening p.2) :
    table.restore (gap ++ rest.flatMap fun p => placeholder p.1 ++ p.2) =
      gap ++ rest.flatMap fun p =>
        (table.get? p.1).getD (placeholder p.1) ++ p.2 := by
  have hgaps : ∀ g ∈ (Woven.ofList gap rest).gaps, HasNoOpening g := by
    rw [Woven.gaps_ofList, List.forall_mem_cons, List.forall_mem_map]
    exact ⟨hgap, hrest⟩
  rw [← Woven.render_ofList, table.restore_render hgaps, Woven.render_ofList]
  rfl

/-- Literals that look like placeholders. -/
def lookalikes : LiteralTable :=
  .ofList ["'__STRING_1__'".toList, "`__STRING_0__`".toList]

/-- The gaps look like parts of placeholders, and no literal has the number
seven. -/
theorem LiteralTable.restore_simultaneous_lookalikes :
    HasNoOpening "__STRING".toList ∧
    (∀ p ∈ [(1, "_".toList), (0, "STRING_5__".toList), (7, []), (1, [])],
      HasNoOpening p.2) ∧
    lookalikes.restore ("__STRING__STRING_1_____STRING_0__".toList ++
        "STRING_5____STRING_7____STRING_1__".toList) =
      "__STRING`__STRING_0__`_'__STRING_1__'".toList ++
        "STRING_5____STRING_7__`__STRING_0__`".toList := by
  have hgap : HasNoOpening "__STRING".toList := by decide +kernel
  have hrest : ∀ p ∈ [(1, "_".toList), (0, "STRING_5__".toList), (7, []),
      (1, [])], HasNoOpening p.2 := by decide +kernel
  refine ⟨hgap, hrest, Eq.trans ?_ ((restore_simultaneous lookalikes _ _ hgap
    hrest).trans ?_)⟩
  · exact congrArg lookalikes.restore (by decide +kernel)
  · decide +kernel

/-! ## Slices between quotes -/

/-- Where the quotes of a text stand. -/
def quotePositions (s : Text) : List Nat := s.findIdxs isQuote

/-- The text from `start` on. Its items are the slices from the first position
through the second, from the third through the fourth, and so on. -/
def slicesFrom (s : Text) (start : Nat) : List Nat → Woven Text
  | first :: second :: positions =>
      .cons (s.extract start first) (s.extract first (second + 1))
        (slicesFrom s (second + 1) positions)
  | _ => .last (s.drop start)

/-- The slices between the quotes of a text. -/
def quotedSlices (s : Text) : Woven Text := slicesFrom s 0 (quotePositions s)

theorem slicesFrom_of_length_le {s : Text} {start : Nat} {positions : List Nat}
    (h : positions.length ≤ 1) :
    slicesFrom s start positions = .last (s.drop start) := by
  rcases positions with _ | ⟨first, _ | ⟨second, positions⟩⟩
  · rfl
  · rfl
  · simp at h

/-- The item with number `i` lies between the positions `2 * i` and
`2 * i + 1`. -/
theorem getElem?_items_slicesFrom (s : Text) (start : Nat)
    (positions : List Nat) (i : Nat) :
    (slicesFrom s start positions).items[i]? =
      positions[2 * i]?.bind fun first =>
        positions[2 * i + 1]?.map fun second =>
          s.extract first (second + 1) := by
  fun_induction slicesFrom s start positions generalizing i with
  | case1 start first second positions ih =>
      cases i with
      | zero => rfl
      | succ i => simpa [Woven.items, Nat.mul_add] using ih i
  | case2 positions start h =>
      rcases positions with _ | ⟨first, _ | ⟨second, positions⟩⟩
      · simp [Woven.items]
      · simp [Woven.items]
      · exact (h first second positions rfl).elim

theorem extract_of_eq {s a b c : Text} {start stop : Nat}
    (hs : s = a ++ (b ++ c)) (hstart : start = a.length)
    (hstop : stop = start + b.length) : s.extract start stop = b := by
  subst hs hstop hstart
  simp

/-! ## Quotes of paired text -/

theorem findIdxs_isQuote_of_countP {s : Text} (h : s.countP isQuote = 0)
    (n : Nat) : s.findIdxs isQuote n = [] := by
  rw [← List.length_eq_zero_iff, List.length_findIdxs, h]

theorem QuotedLiteral.findIdxs_isQuote {literal : Text}
    (h : QuotedLiteral literal) (n : Nat) : ∃ last,
      literal.findIdxs isQuote n = [n, last] ∧
      last + 1 = n + literal.length := by
  cases h with
  | @mk q r body hq hbody hr =>
      refine ⟨n + 1 + body.length, ?_, by simp; omega⟩
      rw [List.findIdxs_cons, if_pos hq, List.findIdxs_append,
        findIdxs_isQuote_of_countP hbody, List.findIdxs_singleton, if_pos hr]
      rfl

/-- Paired text is cut at the positions of its quotes as it was put together. -/
theorem Paired.slicesFrom_eq {w : Woven Text} (h : Paired w) (front : Text) :
    slicesFrom (front ++ w.text) front.length
      (w.text.findIdxs isQuote front.length) = w := by
  induction h generalizing front with
  | @last gap hgap =>
      rw [slicesFrom_of_length_le (by rwa [List.length_findIdxs]),
        List.drop_left]
      rfl
  | @cons gap literal w hgap hliteral _ ih =>
      obtain ⟨last, hpositions, hlast⟩ :=
        hliteral.findIdxs_isQuote (front.length + gap.length)
      have hend : last + 1 = (front ++ (gap ++ literal)).length := by
        rw [hlast, List.length_append, List.length_append, Nat.add_assoc]
      have hgapSlice : (front ++ (gap ++ (literal ++ w.text))).extract
          front.length (front.length + gap.length) = gap :=
        extract_of_eq rfl rfl rfl
      have hliteralSlice : (front ++ (gap ++ (literal ++ w.text))).extract
          (front.length + gap.length) (last + 1) = literal :=
        extract_of_eq (a := front ++ gap) (c := w.text) (by simp) (by simp)
          hlast
      have hrest := ih (front ++ (gap ++ literal))
      rw [List.append_assoc, List.append_assoc, ← hend] at hrest
      rw [Woven.text_cons, List.findIdxs_append, List.findIdxs_append,
        findIdxs_isQuote_of_countP hgap, hpositions, ← hlast,
        List.nil_append, List.cons_append, List.cons_append, List.nil_append,
        slicesFrom, hgapSlice, hliteralSlice, hrest]

theorem weaveQuoted_eq_quotedSlices (s : Text) :
    weaveQuoted s = quotedSlices s := by
  have h := (paired_weaveQuoted s).slicesFrom_eq []
  rw [text_weaveQuoted] at h
  exact h.symm

theorem QuotedLiteral.countP_isQuote {literal : Text}
    (h : QuotedLiteral literal) : literal.countP isQuote = 2 := by
  cases h with
  | mk hq hbody hr =>
      rw [countP_isQuote_cons_of_true hq, List.countP_append, hbody,
        countP_isQuote_cons_of_true hr]
      rfl

theorem countP_isQuote_placeholder (n : Nat) :
    (placeholder n).countP isQuote = 0 := by
  have hdigits : (Nat.toDigits 10 n).countP isQuote = 0 := by
    rw [List.countP_eq_zero]
    intro c hc hquote
    have hdigit := isDigit_of_mem_toDigits hc
    rcases isQuote_iff.mp hquote with rfl | rfl
    · exact absurd hdigit (by decide)
    · exact absurd hdigit (by decide)
  rw [placeholder, List.countP_append, List.countP_append, hdigits]
  rfl

/-- Every literal takes two quotes along, and at most one is left. -/
theorem Paired.countP_masked {w : Woven Text} (h : Paired w) (first : Nat) :
    (w.masked first).countP isQuote + 2 * w.items.length =
      w.text.countP isQuote ∧ (w.masked first).countP isQuote ≤ 1 := by
  induction h generalizing first with
  | last hgap => exact ⟨rfl, hgap⟩
  | cons hgap hliteral _ ih =>
      obtain ⟨hcount, hle⟩ := ih (first + 1)
      simp only [Woven.masked_cons, Woven.text_cons, Woven.items,
        List.countP_append, List.length_cons, hgap, hliteral.countP_isQuote,
        countP_isQuote_placeholder]
      omega

/-! ## Quoted literals out and back in -/

theorem text_protect (s : Text) : (protect s).1 = (weaveQuoted s).masked 0 :=
  (protectFrom_eq s {}).1

theorem toList_protect (s : Text) :
    (protect s).2.toList = (weaveQuoted s).items :=
  (protectFrom_eq s {}).2

/-- **Quotes pair up from the left.** With `n` quotes in the text there are
`n / 2` literals, and the literal with number `i` is the slice from quote
`2 * i` through quote `2 * i + 1`. The slices give way to placeholders, which
leaves `n % 2` quotes. If no placeholder seems to open between the slices,
restoring gives the text back, whatever the slices hold. -/
theorem protect_quotedSlices (s : Text) :
    (quotedSlices s).text = s ∧
    (protect s).1 = (quotedSlices s).masked 0 ∧
    (protect s).2.toList = (quotedSlices s).items ∧
    (protect s).2.size = s.countP isQuote / 2 ∧
    (∀ i < s.countP isQuote / 2, ∃ first second,
      (quotePositions s)[2 * i]? = some first ∧
      (quotePositions s)[2 * i + 1]? = some second ∧
      (protect s).2.get? i = some (s.extract first (second + 1))) ∧
    (protect s).1.countP isQuote = s.countP isQuote % 2 ∧
    ((∀ gap ∈ (quotedSlices s).gaps, HasNoOpening gap) →
      (protect s).2.restore (protect s).1 = s) := by
  have hpaired := paired_weaveQuoted s
  have htext := text_weaveQuoted s
  have hprotect := text_protect s
  have hitems := toList_protect s
  rw [weaveQuoted_eq_quotedSlices] at hpaired htext hprotect hitems
  obtain ⟨hcount, hle⟩ := hpaired.countP_masked 0
  have hsize : (protect s).2.size = (quotedSlices s).items.length := by
    rw [← hitems]
    rfl
  rw [htext, ← hprotect, ← hsize] at hcount
  rw [← hprotect] at hle
  refine ⟨htext, hprotect, hitems, by omega, ?_, by omega, ?_⟩
  · intro i hi
    have hlength : (quotePositions s).length = s.countP isQuote :=
      List.length_findIdxs
    have hfirst : 2 * i < (quotePositions s).length := by omega
    have hsecond : 2 * i + 1 < (quotePositions s).length := by omega
    refine ⟨_, _, List.getElem?_eq_getElem hfirst,
      List.getElem?_eq_getElem hsecond, ?_⟩
    have hget : (protect s).2.get? i = (quotedSlices s).items[i]? := by
      rw [← hitems, LiteralTable.toList, Array.getElem?_toList]
      rfl
    rw [hget, quotedSlices, getElem?_items_slicesFrom,
      List.getElem?_eq_getElem hfirst, List.getElem?_eq_getElem hsecond]
    rfl
  · intro hgaps
    rw [hprotect, LiteralTable.restore_masked hitems hgaps, htext]

/-- Five quotes. One literal holds a placeholder, the other a quote of another
kind than its first, and the gaps look like parts of placeholders. -/
def fiveQuotes : Text := "__STRING\"__STRING_1__\"STRING_0__'a\"_'".toList

theorem protect_quotedSlices_fiveQuotes :
    (∀ gap ∈ (quotedSlices fiveQuotes).gaps, HasNoOpening gap) ∧
    (protect fiveQuotes).1 =
      "__STRING__STRING_0__STRING_0____STRING_1___'".toList ∧
    (protect fiveQuotes).2.toList =
      ["\"__STRING_1__\"".toList, "'a\"".toList] ∧
    (protect fiveQuotes).2.restore (protect fiveQuotes).1 = fiveQuotes := by
  have hgaps : ∀ gap ∈ (quotedSlices fiveQuotes).gaps, HasNoOpening gap := by
    decide +kernel
  obtain ⟨-, htext, hitems, -, -, -, hrestore⟩ :=
    protect_quotedSlices fiveQuotes
  exact ⟨hgaps, htext.trans (by decide +kernel),
    hitems.trans (by decide +kernel), hrestore hgaps⟩

end ScriptMinifier
