import ScriptMinifier.Comment
import ScriptMinifier.Proofs.Pieces
import ScriptMinifier.Proofs.Replacement

/-!
# Comments by pattern, laws

What the two patterns do to a text that is put together from parts, and why
nothing is left for them afterwards. Dropping block comments alone can bring a
`/` and a `*` together into a new mark; once no `//` is left it cannot, for a
comment then has no `/` on either side.
-/

namespace ScriptMinifier.Comment

open Text Script

theorem lineRule_blind : Rule.Blind lineRule := by
  intro before s
  unfold lineRule
  split <;> rfl

theorem blockRule_blind : Rule.Blind blockRule := by
  intro before s
  unfold blockRule
  split <;> rfl

/-! ## Line comments -/

theorem stripLine_cons {c : Char} {cs : Text}
    (h : ¬ (c = '/' ∧ cs.head? = some '/')) :
    stripLine (c :: cs) = c :: stripLine cs := by
  have hnone : lineRule none (c :: cs) = none := by
    unfold lineRule
    split
    · next heq =>
        obtain ⟨rfl, rfl⟩ := List.cons.inj heq
        exact absurd ⟨rfl, rfl⟩ h
    · rfl
  exact lineRule_blind.replace_of_none hnone

theorem stripLine_lineMark (cs : Text) : stripLine (lineMark ++ cs) =
    stripLine (cs.drop (lineCommentLength cs)) := by
  have hsome : lineRule none ('/' :: '/' :: cs) =
      some ⟨lineCommentLength cs + 2, []⟩ := rfl
  exact lineRule_blind.replace_of_some hsome (Nat.succ_pos _)

/-- A line comment up to the end of its line goes. -/
theorem stripLine_comment {body s : Text} (hbody : '\n' ∉ body)
    (hs : EndsLine s) :
    stripLine (lineMark ++ (body ++ s)) = stripLine s := by
  rw [stripLine_lineMark, lineCommentLength_append hbody hs, List.drop_left]

/-- Text without the mark stays, unless its last slash meets another one. -/
theorem stripLine_append {t s : Text} (ht : ¬ lineMark <:+: t)
    (hs : ¬ (t.getLast? = some '/' ∧ s.head? = some '/')) :
    stripLine (t ++ s) = t ++ stripLine s := by
  induction t with
  | nil => rfl
  | cons c t ih =>
      rw [lineMark, pair_isInfix_cons_iff, not_or] at ht
      have hcons : ¬ (c = '/' ∧ (t ++ s).head? = some '/') := by
        rintro ⟨rfl, hhead⟩
        cases t with
        | nil => exact hs ⟨rfl, hhead⟩
        | cons d t => exact ht.1 ⟨rfl, hhead⟩
      have hlast : ¬ (t.getLast? = some '/' ∧ s.head? = some '/') := by
        rintro ⟨hlast, hhead⟩
        cases t with
        | nil => simp at hlast
        | cons d t => exact hs ⟨by rw [List.getLast?_cons_cons, hlast], hhead⟩
      rw [List.cons_append, stripLine_cons hcons, ih ht.2 hlast]
      rfl

theorem stripLine_eq_self {s : Text} (h : ¬ lineMark <:+: s) :
    stripLine s = s := by
  have happend := stripLine_append (s := []) h (by simp)
  simpa [stripLine, replace, replaceFrom] using happend

/-- **No line mark is left.** -/
theorem not_lineMark_stripLine (s : Text) : ¬ lineMark <:+: stripLine s := by
  induction hn : s.length using Nat.strong_induction_on generalizing s with
  | _ n ih =>
      cases s with
      | nil => simp [stripLine, replace, replaceFrom, lineMark]
      | cons c cs =>
          by_cases hmark : c = '/' ∧ cs.head? = some '/'
          · obtain ⟨rfl, hhead⟩ := hmark
            obtain ⟨cs, rfl⟩ := List.head?_eq_some_iff.mp hhead
            have hlen : (cs.drop (lineCommentLength cs)).length < n := by
              rw [← hn, List.length_drop]
              simp only [List.length_cons]
              omega
            show ¬ lineMark <:+: stripLine (lineMark ++ cs)
            rw [stripLine_lineMark]
            exact ih _ hlen _ rfl
          · rw [stripLine_cons hmark, lineMark, pair_isInfix_cons_iff, not_or]
            refine ⟨?_, ih cs.length (by simp [← hn]) cs rfl⟩
            rintro ⟨rfl, hhead⟩
            cases cs with
            | nil => simp [stripLine, replace, replaceFrom] at hhead
            | cons d cs =>
                have hd : d ≠ '/' := fun hd => hmark ⟨rfl, by simp [hd]⟩
                rw [stripLine_cons (fun h => hd h.1)] at hhead
                exact hd (by simpa using hhead)

/-! ## Block comments -/

/-- There is a comment opener with a closing mark somewhere behind it. -/
def HasBlock (s : Text) : Prop :=
  ∃ before body after,
    s = before ++ (openMark ++ (body ++ (closeMark ++ after)))

theorem hasBlock_cons_iff {c : Char} {s : Text} : HasBlock (c :: s) ↔
    (c = '/' ∧ s.head? = some '*' ∧ closeMark <:+: s.tail) ∨ HasBlock s := by
  constructor
  · rintro ⟨before, body, after, h⟩
    cases before with
    | nil =>
        obtain ⟨rfl, rfl⟩ := List.cons.inj h
        exact Or.inl ⟨rfl, rfl, body, after, by simp⟩
    | cons d before =>
        obtain ⟨rfl, rfl⟩ := List.cons.inj h
        exact Or.inr ⟨before, body, after, rfl⟩
  · rintro (⟨rfl, hhead, body, after, htail⟩ | ⟨before, body, after, rfl⟩)
    · obtain ⟨s, rfl⟩ := List.head?_eq_some_iff.mp hhead
      refine ⟨[], body, after, ?_⟩
      rw [List.tail_cons] at htail
      simp [openMark, ← htail]
    · exact ⟨c :: before, body, after, rfl⟩

theorem hasBlock_append_of_not_mem {s t : Text} (hs : '/' ∉ s) :
    HasBlock (s ++ t) ↔ HasBlock t := by
  induction s with
  | nil => rfl
  | cons c s ih =>
      rw [List.mem_cons, not_or] at hs
      rw [List.cons_append, hasBlock_cons_iff, ih hs.2]
      exact or_iff_right fun h => hs.1 h.1.symm

theorem not_hasBlock_nil : ¬ HasBlock [] := by
  rintro ⟨before, body, after, h⟩
  simp [openMark] at h

theorem closeMark_of_hasBlock {s : Text} (h : HasBlock s) :
    closeMark <:+: s := by
  obtain ⟨before, body, after, rfl⟩ := h
  exact ⟨before ++ (openMark ++ body), after, by simp⟩

/-- A comment in a text made of two parts lies in one of them, or opens in the
first and closes in the second. -/
theorem hasBlock_append_iff {s t : Text}
    (hopen : ¬ (s.getLast? = some '/' ∧ t.head? = some '*'))
    (hclose : ¬ (s.getLast? = some '*' ∧ t.head? = some '/')) :
    HasBlock (s ++ t) ↔ HasBlock s ∨ HasBlock t ∨
      (openMark <:+: s ∧ closeMark <:+: t) := by
  induction s with
  | nil => simp [not_hasBlock_nil, openMark]
  | cons c s ih =>
      rw [List.cons_append, hasBlock_cons_iff, hasBlock_cons_iff]
      cases s with
      | nil =>
          rw [List.getLast?_singleton, Option.some.injEq] at hopen
          have hsingle : ¬ openMark <:+: [c] := by
            simp [openMark, pair_isInfix_cons_iff]
          have hfirst : ¬ (c = '/' ∧ t.head? = some '*' ∧
              closeMark <:+: t.tail) := fun hx => hopen ⟨hx.1, hx.2.1⟩
          simp [hfirst, hsingle, not_hasBlock_nil]
      | cons d s =>
          rw [List.getLast?_cons_cons] at hopen hclose
          have hacross : ¬ (s.getLast? = some '*' ∧ t.head? = some '/') := by
            rintro ⟨hlast, hhead⟩
            cases s with
            | nil => simp at hlast
            | cons e s =>
                exact hclose ⟨by rw [List.getLast?_cons_cons, hlast], hhead⟩
          have hmark : closeMark <:+: s ++ t ↔
              closeMark <:+: s ∨ closeMark <:+: t := by
            rw [closeMark, pair_isInfix_append_iff, or_iff_left hacross]
          have hfirst : openMark <:+: c :: d :: s ↔
              (c = '/' ∧ d = '*') ∨ openMark <:+: d :: s := by
            rw [openMark, pair_isInfix_cons_iff]
            simp
          rw [ih hopen hclose, hfirst]
          simp only [List.cons_append, List.head?_cons, List.tail_cons, hmark,
            Option.some.injEq]
          constructor
          · rintro (⟨hc, hd, h | h⟩ | h | h | ⟨h, h'⟩)
            · exact Or.inl (Or.inl ⟨hc, hd, h⟩)
            · exact Or.inr (Or.inr ⟨Or.inl ⟨hc, hd⟩, h⟩)
            · exact Or.inl (Or.inr h)
            · exact Or.inr (Or.inl h)
            · exact Or.inr (Or.inr ⟨Or.inr h, h'⟩)
          · rintro ((⟨hc, hd, h⟩ | h) | h | ⟨⟨hc, hd⟩ | h, h'⟩)
            · exact Or.inl ⟨hc, hd, Or.inl h⟩
            · exact Or.inr (Or.inl h)
            · exact Or.inr (Or.inr (Or.inl h))
            · exact Or.inl ⟨hc, hd, Or.inr h'⟩
            · exact Or.inr (Or.inr (Or.inr ⟨h, h'⟩))

theorem stripBlock_cons {c : Char} {cs : Text}
    (h : ¬ (c = '/' ∧ cs.head? = some '*')) :
    stripBlock (c :: cs) = c :: stripBlock cs := by
  have hnone : blockRule none (c :: cs) = none := by
    unfold blockRule
    split
    · next heq =>
        obtain ⟨rfl, rfl⟩ := List.cons.inj heq
        exact absurd ⟨rfl, rfl⟩ h
    · rfl
  exact blockRule_blind.replace_of_none hnone

/-- A block comment up to its first closing mark goes. -/
theorem stripBlock_comment {body s : Text} (hbody : ¬ closeMark <:+: body) :
    stripBlock (openMark ++ (body ++ (closeMark ++ s))) = stripBlock s := by
  have hsome : blockRule none ('/' :: '*' :: (body ++ (closeMark ++ s))) =
      some ⟨body.length + 2 + 2, []⟩ := by
    rw [blockRule, blockCommentLength?_append s hbody, Option.map_some]
  have hdrop : (body ++ (closeMark ++ s)).drop (body.length + 2) = s := by
    rw [← List.append_assoc]
    exact List.drop_left' (by simp [closeMark])
  show replace blockRule ('/' :: '*' :: (body ++ (closeMark ++ s))) = _
  rw [blockRule_blind.replace_of_some hsome (Nat.succ_pos _)]
  simp only [List.drop_succ_cons, List.nil_append]
  rw [hdrop]
  rfl

/-- With no closing mark ahead there is no comment ahead. -/
theorem stripBlock_eq_self {s : Text} (h : ¬ HasBlock s) :
    stripBlock s = s := by
  induction s with
  | nil => rfl
  | cons c s ih =>
      rw [hasBlock_cons_iff, not_or] at h
      by_cases hmark : c = '/' ∧ s.head? = some '*'
      · obtain ⟨rfl, hhead⟩ := hmark
        obtain ⟨t, rfl⟩ := List.head?_eq_some_iff.mp hhead
        have hopen : blockCommentLength? t = none :=
          blockCommentLength?_eq_none.mpr fun hclose => h.1 ⟨rfl, rfl, hclose⟩
        have hnone : blockRule none ('/' :: '*' :: t) = none := by
          rw [blockRule, hopen, Option.map_none]
        rw [stripBlock, blockRule_blind.replace_of_none hnone]
        exact congrArg _ (ih h.2)
      · rw [stripBlock_cons hmark, ih h.2]

theorem stripBlock_append {t s : Text} (ht : '/' ∉ t) :
    stripBlock (t ++ s) = t ++ stripBlock s := by
  induction t with
  | nil => rfl
  | cons c t ih =>
      rw [List.mem_cons, not_or] at ht
      obtain ⟨hc, ht⟩ := ht
      rw [List.cons_append, stripBlock_cons (fun h => hc h.1.symm), ih ht]
      rfl

/-- A text begins with a comment, or holds none, or does not begin with an
opener. -/
theorem block_cases (c : Char) (cs : Text) :
    (∃ body rest, c :: cs = openMark ++ (body ++ (closeMark ++ rest)) ∧
      ¬ closeMark <:+: body) ∨
    ¬ HasBlock (c :: cs) ∨ ¬ (c = '/' ∧ cs.head? = some '*') := by
  by_cases hmark : c = '/' ∧ cs.head? = some '*'
  · obtain ⟨rfl, hhead⟩ := hmark
    obtain ⟨cs, rfl⟩ := List.head?_eq_some_iff.mp hhead
    cases hlen : blockCommentLength? cs with
    | some n =>
        obtain ⟨body, rest, rfl, hbody, -⟩ :=
          eq_of_blockCommentLength?_eq_some hlen
        exact Or.inl ⟨body, rest, rfl, hbody⟩
    | none =>
        refine Or.inr (Or.inl fun hblock => ?_)
        have hclose := blockCommentLength?_eq_none.mp hlen
        rw [hasBlock_cons_iff, hasBlock_cons_iff] at hblock
        rcases hblock with ⟨-, -, hin⟩ | ⟨hc, -⟩ | hin
        · exact hclose hin
        · exact absurd hc (by decide)
        · exact hclose (closeMark_of_hasBlock hin)
  · exact Or.inr (Or.inr hmark)

/-- What follows a slash that is part of no mark is still there afterwards. -/
theorem head?_stripBlock {cs : Text} {d : Char} (hline : cs.head? ≠ some '/')
    (hopen : cs.head? ≠ some '*') (h : (stripBlock cs).head? = some d) :
    d ≠ '/' ∧ d ≠ '*' := by
  cases cs with
  | nil => simp [stripBlock, replace, replaceFrom] at h
  | cons e cs =>
      have he : e ≠ '/' := by simpa using hline
      have he' : e ≠ '*' := by simpa using hopen
      rw [stripBlock_cons (fun hx => he hx.1)] at h
      obtain rfl : e = d := by simpa using h
      exact ⟨he, he'⟩

/-- **Nothing is left for either pattern.** In a text without line marks no
comment has a slash beside it, so taking comments out makes no new marks. -/
theorem no_marks_stripBlock {s : Text} (h : ¬ lineMark <:+: s) :
    ¬ lineMark <:+: stripBlock s ∧ ¬ HasBlock (stripBlock s) := by
  induction hn : s.length using Nat.strong_induction_on generalizing s with
  | _ n ih =>
      cases s with
      | nil => exact ⟨h, not_hasBlock_nil⟩
      | cons c cs =>
          rcases block_cases c cs with
            ⟨body, rest, heq, hbody⟩ | hblock | hmark
          · rw [heq] at h hn ⊢
            have hrest : ¬ lineMark <:+: rest := fun hin =>
              h (hin.trans ⟨openMark ++ (body ++ closeMark), [], by simp⟩)
            rw [stripBlock_comment hbody]
            refine ih rest.length ?_ hrest rfl
            simp only [← hn, List.length_append, openMark, List.length_cons]
            omega
          · rw [stripBlock_eq_self hblock]
            exact ⟨h, hblock⟩
          · rw [lineMark, pair_isInfix_cons_iff, not_or] at h
            obtain ⟨hline, hrest⟩ := ih cs.length (by simp [← hn]) h.2 rfl
            have hfirst : ∀ d, c = '/' → (stripBlock cs).head? = some d →
                d ≠ '/' ∧ d ≠ '*' := fun d hc hd =>
              head?_stripBlock (fun hx => h.1 ⟨hc, hx⟩)
                (fun hx => hmark ⟨hc, hx⟩) hd
            rw [stripBlock_cons hmark, lineMark, pair_isInfix_cons_iff,
              hasBlock_cons_iff, not_or, not_or]
            exact ⟨⟨fun hx => (hfirst _ hx.1 hx.2).1 rfl, hline⟩,
              fun hx => (hfirst _ hx.1 hx.2.1).2 rfl, hrest⟩

theorem not_lineMark_strip (s : Text) : ¬ lineMark <:+: strip s :=
  (no_marks_stripBlock (not_lineMark_stripLine s)).1

theorem not_hasBlock_strip (s : Text) : ¬ HasBlock (strip s) :=
  (no_marks_stripBlock (not_lineMark_stripLine s)).2

theorem strip_eq_self {s : Text} (hline : ¬ lineMark <:+: s)
    (hblock : ¬ HasBlock s) : strip s = s := by
  rw [strip, stripLine_eq_self hline, stripBlock_eq_self hblock]

/-! ## Both patterns on parts of a text -/

theorem strip_append {t s : Text} (ht : '/' ∉ t) :
    strip (t ++ s) = t ++ strip s := by
  have hmark : ¬ lineMark <:+: t := not_pair_isInfix_of_not_mem ht
  have hlast : ¬ (t.getLast? = some '/' ∧ s.head? = some '/') :=
    fun h => ht (List.mem_of_getLast? h.1)
  rw [strip, stripLine_append hmark hlast, stripBlock_append ht]
  rfl

theorem strip_lineComment {body s : Text} (hbody : '\n' ∉ body)
    (hs : EndsLine s) : strip (lineMark ++ (body ++ s)) = strip s := by
  rw [strip, stripLine_comment hbody hs]
  rfl

theorem strip_blockComment {body s : Text} (hclose : ¬ closeMark <:+: body)
    (hline : ¬ lineMark <:+: body) (hs : s.head? ≠ some '/') :
    strip (openMark ++ (body ++ (closeMark ++ s))) = strip s := by
  have hmark : ¬ lineMark <:+: openMark ++ (body ++ closeMark) := by
    rw [lineMark, pair_isInfix_append_iff, pair_isInfix_append_iff]
    rw [lineMark] at hline
    simp [hline, openMark, closeMark, pair_isInfix_cons_iff]
  have hshape : openMark ++ (body ++ (closeMark ++ s)) =
      openMark ++ (body ++ closeMark) ++ s := by simp
  rw [strip, hshape, stripLine_append hmark (fun h => hs h.2),
    List.append_assoc, List.append_assoc, stripBlock_comment hclose]
  rfl

end ScriptMinifier.Comment
