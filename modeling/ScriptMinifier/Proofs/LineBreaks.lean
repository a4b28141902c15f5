import ScriptMinifier.Proofs.Relexing
import ScriptMinifier.Proofs.Runs

/-!
# Comments that end a line

A block comment with a line feed in it reads like a line feed, and a line
comment at the end of its line like nothing. The script in front of the comment
is read while looking ahead, without a bound, so the point is that no scan sees
the difference: whatever stops in front of the comment stops in front of the
line break too.
-/

namespace ScriptMinifier.Script

/-! ## Scans that stop in time -/

theorem exists_eq_append {a rest s t : Text} (h : s ++ t = a ++ rest)
    (hle : a.length ≤ s.length) : ∃ s', s = a ++ s' ∧ rest = s' ++ t := by
  rcases List.append_eq_append_iff.mp h with ⟨a', rfl, rfl⟩ | ⟨s', hs, ht⟩
  · have ha' : a' = [] := by
      rw [List.length_append] at hle
      exact List.eq_nil_of_length_eq_zero (by omega)
    exact ⟨[], by simp [ha'], by simp [ha']⟩
  · exact ⟨s', hs, ht⟩

theorem stringLength_congr {q : Char} {s : Text} (r t' : Text)
    (h : stringLength q (s ++ '/' :: r) ≤ s.length) :
    stringLength q (s ++ t') = stringLength q (s ++ '/' :: r) := by
  fun_induction stringLength q s with
  | case1 =>
      rw [List.nil_append, stringLength_cons (by decide),
        if_neg (by decide)] at h
      split at h <;> simp at h
  | case2 => simp [stringLength] at h
  | case3 e s ih =>
      simp only [List.cons_append, stringLength, if_true,
        List.length_cons] at h ⊢
      rw [ih (by omega)]
  | case4 s hc => simp [stringLength_cons hc]
  | case5 s hc hline => simp [stringLength_cons hc]
  | case6 c s hc hline hq ih =>
      simp only [List.cons_append, stringLength_cons hc, if_neg hline,
        if_neg hq, List.length_cons] at h ⊢
      rw [ih (by omega)]

theorem templateLength_congr {s : Text} (r t' : Text)
    (h : templateLength (s ++ '/' :: r) ≤ s.length) :
    templateLength (s ++ t') = templateLength (s ++ '/' :: r) := by
  fun_induction templateLength s with
  | case1 => simp [templateLength_cons] at h
  | case2 => simp [templateLength] at h
  | case3 e s ih =>
      simp only [List.cons_append, templateLength, if_true,
        List.length_cons] at h ⊢
      rw [ih (by omega)]
  | case4 s hc => simp [templateLength_cons hc]
  | case5 c s hc hq ih =>
      simp only [List.cons_append, templateLength_cons hc, if_neg hq,
        List.length_cons] at h ⊢
      rw [ih (by omega)]

theorem lineCommentLength_congr {s : Text} (r t' : Text)
    (h : lineCommentLength (s ++ '/' :: r) ≤ s.length) :
    lineCommentLength (s ++ t') = lineCommentLength (s ++ '/' :: r) := by
  unfold lineCommentLength at h ⊢
  rw [List.takeWhile_append] at h ⊢
  rw [List.takeWhile_append]
  split
  · next hall =>
      rw [if_pos hall, List.length_append,
        List.takeWhile_cons_of_pos (by decide), List.length_cons] at h
      omega
  · rfl

theorem blockCommentLength?_congr {s t : Text} (t' : Text) {n : Nat}
    (h : blockCommentLength? (s ++ t) = some n) (hn : n ≤ s.length) :
    blockCommentLength? (s ++ t') = some n := by
  obtain ⟨body, rest, heq, hbody, rfl⟩ := eq_of_blockCommentLength?_eq_some h
  rw [← List.append_assoc] at heq
  obtain ⟨s', rfl, -⟩ := exists_eq_append heq (by simpa [closeMark] using hn)
  rw [List.append_assoc, List.append_assoc]
  exact blockCommentLength?_append _ hbody

/-- Behind the last character of a regular expression nothing matters, as long
as it cannot be one more flag. -/
theorem regexLength?_congr {s t t' : Text} {n : Nat}
    (h : regexLength? false (s ++ t) = some n) (hn : n ≤ s.length)
    (ht' : t'.head?.any isFlagChar = false) :
    regexLength? false (s ++ t') = some n := by
  obtain ⟨body, flags, rest, heq, hbody, hflags, hrest, rfl⟩ :=
    eq_of_regexLength?_eq_some h
  rw [← List.cons_append, ← List.append_assoc] at heq
  obtain ⟨s', rfl, rfl⟩ := exists_eq_append heq (by simpa using hn)
  have hs' : (s' ++ t').head?.any isFlagChar = false := by
    cases s' with
    | nil => exact ht'
    | cons d s' => simpa using hrest
  rw [List.append_assoc, List.append_assoc, List.cons_append]
  exact regexLength?_append hbody hflags hs'

/-- A regular expression stays in front of the end of its line. -/
theorem le_of_regexLength?_eq_some {s t' : Text} (ht' : EndsLine t') {n : Nat}
    (h : regexLength? false (s ++ t') = some n) : n ≤ s.length := by
  obtain ⟨body, flags, rest, heq, hbody, hflags, -, rfl⟩ :=
    eq_of_regexLength?_eq_some h
  rw [← List.cons_append, ← List.append_assoc] at heq
  by_contra hlong
  obtain ⟨a, ha, hrest⟩ := exists_eq_append heq.symm
    (by rw [List.length_append, List.length_cons]; omega)
  cases a with
  | nil =>
      rw [List.append_nil] at ha
      exact hlong (by rw [← ha, List.length_append, List.length_cons])
  | cons d a =>
      obtain rfl : d = '\n' := by
        rcases ht' with rfl | ht'
        · simp at hrest
        · simpa [hrest] using ht'
      have hmem : '\n' ∈ body ++ '/' :: flags := by simp [ha]
      rw [List.mem_append, List.mem_cons] at hmem
      rcases hmem with hmem | hmem | hmem
      · exact absurd (hbody.not_isLineBreak _ hmem) (by decide)
      · exact absurd hmem (by decide)
      · exact absurd (hflags _ hmem) (by decide)

/-! ## Reading up to the end of a line -/

/-- `t'` may take the place of `t` behind a text. The one starts with a slash,
the other is empty or starts with a line feed, and it brings no `*/` along. -/
structure StandsFor (t' t : Text) : Prop where
  slash : t.head? = some '/'
  ends : EndsLine t'
  close : closeMark <:+: t' → closeMark <:+: t

theorem StandsFor.flag {t t' : Text} (h : StandsFor t' t) :
    t.head?.any isFlagChar = false ∧ t'.head?.any isFlagChar = false := by
  refine ⟨by rw [h.slash]; decide, ?_⟩
  rcases h.ends with rfl | hends
  · rfl
  · rw [hends]; decide

theorem StandsFor.closeMark_append {t t' : Text} (h : StandsFor t' t)
    {s : Text} (hs : closeMark <:+: s ++ t') : closeMark <:+: s ++ t := by
  rw [closeMark, pair_isInfix_append_iff] at hs ⊢
  rcases hs with hs | hs | ⟨hlast, hhead⟩
  · exact Or.inl hs
  · exact Or.inr (Or.inl (h.close hs))
  · rcases h.ends with rfl | hends
    · simp at hhead
    · simp [hends] at hhead

/-- A piece that ends in front of the place is the same with either text. -/
theorem StandsFor.nextPiece_eq {t t' : Text} (h : StandsFor t' t)
    {recent : Text} {unclosed : Bool} {c : Char} {s : Text}
    (hfit : (nextPiece recent unclosed c (s ++ t)).length ≤ s.length + 1) :
    nextPiece recent unclosed c (s ++ t') =
      nextPiece recent unclosed c (s ++ t) := by
  have hbegins := begins_nextPiece recent unclosed c (s ++ t)
  obtain ⟨r, rfl⟩ := List.head?_eq_some_iff.mp h.slash
  generalize hcs : s ++ '/' :: r = cs at hbegins hfit
  generalize nextPiece recent unclosed c cs = piece at hbegins hfit
  have hhead : cs.head? ≠ some '/' → (s ++ t').head? = cs.head? := by
    intro hne
    cases s with
    | nil => exact absurd (by simp [← hcs]) hne
    | cons d s => simp [← hcs]
  apply Begins.nextPiece_eq
  cases hbegins with
  | string hq =>
      subst hcs
      rw [← stringLength_congr r t' (by simpa using hfit)]
      exact .string hq
  | template =>
      subst hcs
      rw [← templateLength_congr r t' (by simpa using hfit)]
      exact .template
  | line =>
      rcases List.append_eq_cons_iff.mp hcs with ⟨rfl, -⟩ | ⟨s, rfl, rfl⟩
      · simp at hfit
      · rw [← lineCommentLength_congr r t' (by simpa using hfit)]
        exact .line
  | block hsearch hn =>
      rcases List.append_eq_cons_iff.mp hcs with ⟨rfl, -⟩ | ⟨s, rfl, rfl⟩
      · simp at hfit
      · exact .block hsearch
          (blockCommentLength?_congr t' hn (by simpa using hfit))
  | opener hnone =>
      rcases List.append_eq_cons_iff.mp hcs with ⟨rfl, -⟩ | ⟨s, rfl, rfl⟩
      · simp at hfit
      · refine .opener (hnone.imp_right ?_)
        rw [blockCommentLength?_eq_none, blockCommentLength?_eq_none]
        exact mt h.closeMark_append
  | regex hslash hstar hallowed hn =>
      have hn' := regexLength?_congr (hcs ▸ hn) (by simpa using hfit) h.flag.2
      exact .regex (hhead hslash ▸ hslash) (hhead hslash ▸ hstar) hallowed hn'
  | slash hslash hstar hnone =>
      refine .slash (hhead hslash ▸ hslash) (hhead hslash ▸ hstar)
        (hnone.imp_right fun hnone => ?_)
      rw [Option.eq_none_iff_forall_ne_some]
      intro n hn
      have hn' := regexLength?_congr hn
        (le_of_regexLength?_eq_some h.ends hn) h.flag.1
      rw [hcs, hnone] at hn'
      exact absurd hn' (by simp)
  | other hquote htemplate hslash =>
      exact .other hquote htemplate hslash

theorem commentTrace_congr {comment : Text} {before after other : Option Char}
    (h : isIdentifierSide after = isIdentifierSide other) :
    commentTrace comment before after = commentTrace comment before other := by
  rw [commentTrace, commentTrace, h]

theorem StandsFor.next_eq {t t' : Text} (h : StandsFor t' t) {p : Progress}
    {c : Char} {s : Text} (hfit : (p.piece c (s ++ t)).length ≤ s.length + 1) :
    p.next c (s ++ t') = p.next c (s ++ t) := by
  have hpiece : p.piece c (s ++ t') = p.piece c (s ++ t) := h.nextPiece_eq hfit
  unfold Progress.next
  rw [hpiece]
  generalize p.piece c (s ++ t) = piece at hfit
  have htake : ∀ u : Text,
      (c :: (s ++ u)).take piece.length = (c :: s).take piece.length := by
    intro u
    rw [← List.cons_append, List.take_append_of_le_length (by simpa using hfit)]
  have hside : isIdentifierSide ((c :: (s ++ t')).drop piece.length).head? =
      isIdentifierSide ((c :: (s ++ t)).drop piece.length).head? := by
    rw [← List.cons_append, ← List.cons_append,
      List.drop_append_of_le_length (by simpa using hfit),
      List.drop_append_of_le_length (by simpa using hfit)]
    cases (c :: s).drop piece.length with
    | cons d u => rfl
    | nil =>
        rw [List.nil_append, List.nil_append, h.slash]
        rcases h.ends with rfl | hends
        · decide +kernel
        · rw [hends]
          decide +kernel
  simp only [Progress.absorb, htake, commentTrace_congr hside]

/-- **The way to the place is the same** with either text behind it. -/
theorem StandsFor.reaches {t t' : Text} (h : StandsFor t' t)
    {p q : Progress} {s : Text} (hreach : p.Reaches (s ++ t) q t) :
    p.Reaches (s ++ t') q t' := by
  generalize hx : s ++ t = x at hreach
  induction hreach generalizing s with
  | here =>
      obtain rfl : s = [] := by simpa using hx
      exact .here
  | @step p q c cs t hreach ih =>
      have hlen := hreach.suffix.length_le
      have hlt := p.length_rest_lt c cs
      rcases List.append_eq_cons_iff.mp hx with ⟨rfl, rfl⟩ | ⟨s, rfl, rfl⟩
      · omega
      · have hfit : (p.piece c (s ++ t)).length ≤ s.length + 1 := by
          obtain ⟨r, rfl⟩ := List.head?_eq_some_iff.mp h.slash
          rw [Progress.rest, List.length_drop] at hlen
          simp only [List.length_cons, List.length_append] at hlen
          omega
        have hdrop : ∀ u : Text,
            (c :: (s ++ u)).drop (p.piece c (s ++ t)).length =
              (c :: s).drop (p.piece c (s ++ t)).length ++ u := by
          intro u
          rw [← List.cons_append,
            List.drop_append_of_le_length (by simpa using hfit)]
        have hpiece : p.piece c (s ++ t') = p.piece c (s ++ t) :=
          h.nextPiece_eq hfit
        rw [List.cons_append]
        apply Progress.Reaches.step
        rw [h.next_eq hfit, Progress.rest, hpiece, hdrop]
        exact ih h (hdrop t).symm

/-! ## The comment and the line break -/

/-- A comment that ends a line in front of `back`, and what it reads like. -/
inductive BreaksLine (back : Text) : Text → Text → Prop
  | block {body : Text} (hline : '\n' ∈ body) (hclose : ¬ closeMark <:+: body) :
      BreaksLine back (openMark ++ (body ++ closeMark)) ['\n']
  | line {body : Text} (hbody : '\n' ∉ body) (hback : EndsLine back) :
      BreaksLine back (lineMark ++ body) []

theorem BreaksLine.standsFor {back comment lineBreak : Text}
    (h : BreaksLine back comment lineBreak) :
    StandsFor (lineBreak ++ back) (comment ++ back) := by
  cases h with
  | @block body hline hclose =>
      refine ⟨rfl, Or.inr rfl, fun _ => ?_⟩
      exact ⟨openMark ++ body, back, by simp⟩
  | @line body hbody hback =>
      refine ⟨rfl, hback, fun hin => ?_⟩
      exact hin.trans (List.suffix_append _ _).isInfix

theorem BreaksLine.run_eq {back comment lineBreak : Text}
    (h : BreaksLine back comment lineBreak) {p : Progress}
    (hp : p.Sound (comment ++ back)) : p.run 0 (comment ++ back) =
      (p.run 0 (lineBreak ++ back)).addComments 1 := by
  cases h with
  | @block body hline hclose =>
      have hunclosed : p.unclosed = false := by
        rw [Bool.eq_false_iff]
        exact fun hu => hp hu ⟨openMark ++ body, back, by simp⟩
      have htrace : commentTrace (openMark ++ (body ++ closeMark))
          p.recent.head? back.head? = ['\n'] := by
        simp [commentTrace, hline]
      rw [p.run_blockComment hclose back hunclosed, htrace,
        p.run_code (by simp [isCodeChar]), ← Progress.run_addComments]
      rfl
  | @line body hbody hback =>
      rw [p.run_lineComment hbody hback, commentTrace_lineComment hbody hback,
        List.nil_append, ← Progress.run_addComments]
      rfl

/-- **A comment that ends a line is a line break.** If the run comes by right in
front of the comment, code and literals are the same with the line break in its
place, and so is the output, whatever is renamed. -/
theorem tokenize_lineBreak {front comment lineBreak back : Text}
    {p : Progress} (h : BreaksLine back comment lineBreak)
    (hreach : Progress.Reaches {} (front ++ (comment ++ back)) p
      (comment ++ back)) :
    (tokenize (front ++ (comment ++ back))).code =
      (tokenize (front ++ (lineBreak ++ back))).code ∧
    (tokenize (front ++ (comment ++ back))).literals =
      (tokenize (front ++ (lineBreak ++ back))).literals ∧
    (tokenize (front ++ (comment ++ back))).comments =
      (tokenize (front ++ (lineBreak ++ back))).comments + 1 ∧
    ∀ (map : RenameMap) (accepts : Renamer → Bool),
      (Minifier.minify (.withRenames { strategy := .lexical } map accepts)
        (front ++ (comment ++ back))).output =
      (Minifier.minify (.withRenames { strategy := .lexical } map accepts)
        (front ++ (lineBreak ++ back))).output := by
  have hsound : p.Sound (comment ++ back) :=
    hreach.sound (by simp [Progress.Sound])
  have hrun : tokenize (front ++ (comment ++ back)) =
      ((Progress.run {} 0 (front ++ (lineBreak ++ back))).addComments
        1).tokens := by
    rw [(h.standsFor.reaches hreach).run_eq, ← h.run_eq hsound,
      ← hreach.run_eq]
    rfl
  refine ⟨by rw [hrun]; rfl, by rw [hrun]; rfl, by rw [hrun]; rfl, ?_⟩
  intro map accepts
  rw [Minifier.withRenames_eq .lexical]
  simp only [Minifier.minify, prepare, Prepared.ofTokens, hrun]
  rfl

/-- The regular expression that `/[` seems to open breaks off at the line feed
in the comment. -/
theorem tokenize_lineBreak_openClass :
    BreaksLine "y 'z'".toList "/* ] 'x'\n*/".toList ['\n'] ∧
    Progress.Reaches {}
      ("a = /[b ".toList ++ ("/* ] 'x'\n*/".toList ++ "y 'z'".toList))
      { recent := "a = /[b ".toList.reverse }
      ("/* ] 'x'\n*/".toList ++ "y 'z'".toList) ∧
    (tokenize ("a = /[b ".toList ++
      ("/* ] 'x'\n*/".toList ++ "y 'z'".toList))).code =
      "a = /[b \ny __STRING_0__".toList := by
  have hbreaks : BreaksLine "y 'z'".toList
      (openMark ++ (" ] 'x'\n".toList ++ closeMark)) ['\n'] :=
    .block (by decide) (by decide)
  have hreach := Progress.reaches_walk 8 {}
    ("a = /[b ".toList ++ ("/* ] 'x'\n*/".toList ++ "y 'z'".toList))
  have hwalk : Progress.walk 8 {}
      ("a = /[b ".toList ++ ("/* ] 'x'\n*/".toList ++ "y 'z'".toList)) =
      ({ recent := "a = /[b ".toList.reverse },
        "/* ] 'x'\n*/".toList ++ "y 'z'".toList) := by decide +kernel
  rw [hwalk] at hreach
  refine ⟨hbreaks, hreach, ?_⟩
  exact (tokenize_lineBreak hbreaks hreach).1.trans (by decide +kernel)

end ScriptMinifier.Script
