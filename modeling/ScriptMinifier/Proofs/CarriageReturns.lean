import ScriptMinifier.Proofs.Relexing
import ScriptMinifier.Proofs.Runs

/-!
# Carriage returns

A script whose lines end with a carriage return and a line feed is taken apart
at the same places as the script with line feeds alone, with one exception. A
backslash takes along one character only, so a string that goes on behind an
escaped line feed breaks off behind an escaped carriage return.
-/

namespace ScriptMinifier.Script

/-- The text with a carriage return in front of every line feed. -/
def crlf : Text → Text
  | [] => []
  | c :: s => if c = '\n' then '\r' :: '\n' :: crlf s else c :: crlf s

@[simp] theorem crlf_nil : crlf [] = [] := rfl

@[simp] theorem crlf_lineFeed (s : Text) :
    crlf ('\n' :: s) = '\r' :: '\n' :: crlf s := rfl

theorem crlf_cons {c : Char} (hc : c ≠ '\n') (s : Text) :
    crlf (c :: s) = c :: crlf s :=
  if_neg hc

theorem crlf_append (s t : Text) : crlf (s ++ t) = crlf s ++ crlf t := by
  induction s with
  | nil => rfl
  | cons c s ih =>
      by_cases hc : c = '\n'
      · simp [hc, ih]
      · simp [crlf_cons hc, ih]

theorem crlf_eq_self {s : Text} (hs : '\n' ∉ s) : crlf s = s := by
  induction s with
  | nil => rfl
  | cons c s ih =>
      rw [List.mem_cons, not_or] at hs
      rw [crlf_cons (Ne.symm hs.1), ih hs.2]

theorem mem_crlf {s : Text} : '\n' ∈ crlf s ↔ '\n' ∈ s := by
  induction s with
  | nil => rfl
  | cons c s ih =>
      by_cases hc : c = '\n'
      · simp [hc]
      · simp [crlf_cons hc, ih]

theorem head?_crlf {c : Char} (hr : c ≠ '\r') (hn : c ≠ '\n') {s : Text} :
    (crlf s).head? = some c ↔ s.head? = some c := by
  cases s with
  | nil => rfl
  | cons d s =>
      by_cases hd : d = '\n'
      · simp [hd, hr.symm, hn.symm]
      · simp [crlf_cons hd]

/-! ## The scans -/

theorem closeMark_isInfix_crlf {s : Text} :
    closeMark <:+: crlf s ↔ closeMark <:+: s := by
  unfold closeMark
  induction s with
  | nil => rfl
  | cons c s ih =>
      by_cases hc : c = '\n'
      · simp [hc, pair_isInfix_cons_iff, ih]
      · rw [crlf_cons hc, pair_isInfix_cons_iff, pair_isInfix_cons_iff, ih,
          head?_crlf (by decide) (by decide)]

theorem takeWhile_isFlagChar_crlf (s : Text) :
    (crlf s).takeWhile isFlagChar = s.takeWhile isFlagChar := by
  induction s with
  | nil => rfl
  | cons c s ih =>
      by_cases hc : c = '\n'
      · subst hc
        rw [crlf_lineFeed, List.takeWhile_cons_of_neg (by decide),
          List.takeWhile_cons_of_neg (by decide)]
      · rw [crlf_cons hc, List.takeWhile_cons, List.takeWhile_cons, ih]

/-- A regular expression ends at a carriage return like at a line feed. -/
theorem regexLength?_crlf (inClass : Bool) (s : Text) :
    regexLength? inClass (crlf s) = regexLength? inClass s := by
  fun_induction regexLength? inClass s with
  | case1 => rfl
  | case2 => rfl
  | case3 inClass e s he =>
      by_cases hn : e = '\n'
      · subst hn
        rfl
      · rw [crlf_cons (by decide), crlf_cons hn]
        simp [regexLength?, he]
  | case4 inClass e s he ih =>
      have hn : e ≠ '\n' := by
        rintro rfl
        exact he rfl
      rw [crlf_cons (by decide), crlf_cons hn]
      simp [regexLength?, he, ih]
  | case5 inClass c s hc hline =>
      by_cases hn : c = '\n'
      · subst hn
        rw [crlf_lineFeed, regexLength?.eq_def]
        rfl
      · rw [crlf_cons hn, regexLength?.eq_def]
        simp [hc, hline]
  | case6 inClass c s hc hline hclose =>
      have hn : c ≠ '\n' := by
        rintro rfl
        exact hline rfl
      rw [crlf_cons hn, regexLength?.eq_def]
      simp only [if_neg hc, if_neg hline, if_pos hclose,
        takeWhile_isFlagChar_crlf]
  | case7 inClass c s hc hline hopen ih =>
      have hn : c ≠ '\n' := by
        rintro rfl
        exact hline rfl
      rw [crlf_cons hn, regexLength?.eq_def]
      simp only [if_neg hc, if_neg hline, if_neg hopen, ih]

theorem inside_crlf {body : Text} (h : Inside ['`'] body) :
    Inside ['`'] (crlf body) := by
  induction h with
  | nil => exact .nil
  | @escape c s hs ih =>
      rw [crlf_cons (by decide)]
      by_cases hc : c = '\n'
      · subst hc
        exact .escape (.plain (by decide) (by decide) ih)
      · rw [crlf_cons hc]
        exact .escape ih
  | @plain c s hescape hstop hs ih =>
      by_cases hc : c = '\n'
      · subst hc
        exact .plain (by decide) (by decide) (.plain hescape hstop ih)
      · rw [crlf_cons hc]
        exact .plain hescape hstop ih

/-- A string with an escaped line feed breaks off behind the carriage return
that comes before the line feed. -/
theorem stringLength_crlf_lt {q : Char} {body : Text}
    (h : Inside [q, '\n'] body) (hline : '\n' ∈ body) (rest : Text) :
    stringLength q (crlf body ++ rest) < (crlf body).length := by
  induction h with
  | nil => simp at hline
  | @escape c s hs ih =>
      rw [crlf_cons (by decide)]
      by_cases hc : c = '\n'
      · subst hc
        simp [stringLength, stringLength_cons]
      · have hs : '\n' ∈ s := by simpa [Ne.symm hc] using hline
        rw [crlf_cons hc]
        simp only [List.cons_append, stringLength, if_true, List.length_cons]
        exact Nat.add_lt_add_right (ih hs) 2
  | @plain c s hescape hstop hs ih =>
      rw [List.mem_cons, List.mem_singleton, not_or] at hstop
      have hs : '\n' ∈ s := by simpa [Ne.symm hstop.2] using hline
      rw [crlf_cons hstop.2, List.cons_append, stringLength_cons hescape,
        if_neg hstop.2, if_neg hstop.1, List.length_cons]
      exact Nat.add_lt_add_right (ih hs) 1

/-! ## The code in front of a slash -/

/-- Code with a carriage return in front of some of its line feeds, the last
character first. A comment leaves a line feed without one. -/
inductive Spread : Text → Text → Prop
  | nil : Spread [] []
  | keep {c : Char} {r r' : Text} (h : Spread r r') : Spread (c :: r) (c :: r')
  | lineFeed {r r' : Text} (h : Spread r r') :
      Spread ('\n' :: r) ('\n' :: '\r' :: r')

theorem Spread.append {r r' : Text} (h : Spread r r') (t : Text) :
    Spread (t ++ r) (t ++ r') := by
  induction t with
  | nil => exact h
  | cons c t ih => exact .keep ih

theorem Spread.head?_eq {r r' : Text} (h : Spread r r') :
    r'.head? = r.head? := by
  cases h <;> rfl

theorem Spread.dropWhile_isBlank {r r' : Text} (h : Spread r r') :
    Spread (r.dropWhile isBlank) (r'.dropWhile isBlank) := by
  induction h with
  | nil => exact .nil
  | @keep c r r' h ih =>
      by_cases hc : isBlank c = true
      · rwa [List.dropWhile_cons_of_pos hc, List.dropWhile_cons_of_pos hc]
      · rw [List.dropWhile_cons_of_neg hc, List.dropWhile_cons_of_neg hc]
        exact .keep h
  | lineFeed h ih =>
      rwa [List.dropWhile_cons_of_pos (by decide),
        List.dropWhile_cons_of_pos (by decide),
        List.dropWhile_cons_of_pos (by decide)]

theorem Spread.takeWhile_isIdentifierChar {r r' : Text} (h : Spread r r') :
    r'.takeWhile isIdentifierChar = r.takeWhile isIdentifierChar := by
  induction h with
  | nil => rfl
  | keep h ih => rw [List.takeWhile_cons, List.takeWhile_cons, ih]
  | lineFeed h ih =>
      rw [List.takeWhile_cons_of_neg (by decide +kernel),
        List.takeWhile_cons_of_neg (by decide +kernel)]

theorem Spread.slashOpensRegex_eq {r r' : Text} (h : Spread r r') :
    slashOpensRegex r' = slashOpensRegex r := by
  have hdrop := h.dropWhile_isBlank
  have hblank := Text.any_head?_dropWhile isBlank r
  unfold slashOpensRegex
  generalize r.dropWhile isBlank = d at hdrop hblank
  generalize r'.dropWhile isBlank = d' at hdrop
  cases hdrop with
  | nil => rfl
  | @keep c d d' h =>
      simp only [h.head?_eq, (Spread.keep h).takeWhile_isIdentifierChar]
  | lineFeed h =>
      exact absurd (show isBlank '\n' = false from hblank) (by decide)

/-! ## The two runs side by side -/

/-- Two runs that have read the same but for carriage returns. -/
structure Alike (p p' : Progress) : Prop where
  recent : Spread p.recent p'.recent
  size : p'.literals.size = p.literals.size
  unclosed : p'.unclosed = p.unclosed

namespace Alike

variable {p p' : Progress}

theorem pushCode (h : Alike p p') (t : Text) :
    Alike (p.pushCode t) (p'.pushCode t) :=
  ⟨h.recent.append _, h.size, h.unclosed⟩

theorem pushLineFeed (h : Alike p p') :
    Alike (p.pushCode ['\n']) (p'.pushCode ['\r', '\n']) :=
  ⟨.lineFeed h.recent, h.size, h.unclosed⟩

theorem pushComment (h : Alike p p') (trace : Text) :
    Alike (p.pushComment trace) (p'.pushComment trace) :=
  ⟨h.recent.append _, h.size, h.unclosed⟩

theorem pushLiteral (h : Alike p p') (l l' : Text) :
    Alike (p.pushLiteral l) (p'.pushLiteral l') := by
  refine ⟨?_, ?_, h.unclosed⟩
  · show Spread (_ ++ p.recent) (_ ++ p'.recent)
    rw [h.size]
    exact h.recent.append _
  · show (p'.literals.push l').size = (p.literals.push l).size
    rw [LiteralTable.size_push, LiteralTable.size_push, h.size]

end Alike

/-- No string goes on behind a line feed; only templates may hold one. -/
def FeedsInTemplates (ls : List Text) : Prop :=
  ∀ l ∈ ls, '\n' ∈ l → l.head? = some '`'

/-- Behind `s` with and without carriage returns the two runs come to `q` and
`q'` in front of `t`, with the literals `ls` on the way. -/
structure Advance (p p' : Progress) (s : Text) (q q' : Progress) (t : Text)
    (ls : List Text) : Prop where
  shorter : t.length < s.length
  alike : Alike q q'
  run : p.run 0 s = q.run 0 t
  run_crlf : p'.run 0 (crlf s) = q'.run 0 (crlf t)
  literals : q.literals.toList = p.literals.toList ++ ls
  literals_crlf : q'.literals.toList = p'.literals.toList ++ ls.map crlf
  feeds : FeedsInTemplates ls

def Advances (p p' : Progress) (s : Text) : Prop :=
  ∃ q q' t ls, Advance p p' s q q' t ls

namespace Alike

variable {p p' : Progress}

/-- A step that finds no literal. -/
theorem advances {q q' : Progress} {s t : Text} (h : Alike q q')
    (hshorter : t.length < s.length) (hrun : p.run 0 s = q.run 0 t)
    (hrun' : p'.run 0 (crlf s) = q'.run 0 (crlf t))
    (hq : q.literals = p.literals) (hq' : q'.literals = p'.literals) :
    Advances p p' s := by
  refine ⟨q, q', t, [], hshorter, h, hrun, hrun', ?_, ?_, ?_⟩
  · rw [hq, List.append_nil]
  · rw [hq', List.map_nil, List.append_nil]
  · simp [FeedsInTemplates]

theorem advances_code (h : Alike p p') {c : Char} {t s : Text} {u : Bool}
    (hline : '\n' ∉ c :: t)
    (hpiece : p.piece c (t ++ s) = ⟨.code, t.length + 1, u⟩)
    (hpiece' : p'.piece c (t ++ crlf s) = ⟨.code, t.length + 1, u⟩) :
    Advances p p' (c :: (t ++ s)) := by
  have hcrlf : crlf (c :: (t ++ s)) = c :: (t ++ crlf s) := by
    rw [← List.cons_append, crlf_append, crlf_eq_self hline, List.cons_append]
  have halike : Alike { p with unclosed := u } { p' with unclosed := u } :=
    ⟨h.recent, h.size, rfl⟩
  refine (halike.pushCode (c :: t)).advances ?_ (p.run_codePiece hpiece) ?_
    rfl rfl
  · simp only [List.length_cons, List.length_append]
    omega
  · rw [hcrlf]
    exact p'.run_codePiece hpiece'

theorem advances_lineFeed (h : Alike p p') (s : Text) :
    Advances p p' ('\n' :: s) := by
  refine h.pushLineFeed.advances (Nat.lt_succ_self s.length) ?_ ?_ rfl rfl
  · exact p.run_code (t := ['\n']) (by simp [isCodeChar]) s
  · exact p'.run_code (t := ['\r', '\n']) (by simp [isCodeChar]) (crlf s)

theorem advances_literal (h : Alike p p') {c : Char} {t s : Text}
    (hc : c ≠ '\n') (hfeeds : FeedsInTemplates [c :: t])
    (hpiece : p.piece c (t ++ s) = ⟨.literal, t.length + 1, p.unclosed⟩)
    (hpiece' : p'.piece c (crlf t ++ crlf s) =
      ⟨.literal, (crlf t).length + 1, p'.unclosed⟩) :
    Advances p p' (c :: (t ++ s)) := by
  refine ⟨p.pushLiteral (c :: t), p'.pushLiteral (c :: crlf t), s, [c :: t],
    ?_, h.pushLiteral _ _, p.run_literal hpiece, ?_, ?_, ?_, hfeeds⟩
  · simp only [List.length_cons, List.length_append]
    omega
  · rw [crlf_cons hc, crlf_append]
    exact p'.run_literal hpiece'
  · simp [Progress.pushLiteral]
  · simp [Progress.pushLiteral, crlf_cons hc]

theorem commentTrace_crlf (h : Alike p p') (comment s : Text) :
    commentTrace (crlf comment) p'.recent.head? (crlf s).head? =
      commentTrace comment p.recent.head? s.head? := by
  have hside : isIdentifierSide (crlf s).head? = isIdentifierSide s.head? := by
    cases s with
    | nil => rfl
    | cons c s =>
        by_cases hc : c = '\n'
        · subst hc
          show isIdentifierChar '\r' = isIdentifierChar '\n'
          decide +kernel
        · rw [crlf_cons hc]
          rfl
  unfold commentTrace
  rw [h.recent.head?_eq, hside]
  simp only [List.contains_eq_mem, mem_crlf]

theorem advances_block (h : Alike p p') {body : Text} (s : Text)
    (hbody : ¬ closeMark <:+: body) (hp : p.unclosed = false) :
    Advances p p' (openMark ++ (body ++ closeMark) ++ s) := by
  have hcomment : crlf (openMark ++ (body ++ closeMark)) =
      openMark ++ (crlf body ++ closeMark) := by
    rw [crlf_append, crlf_append]
    rfl
  have hbody' : ¬ closeMark <:+: crlf body :=
    mt closeMark_isInfix_crlf.mp hbody
  have hrun' := p'.run_blockComment hbody' (crlf s) (h.unclosed.trans hp)
  rw [← hcomment, h.commentTrace_crlf] at hrun'
  refine (h.pushComment _).advances ?_ (p.run_blockComment hbody s hp) ?_
    rfl rfl
  · simp only [List.length_append, openMark, List.length_cons]
    omega
  · rw [crlf_append, hrun']

/-- The carriage return goes with the comment, so the two runs meet again only
behind the line feed. -/
theorem advances_line (h : Alike p p') {body s : Text} (hbody : '\n' ∉ body)
    (hs : EndsLine s) : Advances p p' (lineMark ++ body ++ s) := by
  have hmark : '\n' ∉ lineMark ++ body := by simpa [lineMark] using hbody
  have hrun := p.run_lineComment hbody hs
  rw [commentTrace_lineComment hbody hs] at hrun
  cases s with
  | nil =>
      refine (h.pushComment []).advances (by simp [lineMark]) hrun ?_ rfl rfl
      have hrun' := p'.run_lineComment hbody hs
      rw [commentTrace_lineComment hbody hs] at hrun'
      rw [crlf_append, crlf_eq_self hmark]
      exact hrun'
  | cons c t =>
      obtain rfl : c = '\n' := by
        rcases hs with hs | hs
        · simp at hs
        · simpa using hs
      have hbody' : '\n' ∉ body ++ ['\r'] := by simpa using hbody
      have hs' : EndsLine ('\n' :: crlf t) := Or.inr rfl
      have hrun' := p'.run_lineComment hbody' hs'
      rw [commentTrace_lineComment hbody' hs'] at hrun'
      have hfeed := (p.pushComment []).run_code (t := ['\n'])
        (by simp [isCodeChar]) t
      refine ((h.pushComment []).pushCode ['\n']).advances ?_
        (hrun.trans hfeed) ?_ rfl rfl
      · simp only [List.length_append, List.length_cons]
        omega
      · rw [crlf_append, crlf_eq_self hmark, crlf_lineFeed,
          ← List.singleton_append, ← List.append_assoc,
          List.append_assoc lineMark, hrun']
        exact (p'.pushComment []).run_code (t := ['\n'])
          (by simp [isCodeChar]) (crlf t)

theorem advances_regex (h : Alike p p') {cs : Text} {n : Nat}
    (hcs : cs.head? ≠ some '/') (hcs' : cs.head? ≠ some '*')
    (hallowed : slashOpensRegex p.recent = true)
    (hn : regexLength? false cs = some n) : Advances p p' ('/' :: cs) := by
  have hpiece : p.piece '/' cs = ⟨.literal, n + 1, p.unclosed⟩ :=
    (Begins.regex hcs hcs' hallowed hn).nextPiece_eq
  have hpiece' : p'.piece '/' (crlf cs) = ⟨.literal, n + 1, p'.unclosed⟩ := by
    apply Begins.nextPiece_eq
    apply Begins.regex
    · rwa [ne_eq, head?_crlf (by decide) (by decide)]
    · rwa [ne_eq, head?_crlf (by decide) (by decide)]
    · rwa [h.recent.slashOpensRegex_eq]
    · rwa [regexLength?_crlf]
  obtain ⟨body, flags, rest, rfl, hbody, hflags, -, rfl⟩ :=
    eq_of_regexLength?_eq_some hn
  have hline : '\n' ∉ body ++ '/' :: flags := by
    rw [List.mem_append, List.mem_cons, not_or, not_or]
    refine ⟨fun hmem => ?_, by decide, fun hmem => ?_⟩
    · exact absurd (hbody.not_isLineBreak _ hmem) (by decide)
    · exact absurd (hflags _ hmem) (by decide)
  have hlen : (body ++ '/' :: flags).length =
      body.length + (flags.length + 1) := by
    rw [List.length_append, List.length_cons]
  rw [show body ++ '/' :: (flags ++ rest) = (body ++ '/' :: flags) ++ rest by
    simp] at hpiece hpiece' ⊢
  refine h.advances_literal (by decide) ?_ (hlen ▸ hpiece) ?_
  · intro l hl hmem
    rw [List.mem_singleton.mp hl, List.mem_cons] at hmem
    exact absurd hmem (by simp [hline])
  · rw [← crlf_append, hpiece', crlf_eq_self hline, hlen]

theorem advances_closed (h : Alike p p') {c : Char} {t : Text}
    (hc : c ≠ '\n') (ht : ClosedLiteral (c :: t))
    (ht' : ClosedLiteral (c :: crlf t)) (hfeeds : FeedsInTemplates [c :: t])
    (s : Text) : Advances p p' (c :: (t ++ s)) :=
  h.advances_literal hc hfeeds (ht.piece_eq p s) (ht'.piece_eq p' (crlf s))

/-- Both runs get ahead, or they are in front of a string that goes on behind a
line feed. -/
theorem step (h : Alike p p') (c : Char) (cs : Text)
    (hclosed : ∀ l ∈ p.found (c :: cs), l.head? = some '/' ∨ ClosedLiteral l) :
    Advances p p' (c :: cs) ∨ ∃ body rest, cs = body ++ [c] ++ rest ∧
      (c = '\'' ∨ c = '"') ∧ Inside [c, '\n'] body ∧ '\n' ∈ body := by
  have hbegins := p.begins c cs
  have hfound : (p.piece c cs).kind = .literal →
      (c :: cs).take (p.piece c cs).length ∈ p.found (c :: cs) := by
    intro hkind
    rw [Progress.found_literal hkind]
    exact List.mem_cons_self
  generalize hpiece : p.piece c cs = piece at hbegins hfound
  cases hbegins with
  | string hq =>
      have hslash : c ≠ '/' := by rcases hq with rfl | rfl <;> decide
      have hc : c ≠ '\n' := by rcases hq with rfl | rfl <;> decide
      have hl := (hclosed _ (hfound rfl)).resolve_left (by simpa using hslash)
      rw [List.take_succ_cons] at hl
      rw [← List.take_append_drop (stringLength c cs) cs]
      generalize cs.take (stringLength c cs) = t at hl
      by_cases hline : '\n' ∈ t
      · right
        cases hl with
        | @string _ body _ hbody =>
            refine ⟨body, cs.drop (stringLength c cs), rfl, hq, hbody, ?_⟩
            simpa [Ne.symm hc] using hline
        | template hbody => exact absurd hq (by decide)
      · left
        refine h.advances_closed hc hl ?_ ?_ _
        · rwa [crlf_eq_self hline]
        · intro l hmem hfeed
          rw [List.mem_singleton.mp hmem, List.mem_cons] at hfeed
          exact absurd hfeed (by simp [Ne.symm hc, hline])
  | template =>
      left
      have hl := (hclosed _ (hfound rfl)).resolve_left (by simp)
      rw [List.take_succ_cons] at hl
      rw [← List.take_append_drop (templateLength cs) cs]
      generalize cs.take (templateLength cs) = t at hl
      refine h.advances_closed (by decide) hl ?_ ?_ _
      · cases hl with
        | string hq hbody => exact absurd hq (by decide)
        | @template body hbody =>
            rw [crlf_append]
            exact .template (inside_crlf hbody)
      · intro l hmem _
        rw [List.mem_singleton.mp hmem]
        rfl
  | @line cs =>
      left
      obtain ⟨body, rest, rfl, hbody, hrest⟩ := exists_line cs
      exact h.advances_line hbody hrest
  | @block cs n hsearch hn =>
      left
      obtain ⟨body, rest, rfl, hbody, rfl⟩ :=
        eq_of_blockCommentLength?_eq_some hn
      have hadvances := h.advances_block rest hbody hsearch
      rw [List.append_assoc, List.append_assoc] at hadvances
      exact hadvances
  | @opener cs hnone =>
      left
      refine h.advances_code (t := ['*']) (by decide) hpiece ?_
      apply Begins.nextPiece_eq
      rw [List.singleton_append]
      apply Begins.opener
      rwa [h.unclosed, blockCommentLength?_eq_none, closeMark_isInfix_crlf,
        ← blockCommentLength?_eq_none]
  | regex hcs hcs' hallowed hn =>
      exact Or.inl (h.advances_regex hcs hcs' hallowed hn)
  | slash hcs hcs' hnone =>
      left
      refine h.advances_code (t := []) (by decide) hpiece ?_
      apply Begins.nextPiece_eq
      rw [List.nil_append, ← h.unclosed]
      apply Begins.slash
      · rwa [ne_eq, head?_crlf (by decide) (by decide)]
      · rwa [ne_eq, head?_crlf (by decide) (by decide)]
      · rwa [h.recent.slashOpensRegex_eq, regexLength?_crlf]
  | other hquote htemplate hslash =>
      left
      by_cases hc : c = '\n'
      · rw [hc]
        exact h.advances_lineFeed cs
      · refine h.advances_code (t := []) (by simpa using Ne.symm hc) hpiece ?_
        apply Begins.nextPiece_eq
        rw [← h.unclosed]
        exact .other hquote htemplate hslash

end Alike

/-! ## The literals of the two runs -/

theorem found_closed (p : Progress) {l : Text} (h : ClosedLiteral l)
    (s : Text) : p.found (l ++ s) = l :: (p.pushLiteral l).found s := by
  have hliterals : (p.pushLiteral l).literals.toList =
      p.literals.toList ++ [l] :=
    LiteralTable.toList_push _ _
  exact Progress.found_eq (p.run_closed h s) hliterals

/-- A string that goes on behind a line feed is cut short. -/
theorem found_crlf_ne (p p' : Progress) {q : Char} {body : Text} (rest : Text)
    (hq : q = '\'' ∨ q = '"') (hbody : Inside [q, '\n'] body)
    (hline : '\n' ∈ body) : p'.found (crlf (q :: (body ++ [q]) ++ rest)) ≠
      (p.found (q :: (body ++ [q]) ++ rest)).map crlf := by
  have hq' : q ≠ '\n' := by rcases hq with rfl | rfl <;> decide
  have hcrlf : crlf (q :: (body ++ [q])) = q :: (crlf body ++ [q]) := by
    rw [crlf_cons hq', crlf_append, crlf_cons hq', crlf_nil]
  have hpiece : p'.piece q (crlf body ++ ([q] ++ crlf rest)) = ⟨.literal,
      stringLength q (crlf body ++ ([q] ++ crlf rest)) + 1, p'.unclosed⟩ :=
    (Begins.string hq).nextPiece_eq
  rw [found_closed p (.string hq hbody), List.map_cons, crlf_append, hcrlf,
    List.cons_append, List.append_assoc,
    Progress.found_literal (by rw [hpiece]), hpiece]
  intro heq
  have hlen := congrArg List.length (List.cons.inj heq).1
  have hlt := stringLength_crlf_lt hbody hline ([q] ++ crlf rest)
  rw [List.length_take] at hlen
  simp only [List.length_cons, List.length_append] at hlen
  omega

theorem found_crlf_iff {p p' : Progress} (h : Alike p p') (s : Text)
    (hclosed : ∀ l ∈ p.found s, l.head? = some '/' ∨ ClosedLiteral l) :
    p'.found (crlf s) = (p.found s).map crlf ↔
      FeedsInTemplates (p.found s) := by
  induction hn : s.length using Nat.strong_induction_on generalizing p p' s with
  | _ n ih =>
  subst hn
  cases s with
  | nil => simp [Progress.found_nil, FeedsInTemplates]
  | cons c cs =>
      rcases h.step c cs hclosed with ⟨q, q', t, ls, hstep⟩ |
          ⟨body, rest, rfl, hc, hbody, hline⟩
      · have hfound := Progress.found_eq hstep.run hstep.literals
        have hfound' := Progress.found_eq hstep.run_crlf hstep.literals_crlf
        rw [hfound, List.forall_mem_append] at hclosed
        have hrest := ih _ hstep.shorter hstep.alike t hclosed.2 rfl
        rw [hfound, hfound', List.map_append, List.append_cancel_left_eq, hrest]
        unfold FeedsInTemplates
        rw [List.forall_mem_append]
        exact (and_iff_right hstep.feeds).symm
      · refine iff_of_false (found_crlf_ne p p' rest hc hbody hline) ?_
        intro hfeeds
        rw [← List.cons_append, found_closed p (.string hc hbody)] at hfeeds
        have hhead := hfeeds _ List.mem_cons_self (by simp [hline])
        rcases hc with rfl | rfl <;> simp at hhead

/-- Line feeds in a template, in comments and in code, next to a string and a
regular expression with escapes. -/
def linedSource : Text :=
  "x = 'a\\'b' // c\n + `d\\\ne` /* f\n */ / /\\//g".toList

/-- **Line ends.** With a carriage return in front of every line feed the same
literals are found, in the same order, exactly if no string goes on behind an
escaped line feed. -/
theorem tokenize_crlf_iff {source : Text}
    (hclosed : ∀ l ∈ (tokenize source).literals.toList,
      l.head? = some '/' ∨ ClosedLiteral l) :
    (tokenize (crlf source)).literals.toList =
      (tokenize source).literals.toList.map crlf ↔
    ∀ l ∈ (tokenize source).literals.toList, '\n' ∈ l → l.head? = some '`' := by
  have hliterals : ∀ s, (tokenize s).literals.toList =
      Progress.found {} s :=
    fun s => Progress.literals_run {} s
  rw [hliterals] at hclosed
  rw [hliterals, hliterals]
  exact found_crlf_iff ⟨.nil, rfl, rfl⟩ source hclosed

theorem tokenize_crlf_iff_linedSource :
    (∀ l ∈ (tokenize linedSource).literals.toList,
      l.head? = some '/' ∨ ClosedLiteral l) ∧
    (tokenize (crlf linedSource)).literals.toList =
      ["'a\\'b'", "`d\\\r\ne`", "/\\//g"].map String.toList := by
  have hliterals : (tokenize linedSource).literals.toList =
      ["'a\\'b'", "`d\\\ne`", "/\\//g"].map String.toList := by
    decide +kernel
  have hclosed : ∀ l ∈ (tokenize linedSource).literals.toList,
      l.head? = some '/' ∨ ClosedLiteral l := by
    have hstring : Inside ['\'', '\n'] "a\\'b".toList :=
      .plain (by decide) (by decide)
        (.escape (.plain (by decide) (by decide) .nil))
    have htemplate : Inside ['`'] "d\\\ne".toList :=
      .plain (by decide) (by decide)
        (.escape (.plain (by decide) (by decide) .nil))
    simp only [hliterals, List.map_cons, List.map_nil, List.forall_mem_cons,
      List.not_mem_nil, false_implies, implies_true, and_true]
    exact ⟨Or.inr (.string (Or.inl rfl) hstring),
      Or.inr (.template htemplate), Or.inl rfl⟩
  have hfeeds : ∀ l ∈ (tokenize linedSource).literals.toList,
      '\n' ∈ l → l.head? = some '`' := by
    rw [hliterals]
    decide
  refine ⟨hclosed, ?_⟩
  rw [(tokenize_crlf_iff hclosed).mpr hfeeds, hliterals]
  decide

/-- A string that goes on in the next line is one literal with a line feed
alone, and two with a carriage return in front of it. -/
theorem tokenize_crlf_continuation :
    (tokenize "'a\\\nb'".toList).literals.toList = ["'a\\\nb'".toList] ∧
    ClosedLiteral "'a\\\nb'".toList ∧
    (tokenize (crlf "'a\\\nb'".toList)).literals.toList =
      ["'a\\\r".toList, "'".toList] := by
  have hbody : Inside ['\'', '\n'] ['a', '\\', '\n', 'b'] :=
    .plain (by decide) (by decide)
      (.escape (.plain (by decide) (by decide) .nil))
  exact ⟨by decide +kernel, .string (Or.inl rfl) hbody, by decide +kernel⟩

end ScriptMinifier.Script
