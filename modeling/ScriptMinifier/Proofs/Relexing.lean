import ScriptMinifier.Proofs.Weaving

/-!
# Reading code and closed literals

Plain code is read character by character, and a literal that is closed by its
own delimiter is read as a whole, whatever comes behind it. A text woven from
the two is therefore taken apart into exactly what it was woven from.
-/

namespace ScriptMinifier.Script

/-! ## Plain code -/

/-- The characters that begin neither a literal nor a comment. -/
def isCodeChar (c : Char) : Bool :=
  c != '\'' && c != '"' && c != '`' && c != '/'

theorem nextPiece_code {c : Char} (h : isCodeChar c = true) (recent : Text)
    (unclosed : Bool) (cs : Text) :
    nextPiece recent unclosed c cs = ⟨.code, 1, unclosed⟩ := by
  simp only [isCodeChar, Bool.and_eq_true, bne_iff_ne, ne_eq] at h
  obtain ⟨⟨⟨hsingle, hdouble⟩, hback⟩, hslash⟩ := h
  rw [nextPiece, if_neg (not_or.mpr ⟨hsingle, hdouble⟩), if_neg hback,
    if_neg hslash]

/-- The progress with more code. -/
def Progress.pushCode (p : Progress) (s : Text) : Progress :=
  { p with recent := s.reverse ++ p.recent }

/-- The progress with one more literal. -/
def Progress.pushLiteral (p : Progress) (literal : Text) : Progress :=
  { p with
    recent := (placeholder p.literals.size).reverse ++ p.recent
    literals := p.literals.push literal }

/-- What the next step makes of code once its length is known. -/
theorem Progress.run_codePiece {c : Char} {cs s : Text} {unclosed : Bool}
    (p : Progress)
    (hpiece : p.piece c (cs ++ s) = ⟨.code, cs.length + 1, unclosed⟩) :
    p.run 0 (c :: (cs ++ s)) =
      ({ p with unclosed }.pushCode (c :: cs)).run 0 s := by
  have hnext : p.next c (cs ++ s) = { p with unclosed }.pushCode (c :: cs) := by
    simp [Progress.next, hpiece, Progress.absorb, Progress.pushCode]
  have hrest : p.rest c (cs ++ s) = s := by
    simp [Progress.rest, hpiece]
  rw [Progress.run_cons, hnext, hrest]

theorem Progress.run_code {t : Text} (ht : ∀ c ∈ t, isCodeChar c = true)
    (p : Progress) (s : Text) :
    p.run 0 (t ++ s) = (p.pushCode t).run 0 s := by
  induction t generalizing p with
  | nil => rfl
  | cons c t ih =>
      have hpiece : p.piece c ([] ++ (t ++ s)) = ⟨.code, 1, p.unclosed⟩ :=
        nextPiece_code (ht c List.mem_cons_self) _ _ _
      have hstep := p.run_codePiece hpiece
      rw [List.nil_append] at hstep
      rw [List.cons_append, hstep,
        ih (fun d hd => ht d (List.mem_cons_of_mem _ hd))]
      simp [Progress.pushCode]

/-! ## Closed literals -/

/-- Text inside a literal: escaped pairs, and characters that are neither a
backslash nor one of `stops`. -/
inductive Inside (stops : List Char) : Text → Prop
  | nil : Inside stops []
  | escape {c : Char} {s : Text} (hs : Inside stops s) :
      Inside stops ('\\' :: c :: s)
  | plain {c : Char} {s : Text} (hescape : c ≠ '\\') (hstop : c ∉ stops)
      (hs : Inside stops s) : Inside stops (c :: s)

theorem inside_of_forall {stops : List Char} {s : Text}
    (h : ∀ c ∈ s, c ≠ '\\' ∧ c ∉ stops) : Inside stops s := by
  induction s with
  | nil => exact .nil
  | cons c s ih =>
      obtain ⟨hescape, hstop⟩ := h c List.mem_cons_self
      exact .plain hescape hstop
        (ih fun d hd => h d (List.mem_cons_of_mem _ hd))

/-- A string or a template that is closed by its own delimiter. -/
inductive ClosedLiteral : Text → Prop
  | string {q : Char} {body : Text} (hq : q = '\'' ∨ q = '"')
      (hbody : Inside [q, '\n'] body) : ClosedLiteral (q :: (body ++ [q]))
  | template {body : Text} (hbody : Inside ['`'] body) :
      ClosedLiteral ('`' :: (body ++ ['`']))

theorem stringLength_cons {c : Char} (hc : c ≠ '\\') (q : Char) (cs : Text) :
    stringLength q (c :: cs) = if c = '\n' then 0
      else if c = q then 1 else stringLength q cs + 1 := by
  rw [stringLength.eq_def]
  exact if_neg hc

theorem templateLength_cons {c : Char} (hc : c ≠ '\\') (cs : Text) :
    templateLength (c :: cs) = if c = '`' then 1
      else templateLength cs + 1 := by
  rw [templateLength.eq_def]
  exact if_neg hc

theorem stringLength_append {q : Char} {body : Text} (hq : q = '\'' ∨ q = '"')
    (hbody : Inside [q, '\n'] body) (rest : Text) :
    stringLength q (body ++ q :: rest) = body.length + 1 := by
  have hescape : q ≠ '\\' := by rcases hq with rfl | rfl <;> decide
  have hline : q ≠ '\n' := by rcases hq with rfl | rfl <;> decide
  induction hbody with
  | nil => rw [List.nil_append, stringLength_cons hescape, if_neg hline,
      if_pos rfl, List.length_nil]
  | escape _ ih =>
      simp only [List.cons_append, stringLength, if_true, ih, List.length_cons]
  | plain hc hstop _ ih =>
      rw [List.mem_cons, List.mem_singleton, not_or] at hstop
      rw [List.cons_append, stringLength_cons hc, if_neg hstop.2,
        if_neg hstop.1, ih, List.length_cons]

theorem templateLength_append {body : Text} (hbody : Inside ['`'] body)
    (rest : Text) :
    templateLength (body ++ '`' :: rest) = body.length + 1 := by
  induction hbody with
  | nil => rw [List.nil_append, templateLength_cons (by decide), if_pos rfl,
      List.length_nil]
  | escape _ ih =>
      simp only [List.cons_append, templateLength, if_true, ih,
        List.length_cons]
  | plain hc hstop _ ih =>
      rw [List.mem_singleton] at hstop
      rw [List.cons_append, templateLength_cons hc, if_neg hstop, ih,
        List.length_cons]

/-- What the next step makes of a literal once its length is known. -/
theorem Progress.run_literal {c : Char} {cs s : Text} (p : Progress)
    (hpiece : p.piece c (cs ++ s) = ⟨.literal, cs.length + 1, p.unclosed⟩) :
    p.run 0 (c :: (cs ++ s)) = (p.pushLiteral (c :: cs)).run 0 s := by
  have hnext : p.next c (cs ++ s) = p.pushLiteral (c :: cs) := by
    simp [Progress.next, hpiece, Progress.absorb, Progress.pushLiteral]
  have hrest : p.rest c (cs ++ s) = s := by
    simp [Progress.rest, hpiece]
  rw [Progress.run_cons, hnext, hrest]

theorem ClosedLiteral.piece_eq {c : Char} {t : Text}
    (h : ClosedLiteral (c :: t)) (p : Progress) (s : Text) :
    p.piece c (t ++ s) = ⟨.literal, t.length + 1, p.unclosed⟩ := by
  cases h with
  | @string q body hq hbody =>
      rw [Progress.piece, nextPiece, if_pos hq, List.append_assoc,
        List.singleton_append, stringLength_append hq hbody]
      simp
  | @template body hbody =>
      rw [Progress.piece, nextPiece, if_neg (by decide), if_pos rfl,
        List.append_assoc, List.singleton_append,
        templateLength_append hbody]
      simp

theorem Progress.run_closed {literal : Text} (h : ClosedLiteral literal)
    (p : Progress) (s : Text) :
    p.run 0 (literal ++ s) = (p.pushLiteral literal).run 0 s := by
  cases literal with
  | nil => cases h
  | cons c t =>
      rw [List.cons_append]
      exact p.run_literal (h.piece_eq p s)

/-! ## Comments -/

/-- The progress with one more comment dropped. -/
def Progress.pushComment (p : Progress) (trace : Text) : Progress :=
  { p with recent := trace ++ p.recent, comments := p.comments + 1 }

/-- What the next step makes of a comment once its length is known. -/
theorem Progress.run_comment {c : Char} {cs s : Text} (p : Progress)
    (hpiece : p.piece c (cs ++ s) = ⟨.comment, cs.length + 1, p.unclosed⟩) :
    p.run 0 (c :: (cs ++ s)) = (p.pushComment
      (commentTrace (c :: cs) p.recent.head? s.head?)).run 0 s := by
  have hrest : p.rest c (cs ++ s) = s := by
    simp [Progress.rest, hpiece]
  have hnext : p.next c (cs ++ s) = p.pushComment
      (commentTrace (c :: cs) p.recent.head? s.head?) := by
    simp [Progress.next, hpiece, Progress.absorb, Progress.pushComment]
  rw [Progress.run_cons, hnext, hrest]

/-- A comment at the end of a line leaves nothing. -/
theorem commentTrace_lineComment {body s : Text} (hbody : '\n' ∉ body)
    (hs : EndsLine s) (before : Option Char) :
    commentTrace (lineMark ++ body) before s.head? = [] := by
  have hside : isIdentifierSide s.head? = false := by
    rcases hs with rfl | hs
    · rfl
    · rw [hs]
      decide +kernel
  simp [commentTrace, hbody, hside, lineMark]

theorem Progress.run_lineComment {body s : Text} (hbody : '\n' ∉ body)
    (hs : EndsLine s) (p : Progress) :
    p.run 0 (lineMark ++ body ++ s) = (p.pushComment
      (commentTrace (lineMark ++ body) p.recent.head? s.head?)).run 0 s := by
  apply p.run_comment
  have hlen : lineCommentLength ('/' :: body ++ s) = body.length + 1 :=
    lineCommentLength_append (by simpa using hbody) hs
  rw [List.cons_append] at hlen
  show slashPiece p.recent p.unclosed ('/' :: (body ++ s)) = _
  rw [slashPiece, hlen]
  rfl

theorem Progress.run_blockComment {body : Text} (hbody : ¬ closeMark <:+: body)
    (s : Text) (p : Progress) (hp : p.unclosed = false) :
    p.run 0 (openMark ++ (body ++ closeMark) ++ s) = (p.pushComment
      (commentTrace (openMark ++ (body ++ closeMark)) p.recent.head?
        s.head?)).run 0 s := by
  apply p.run_comment
  show slashPiece p.recent p.unclosed ('*' :: (body ++ closeMark ++ s)) = _
  rw [slashPiece, hp, List.append_assoc]
  simp only [Bool.false_eq_true, if_false, blockCommentLength?_append s hbody]
  simp [closeMark]

/-! ## Woven text -/

/-- Plain gaps and closed literals are read back as they are. -/
theorem Progress.run_woven {w : Woven Text}
    (hgaps : ∀ gap ∈ w.gaps, ∀ c ∈ gap, isCodeChar c = true)
    (hitems : ∀ literal ∈ w.items, ClosedLiteral literal) (p : Progress) :
    (p.run 0 w.text).recent.reverse =
      p.recent.reverse ++ w.masked p.literals.size ∧
    (p.run 0 w.text).literals.toList = p.literals.toList ++ w.items := by
  induction w generalizing p with
  | last gap =>
      have hrun := p.run_code (hgaps gap (by simp [Woven.gaps])) []
      rw [List.append_nil] at hrun
      rw [Woven.text_last, hrun]
      simp [Progress.run, Progress.pushCode, Woven.items]
  | cons gap literal w ih =>
      obtain ⟨hrecent, hliterals⟩ := ih
        (fun g hg => hgaps g (List.mem_cons_of_mem _ hg))
        (fun l hl => hitems l (List.mem_cons_of_mem _ hl))
        ((p.pushCode gap).pushLiteral literal)
      rw [Woven.text_cons, p.run_code (hgaps gap (by simp [Woven.gaps])),
        Progress.run_closed (hitems literal (by simp [Woven.items])),
        hrecent, hliterals]
      simp [Progress.pushCode, Progress.pushLiteral, Woven.items]

theorem tokenize_woven {w : Woven Text}
    (hgaps : ∀ gap ∈ w.gaps, ∀ c ∈ gap, isCodeChar c = true)
    (hitems : ∀ literal ∈ w.items, ClosedLiteral literal) :
    (tokenize w.text).code = w.masked 0 ∧
    (tokenize w.text).literals.toList = w.items :=
  Progress.run_woven hgaps hitems {}

end ScriptMinifier.Script
