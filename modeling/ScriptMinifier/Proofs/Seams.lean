import ScriptMinifier.Proofs.Idempotence
import ScriptMinifier.Proofs.Regexes
import ScriptMinifier.Proofs.Slashes

/-!
# Comments that minifying makes

Minifying leaves no comment of the script, but it can make one: with the blanks
behind it gone, a slash that divides may come to stand in front of a regular
expression or of a star. For scripts with closed literals whose slashes in code
all divide, and without loose signs, this is the only way: the output is read
like the script, and it holds a comment exactly if there is such a seam.
-/

namespace ScriptMinifier.Script

open Text Spacing

/-! ## Slashes read again -/

/-- A slash in front of `s` opens a comment. -/
def OpensComment (s : Text) : Prop :=
  s.head? = some '/' ∨ (s.head? = some '*' ∧ closeMark <:+: s.tail)

instance (s : Text) : Decidable (OpensComment s) :=
  inferInstanceAs (Decidable (_ ∨ _))

theorem not_opensComment {s : Text} (hslash : s.head? ≠ some '/')
    (hstar : s.head? ≠ some '*') : ¬ OpensComment s := by
  rintro (hs | ⟨hs, -⟩)
  · exact hslash hs
  · exact hstar hs

/-- No slash of a gap opens a comment, with `after` behind the gap. -/
def NoSeam (after : Text) : Text → Prop
  | [] => True
  | c :: cs => (c = '/' → ¬ OpensComment (cs ++ after)) ∧ NoSeam after cs

instance decidableNoSeam (after : Text) :
    (gap : Text) → Decidable (NoSeam after gap)
  | [] => .isTrue trivial
  | _ :: cs =>
      have := decidableNoSeam after cs
      inferInstanceAs (Decidable (_ ∧ _))

theorem noSeam_append {s : Text} (hs : ∀ c ∈ s, isCodeChar c = true)
    (after t : Text) : NoSeam after (s ++ t) ↔ NoSeam after t := by
  induction s with
  | nil => rfl
  | cons c s ih =>
      rw [List.forall_mem_cons] at hs
      have hc : c ≠ '/' := by
        rintro rfl
        exact absurd hs.1 (by decide)
      rw [List.cons_append, NoSeam, ih hs.2]
      simp [hc]

namespace Progress

/-- A search that has failed, perhaps one from the slash right in front of `s`,
would fail again behind the first character. -/
def Spent (p : Progress) (s : Text) : Prop :=
  p.unclosed = true → ¬ closeMark <:+: s.tail

theorem Spent.drop {p : Progress} {s t : Text} (h : p.Spent (s ++ t)) :
    p.Spent t := by
  intro hunclosed hin
  refine h hunclosed (hin.trans ?_)
  cases s with
  | nil => exact List.infix_refl _
  | cons c s => exact (t.tail_suffix.trans (List.suffix_append s t)).isInfix

theorem comments_lt_of_opensComment {p : Progress} {s : Text}
    (hp : p.Spent ('/' :: s)) (hs : OpensComment s) :
    p.comments < (p.run 0 ('/' :: s)).comments := by
  apply comments_lt_run
  have hbegins := p.begins '/' s
  generalize p.piece '/' s = piece at hbegins
  cases hbegins with
  | string hq => exact absurd hq (by decide)
  | line => rfl
  | block => rfl
  | @opener cs hnone =>
      have hclose : closeMark <:+: cs := by
        rcases hs with hs | hs
        · exact absurd hs (by simp)
        · exact hs.2
      rcases hnone with hnone | hnone
      · exact absurd (hclose.trans (List.suffix_cons '*' cs).isInfix)
          (hp hnone)
      · exact absurd hclose (blockCommentLength?_eq_none.mp hnone)
  | regex hcs hcs' => exact absurd hs (not_opensComment hcs hcs')
  | slash hcs hcs' => exact absurd hs (not_opensComment hcs hcs')
  | other _ _ hslash => exact absurd rfl hslash

/-- A slash that divides is one character of code, if it opens no comment. -/
theorem run_slash {p : Progress} {s : Text}
    (hopens : slashOpensRegex p.recent = false) (hp : p.Spent ('/' :: s))
    (hs : ¬ OpensComment s) : ∃ unclosed : Bool,
      p.run 0 ('/' :: s) =
        ({ p with unclosed }.pushCode ['/']).run 0 s ∧
      ({ p with unclosed }.pushCode ['/']).Spent s := by
  have hpiece : ∀ piece, Begins p.recent p.unclosed '/' s piece →
      p.piece '/' s = piece := fun piece h => h.nextPiece_eq
  have hbegins := p.begins '/' s
  generalize p.piece '/' s = piece at hbegins
  cases hbegins with
  | string hq => exact absurd hq (by decide)
  | line => exact absurd (Or.inl rfl) hs
  | @block cs n hsearch hn =>
      refine absurd (Or.inr ⟨rfl, ?_⟩) hs
      by_contra hnone
      rw [List.tail_cons, ← blockCommentLength?_eq_none, hn] at hnone
      exact absurd hnone (by simp)
  | @opener cs hnone =>
      refine ⟨true, ?_, fun _ hin => hs (Or.inr ⟨rfl, hin⟩)⟩
      have hmark : p.run 0 ('/' :: (['*'] ++ cs)) =
          ({ p with unclosed := true }.pushCode ['/', '*']).run 0 cs :=
        p.run_codePiece (hpiece _ (.opener hnone))
      have hstar := ({ p with unclosed := true }.pushCode ['/']).run_code
        (t := ['*']) (by simp [isCodeChar]) cs
      rw [List.singleton_append] at hmark hstar
      rw [hmark, hstar]
      rfl
  | regex _ _ hallowed =>
      rw [hopens] at hallowed
      exact absurd hallowed (by decide)
  | slash hcs hcs' hnone =>
      refine ⟨p.unclosed, ?_, ?_⟩
      · have hstep : p.run 0 ('/' :: ([] ++ s)) = (p.pushCode ['/']).run 0 s :=
          p.run_codePiece (hpiece _ (.slash hcs hcs' hnone))
        exact hstep
      · exact Spent.drop (s := ['/']) hp
  | other _ _ hslash => exact absurd rfl hslash

/-- From `p` the gap `s` is read in front of `after`: a comment is found and `s`
has a seam, or it has none and all of it is code, compressed from `r`. -/
def Reads (p : Progress) (s after r : Text) : Prop :=
  (¬ NoSeam after s ∧ p.comments < (p.run 0 (s ++ after)).comments) ∨
  (NoSeam after s ∧ ∃ q : Progress, p.run 0 (s ++ after) = q.run 0 after ∧
    q.comments = p.comments ∧ q.literals = p.literals ∧ q.Spent after ∧
    Settled r q.recent)

theorem Reads.step {p q : Progress} {t s after r : Text}
    (h : q.Reads s after r)
    (hrun : p.run 0 (t ++ (s ++ after)) = q.run 0 (s ++ after))
    (hseam : NoSeam after (t ++ s) ↔ NoSeam after s)
    (hcomments : q.comments = p.comments)
    (hliterals : q.literals = p.literals) :
    p.Reads (t ++ s) after r := by
  unfold Reads at h ⊢
  rw [hseam, List.append_assoc, hrun, ← hcomments, ← hliterals]
  exact h

theorem reads_code {p : Progress} {s t after r : Text}
    (hs : ∀ c ∈ s, isCodeChar c = true) (h : (p.pushCode s).Reads t after r) :
    p.Reads (s ++ t) after r :=
  h.step (p.run_code hs _) (noSeam_append hs after t) rfl rfl

theorem reads_slash {p : Progress} {t after r : Text}
    (hopens : slashOpensRegex p.recent = false)
    (hp : p.Spent ('/' :: (t ++ after)))
    (h : ∀ unclosed : Bool,
      ({ p with unclosed }.pushCode ['/']).Spent (t ++ after) →
      ({ p with unclosed }.pushCode ['/']).Reads t after r) :
    p.Reads ('/' :: t) after r := by
  by_cases hs : OpensComment (t ++ after)
  · exact Or.inl ⟨fun hseam => hseam.1 rfl hs,
      comments_lt_of_opensComment hp hs⟩
  · obtain ⟨unclosed, hrun, hspent⟩ := run_slash hopens hp hs
    exact (h unclosed hspent).step (t := ['/']) hrun
      (and_iff_right fun _ => hs) rfl rfl

theorem isCodeChar_of_mem_space {b : Bool} :
    ∀ c ∈ (if b then [' '] else [] : Text), isCodeChar c = true := by
  cases b <;> simp [isCodeChar]

theorem reverse_space (b : Bool) :
    (if b then [' '] else [] : Text).reverse = if b then [' '] else [] := by
  cases b <;> rfl

/-- **A gap read again.** It is read as far as its first seam, and slashes mean
what they meant. -/
theorem reads_tighten {g after r : Text} {glued pending : Bool} {p : Progress}
    (hsync : Sync glued pending r p.recent)
    (hp : p.Spent (tighten glued pending g ++ after))
    (hquotes : ∀ c ∈ g, c ≠ '\'' ∧ c ≠ '"' ∧ c ≠ '`')
    (hdivides : ∀ pre, pre ++ ['/'] <+: g →
      slashOpensRegex (pre.reverse ++ r) = false) :
    p.Reads (tighten glued pending g) after (g.reverse ++ r) := by
  induction g generalizing r glued pending p with
  | nil =>
      rw [tighten] at hp ⊢
      rw [← List.append_nil (if pending && !glued then [' '] else [])]
      refine reads_code isCodeChar_of_mem_space (Or.inr ⟨trivial, _, rfl, rfl,
        rfl, hp.drop, ?_⟩)
      rw [pushCode, reverse_space]
      exact .mk hsync
  | cons c g ih =>
      rw [List.forall_mem_cons] at hquotes
      have hshift : ∀ pre, pre ++ ['/'] <+: g →
          slashOpensRegex (pre.reverse ++ c :: r) = false := by
        intro pre hpre
        have h := hdivides (c :: pre) (by simpa using hpre)
        rwa [List.reverse_cons, List.append_assoc] at h
      rw [List.reverse_cons, List.append_assoc, List.singleton_append]
      cases hblank : isBlank c with
      | true =>
          rw [tighten_blank hblank] at hp ⊢
          exact ih (hsync.push_blank hblank) hp hquotes.2 hshift
      | false =>
          rw [tighten_of_not_blank hblank] at hp ⊢
          have hpush := hsync.push_char hblank
          by_cases hc : c = '/'
          · subst hc
            have hspace :
                (pending && !glued && !isPunctuation '/') = false := by
              rw [show isPunctuation '/' = true by decide, Bool.not_true,
                Bool.and_false]
            simp only [hspace, Bool.false_eq_true, if_false,
              List.nil_append] at hp hpush ⊢
            have hr : slashOpensRegex r = false := hdivides [] (by simp)
            refine reads_slash ?_ hp fun unclosed hspent =>
              ih hpush hspent hquotes.2 hshift
            rw [hsync.opens, hr, Bool.false_and]
          · have hcode : isCodeChar c = true := by
              simp [isCodeChar, hquotes.1, hc]
            rw [List.append_cons] at hp ⊢
            rw [List.append_assoc] at hp
            refine reads_code ?_ (ih ?_ hp.drop hquotes.2 hshift)
            · rw [List.forall_mem_append, List.forall_mem_singleton]
              exact ⟨isCodeChar_of_mem_space, hcode⟩
            · rw [pushCode, List.reverse_concat, List.cons_append,
                reverse_space]
              exact hpush

theorem Reads.comments_eq_iff {p : Progress} {s after r : Text} {P : Prop}
    (h : p.Reads s after r)
    (hafter : ∀ q : Progress, q.literals = p.literals → q.Spent after →
      Settled r q.recent → ((q.run 0 after).comments = q.comments ↔ P)) :
    (p.run 0 (s ++ after)).comments = p.comments ↔ NoSeam after s ∧ P := by
  rcases h with ⟨hseam, hlt⟩ | ⟨hseam, q, hrun, hcomments, hliterals, hq, hr⟩
  · exact iff_of_false (Nat.ne_of_gt hlt) fun h => hseam h.1
  · rw [hrun, ← hcomments, hafter q hliterals hq hr]
    exact (and_iff_right hseam).symm

end Progress

end ScriptMinifier.Script

namespace ScriptMinifier

open Text Spacing Script

/-! ## Tidy text read again -/

namespace Woven

/-- The gaps tightened one by one. At the start, `glued` tells whether blanks
go, and at the end they go. -/
def tightenFrom (glued : Bool) : Woven Text → Woven Text
  | last gap => last (tighten glued false (gap.rdropWhile isBlank))
  | cons gap item rest =>
      cons (tighten glued false gap) item (rest.tightenFrom false)

theorem tidy_eq_tightenFrom (w : Woven Text) : w.tidy = w.tightenFrom true := by
  have hrest : ∀ v : Woven Text, (v.mapGaps compress).mapLast
      (·.rdropWhile isBlank) = v.tightenFrom false := by
    intro v
    induction v with
    | last gap =>
        rw [mapGaps, mapLast, compress_eq_tighten, rdropWhile_tighten]
        rfl
    | cons gap item rest ih =>
        rw [mapGaps, mapLast, compress_eq_tighten, ih]
        rfl
  cases w with
  | last gap =>
      rw [tidy, mapGaps, mapFirst, mapLast, compress_eq_tighten,
        dropWhile_tighten, rdropWhile_tighten]
      rfl
  | cons gap item rest =>
      rw [tidy, mapGaps, mapFirst, mapLast, compress_eq_tighten,
        dropWhile_tighten, hrest]
      rfl

/-- No gap has a slash that opens a comment with what is behind it. -/
def NoSeams : Woven Text → Prop
  | last gap => NoSeam [] gap
  | cons gap item rest => NoSeam (item ++ rest.text) gap ∧ rest.NoSeams

instance decidableNoSeams : (w : Woven Text) → Decidable w.NoSeams
  | last gap => inferInstanceAs (Decidable (NoSeam [] gap))
  | cons _ _ rest =>
      have := decidableNoSeams rest
      inferInstanceAs (Decidable (_ ∧ _))

end Woven

/-- Code behind `r`, last character first, that is read again as it was: all
slashes in it divide, its literals are closed, and no regular expression is
behind two loose signs. -/
structure Readable (r : Text) (n : Nat) (w : Woven Text) : Prop where
  lexed : Lexed r n w
  quotes : ∀ gap ∈ w.gaps, ∀ c ∈ gap, c ≠ '\'' ∧ c ≠ '"' ∧ c ≠ '`'
  closed : ∀ item ∈ w.items, item.head? = some '/' ∨ ClosedLiteral item
  divides : ∀ pre, pre ++ ['/'] <+: w.masked n →
    slashOpensRegex (pre.reverse ++ r) = false
  signs : ∀ x ∈ w.gaps.zip w.items,
    x.2.head? = some '/' → looseSign x.1.reverse = false
  operand : r.head?.any (fun c => isBlank c || c == '+' || c == '-') = false

namespace Readable

variable {r gap item : Text} {n : Nat} {rest : Woven Text}

theorem of_cons (h : Readable r n (.cons gap item rest)) :
    Readable ((placeholder n).reverse ++ (gap.reverse ++ r)) (n + 1) rest where
  lexed := h.lexed.2
  quotes g hg := h.quotes g (List.mem_cons_of_mem _ hg)
  closed l hl := h.closed l (List.mem_cons_of_mem _ hl)
  divides pre hpre := by
    have hfront : gap ++ (placeholder n ++ pre) ++ ['/'] <+:
        (Woven.cons gap item rest).masked n := by
      rw [Woven.masked_cons, List.append_assoc, List.append_assoc,
        List.prefix_append_right_inj, List.prefix_append_right_inj]
      exact hpre
    have hslash := h.divides _ hfront
    rwa [List.reverse_append, List.reverse_append, List.append_assoc,
      List.append_assoc] at hslash
  signs x hx := h.signs x (List.mem_cons_of_mem _ hx)
  operand := by
    rw [head?_reverse_placeholder]
    decide

theorem divides_gap (h : Readable r n (.cons gap item rest)) :
    ∀ pre, pre ++ ['/'] <+: gap → slashOpensRegex (pre.reverse ++ r) = false :=
  fun pre hpre => h.divides pre (hpre.trans (List.prefix_append _ _))

end Readable

theorem isPlain_of_isFlagChar {c : Char} (h : isFlagChar c = true) :
    isPlain c = true :=
  isPlain_of_isIdentifierChar (isIdentifierChar_of_isFlagChar h)

theorem head?_tighten_isFlagChar {s : Text}
    (h : s.head?.any isFlagChar = false) :
    (tighten false false s).head?.any isFlagChar = false := by
  cases s with
  | nil => rfl
  | cons c s =>
      cases hblank : isBlank c with
      | false =>
          rw [tighten_of_not_blank hblank]
          exact h
      | true =>
          rw [tighten_blank hblank, Option.any_eq_false]
          intro d hd
          have hplain := isPlain_head?_tighten hd
          rw [Bool.eq_false_iff]
          intro hflag
          rw [isPlain_of_isFlagChar hflag] at hplain
          exact absurd hplain (by decide)

/-- No literal begins with a flag. -/
theorem head?_item_isFlagChar {item : Text}
    (h : item.head? = some '/' ∨ ClosedLiteral item) (s : Text) :
    (item ++ s).head?.any isFlagChar = false := by
  rcases h with h | h
  · rw [List.head?_append, h]
    show isFlagChar '/' = false
    decide
  · cases h with
    | string hq hbody =>
        rcases hq with rfl | rfl
        · show isFlagChar '\'' = false
          decide
        · show isFlagChar '"' = false
          decide
    | template hbody =>
        show isFlagChar '`' = false
        decide

theorem head?_text_tightenFrom {w : Woven Text}
    (hitems : ∀ item ∈ w.items, item.head? = some '/' ∨ ClosedLiteral item)
    (h : w.first.head?.any isFlagChar = false) :
    (w.tightenFrom false).text.head?.any isFlagChar = false := by
  cases w with
  | last gap =>
      apply head?_tighten_isFlagChar
      obtain ⟨blanks, hgap⟩ := List.rdropWhile_prefix isBlank gap
      cases hs : gap.rdropWhile isBlank with
      | nil => rfl
      | cons c s =>
          rw [← hgap, hs] at h
          exact h
  | cons gap item rest =>
      have hitem := head?_item_isFlagChar (hitems item (by simp [Woven.items]))
        (rest.tightenFrom false).text
      have hgap : (tighten false false gap).head?.any isFlagChar = false :=
        head?_tighten_isFlagChar h
      rw [Woven.tightenFrom, Woven.text_cons]
      cases hs : tighten false false gap with
      | nil => exact hitem
      | cons c s =>
          rw [hs] at hgap
          exact hgap

namespace Readable

variable {r gap item : Text} {n : Nat} {rest : Woven Text}

/-- A literal is read again as a whole. -/
theorem run_item (h : Readable r n (.cons gap item rest)) {q : Progress}
    (hq : Settled (gap.reverse ++ r) q.recent) :
    q.run 0 (item ++ (rest.tightenFrom false).text) =
      (q.pushLiteral item).run 0 (rest.tightenFrom false).text := by
  have hclosed := h.closed item (by simp [Woven.items])
  rcases hclosed with hslash | hclosed
  · obtain ⟨hregex, hopens, hflags⟩ := h.lexed.1 hslash
    have hloose : looseSign (gap.reverse ++ r) = false := by
      rw [looseSign_append _ h.operand]
      exact h.signs (gap, item) (by simp [Woven.gaps, Woven.items]) hslash
    apply hregex.run_eq
    · rw [hq.opens, hopens, hloose]
      rfl
    · exact head?_text_tightenFrom h.of_cons.closed hflags
  · exact Progress.run_closed hclosed q _

end Readable

/-- **Tidy text read again.** It holds a comment exactly if it has a seam. -/
theorem comments_run_tightenFrom {w : Woven Text} {r : Text} {glued : Bool}
    {p : Progress} (h : Readable r p.literals.size w)
    (hsync : Sync glued false r p.recent)
    (hp : p.Spent (w.tightenFrom glued).text) :
    (p.run 0 (w.tightenFrom glued).text).comments = p.comments ↔
      (w.tightenFrom glued).NoSeams := by
  induction w generalizing r glued p with
  | last gap =>
      have hfront := List.rdropWhile_prefix isBlank gap
      have hspent : p.Spent
          (tighten glued false (gap.rdropWhile isBlank) ++ []) := by
        rwa [List.append_nil]
      have hreads := Progress.reads_tighten hsync hspent
        (fun c hc => h.quotes gap (by simp [Woven.gaps]) c (hfront.subset hc))
        (fun pre hpre => h.divides pre (hpre.trans hfront))
      have hiff := hreads.comments_eq_iff (P := True)
        fun q _ _ _ => iff_of_true rfl trivial
      rwa [List.append_nil, and_true] at hiff
  | cons gap item rest ih =>
      rw [Woven.tightenFrom, Woven.text_cons] at hp ⊢
      apply Progress.Reads.comments_eq_iff (Progress.reads_tighten hsync hp
        (h.quotes gap (by simp [Woven.gaps])) h.divides_gap)
      intro q hliterals hspent hsettled
      have hrest := h.of_cons
      have hpush := hsettled.push_word (placeholder_ne_nil p.literals.size)
        fun _ hc => isPlain_of_mem_placeholder hc
      rw [← hliterals] at hrest hpush
      have hsize : (q.pushLiteral item).literals.size =
          q.literals.size + 1 := by
        simp [Progress.pushLiteral]
      rw [← hsize] at hrest
      rw [h.run_item hsettled]
      exact ih hrest hpush (Progress.Spent.drop hspent)

/-! ## The output read again -/

theorem Script.RegexLiteral.solid {literal : Text} (h : RegexLiteral literal) :
    Solid literal := by
  cases h with
  | @mk body flags hbody hflags _ _ =>
      rcases List.eq_nil_or_concat' flags with rfl | ⟨flags, c, rfl⟩
      · exact .of_ends (by decide) (by decide) body
      · have hc : isBlank c = false :=
          (isPlain_iff.mp (isPlain_of_isFlagChar (hflags c (by simp)))).1
        have hends := Solid.of_ends (q := '/') (by decide) hc
          (body ++ '/' :: flags)
        rwa [List.append_assoc, List.cons_append] at hends

theorem Script.Lexed.regexLiteral {r : Text} {n : Nat} {w : Woven Text}
    (h : Lexed r n w) :
    ∀ item ∈ w.items, item.head? = some '/' → RegexLiteral item := by
  induction w generalizing r n with
  | last gap => simp [Woven.items]
  | cons gap item rest ih =>
      rw [Woven.items, List.forall_mem_cons]
      exact ⟨fun hslash => (h.1 hslash).1, ih h.2⟩

/-- **Minifying makes a comment exactly at a seam.** Take a script whose gaps
hold no openings of placeholders and whose strings and templates are closed.
Let every slash in its code be one that divides, and no regular expression stand
behind two loose signs. Then the output holds a comment exactly if a slash of
its code has come to stand in front of another one, or of a star with the end of
a block comment behind it. -/
theorem comments_minify_iff {source : Text}
    (hgaps : ∀ gap ∈ (weave .lexical source).gaps, HasNoOpening gap)
    (hclosed : ∀ item ∈ (weave .lexical source).items,
      item.head? = some '/' ∨ ClosedLiteral item)
    (hdivides : ∀ pre, pre ++ ['/'] <+: (tokenize source).code →
      regexAllowed pre = false)
    (hsigns : ∀ x ∈ (weave .lexical source).gaps.zip
      (weave .lexical source).items,
      x.2.head? = some '/' → looseSign x.1.reverse = false) :
    (tokenize (minify .lexical source)).comments = 0 ↔
      (weave .lexical source).tidy.NoSeams := by
  have hlexed : Lexed [] 0 (weave .lexical source) := lexed_weave {} source
  have hcode : (tokenize source).code = (weave .lexical source).masked 0 :=
    text_prepare .lexical source
  have hreadable : Readable [] 0 (weave .lexical source) := by
    refine ⟨hlexed,
      gaps_weaveRegions (Progress.regions_shaped {} source) none, hclosed, ?_,
      hsigns, rfl⟩
    intro pre hpre
    rw [List.append_nil]
    exact hdivides pre (hcode ▸ hpre)
  have hsolid : ∀ item ∈ (weave .lexical source).items, Solid item := by
    intro item hitem
    rcases hclosed item hitem with hslash | hitem
    · exact (hlexed.regexLiteral item hitem hslash).solid
    · exact hitem.solid
  have houtput : minify .lexical source =
      (weave .lexical source).tidy.text := by
    rw [minify_of_masked (text_prepare .lexical source)
      (literals_prepare .lexical source) hgaps, Woven.text_tidy hsolid]
  rw [houtput, Woven.tidy_eq_tightenFrom]
  exact comments_run_tightenFrom (p := {}) hreadable Sync.start
    fun hunclosed => absurd hunclosed (by decide)

/-- Divisions, a comment, and literals that hold marks of comments. -/
def ratioSource : Text :=
  "n = s.split( /[/*]+/g ) / 2 ; // half\nm = a / b + ' // '".toList

theorem comments_minify_iff_ratioSource :
    (∀ gap ∈ (weave .lexical ratioSource).gaps, HasNoOpening gap) ∧
    minify .lexical ratioSource =
      "n=s.split(/[/*]+/g)/2;m=a/b+' // '".toList ∧
    (tokenize (minify .lexical ratioSource)).comments = 0 := by
  have hgaps : ∀ gap ∈ (weave .lexical ratioSource).gaps,
      HasNoOpening gap := by decide +kernel
  have hclosed : ∀ item ∈ (weave .lexical ratioSource).items,
      item.head? = some '/' ∨ ClosedLiteral item := by
    have hitems : (weave .lexical ratioSource).items =
        ["/[/*]+/g".toList, "' // '".toList] := by decide +kernel
    rw [hitems, List.forall_mem_cons, List.forall_mem_singleton]
    have hbody : Inside ['\'', '\n'] " // ".toList :=
      inside_of_forall (by simp)
    exact ⟨Or.inl rfl, Or.inr (.string (Or.inl rfl) hbody)⟩
  have hdivides : ∀ pre, pre ++ ['/'] <+: (tokenize ratioSource).code →
      regexAllowed pre = false := by
    have hall : ∀ pre ∈ (tokenize ratioSource).code.inits,
        pre ++ ['/'] <+: (tokenize ratioSource).code →
        regexAllowed pre = false := by decide +kernel
    intro pre hpre
    have hmem := (List.prefix_append pre ['/']).trans hpre
    exact hall pre ((List.mem_inits _ _).mpr hmem) hpre
  have hsigns : ∀ x ∈ (weave .lexical ratioSource).gaps.zip
      (weave .lexical ratioSource).items,
      x.2.head? = some '/' → looseSign x.1.reverse = false := by
    decide +kernel
  refine ⟨hgaps, by decide +kernel, ?_⟩
  exact (comments_minify_iff hgaps hclosed hdivides hsigns).mpr
    (by decide +kernel)

/-- Dividing by a regular expression makes the rest of the line a comment. -/
theorem comments_minify_dividedRegex :
    (tokenize "a / /b/".toList).comments = 0 ∧
    minify .lexical "a / /b/".toList = "a//b/".toList ∧
    (tokenize (minify .lexical "a / /b/".toList)).comments = 1 := by
  decide +kernel

end ScriptMinifier
