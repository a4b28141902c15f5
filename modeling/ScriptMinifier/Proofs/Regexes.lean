import ScriptMinifier.Proofs.Classes
import ScriptMinifier.Proofs.Relexing
import ScriptMinifier.Proofs.Runs

/-!
# Where regular expressions stand

A slash opens a regular expression by what is in front of it, and the flags
behind the closing slash go on as far as they can. So every regular expression
of a script stands where one may stand, and no flag comes behind it, not even
when a comment in between is dropped. `Lexed` says this of the gaps and literals
of a script.
-/

namespace ScriptMinifier.Script

/-! ## Regular expressions as literals -/

/-- A regular expression with its flags. What is behind the first slash does not
make it the mark of a comment. -/
inductive RegexLiteral : Text → Prop
  | mk {body flags : Text} (hbody : RegexBody false body)
      (hflags : ∀ c ∈ flags, isFlagChar c = true)
      (hslash : (body ++ ['/']).head? ≠ some '/')
      (hstar : (body ++ ['/']).head? ≠ some '*') :
      RegexLiteral ('/' :: (body ++ '/' :: flags))

theorem head?_append_slash (body s : Text) :
    (body ++ '/' :: s).head? = (body ++ ['/']).head? := by
  cases body <;> rfl

/-- A regular expression is read back as a whole if one may stand here and no
flag follows it. -/
theorem RegexLiteral.run_eq {literal : Text} (h : RegexLiteral literal)
    {p : Progress} (hopens : slashOpensRegex p.recent = true) {s : Text}
    (hs : s.head?.any isFlagChar = false) :
    p.run 0 (literal ++ s) = (p.pushLiteral literal).run 0 s := by
  cases h with
  | @mk body flags hbody hflags hslash hstar =>
      rw [List.cons_append]
      apply p.run_literal
      have hlen := regexLength?_append hbody hflags hs
      rw [← List.cons_append, ← List.append_assoc] at hlen
      have hhead : (body ++ '/' :: flags ++ s).head? =
          (body ++ ['/']).head? := by
        rw [List.append_assoc, List.cons_append, head?_append_slash]
      have hbegins : Begins p.recent p.unclosed '/' (body ++ '/' :: flags ++ s)
          ⟨.literal, body.length + (flags.length + 1) + 1, p.unclosed⟩ :=
        .regex (by rwa [hhead]) (by rwa [hhead]) hopens hlen
      rw [Progress.piece, hbegins.nextPiece_eq]
      simp

/-! ## The gaps and literals ahead -/

namespace Progress

variable {p : Progress} {c : Char} {cs : Text}

/-- The gaps and literals of the rest of a script. -/
def weave (p : Progress) (s : Text) : Woven Text :=
  weaveRegions p.recent.head? (p.regions s)

theorem weave_nil (p : Progress) : p.weave [] = .last [] := by
  rw [weave, regions]
  rfl

theorem recent_next_code (h : (p.piece c cs).kind = .code) :
    (p.next c cs).recent = (p.region c cs).text.reverse ++ p.recent := by
  simp [next, absorb, h, region]

theorem recent_next_literal (h : (p.piece c cs).kind = .literal) :
    (p.next c cs).recent =
      (placeholder p.literals.size).reverse ++ p.recent := by
  simp [next, absorb, h]

theorem recent_next_comment (h : (p.piece c cs).kind = .comment) :
    (p.next c cs).recent = (commentTrace (p.region c cs).text p.recent.head?
      (p.rest c cs).head?).reverse ++ p.recent := by
  simp [next, absorb, h, region, rest, reverse_commentTrace]

/-- Only a literal goes to the table. -/
theorem literals_next (h : (p.piece c cs).kind ≠ .literal) :
    (p.next c cs).literals = p.literals := by
  unfold next absorb
  cases hkind : (p.piece c cs).kind with
  | code => rfl
  | literal => exact absurd hkind h
  | comment => rfl

theorem size_literals_next (h : (p.piece c cs).kind = .literal) :
    (p.next c cs).literals.size = p.literals.size + 1 := by
  simp [next, absorb, h]

/-- Code lengthens the first gap. -/
theorem weave_code (h : (p.piece c cs).kind = .code) : p.weave (c :: cs) =
    ((p.next c cs).weave (p.rest c cs)).prepend (p.region c cs).text := by
  have hkind : (p.region c cs).kind = .code := h
  have hhead : (p.next c cs).recent.head? = (p.region c cs).text.getLast? := by
    rw [recent_next_code h, List.head?_append, List.head?_reverse]
    exact Option.or_of_isSome (by simpa using (p.region c cs).nonempty)
  rw [weave, weave, regions, weaveRegions, hkind, hhead]

/-- A literal ends the first gap. -/
theorem weave_literal (h : (p.piece c cs).kind = .literal) :
    p.weave (c :: cs) = .cons [] (p.region c cs).text
      ((p.next c cs).weave (p.rest c cs)) := by
  have hkind : (p.region c cs).kind = .literal := h
  have hhead : (p.next c cs).recent.head? = placeholderClosing.getLast? := by
    rw [recent_next_literal h, head?_reverse_placeholder,
      placeholderClosing_eq]
    rfl
  rw [weave, weave, regions, weaveRegions, hkind, hhead]

/-- A comment counts for what it leaves. -/
theorem weave_comment (h : (p.piece c cs).kind = .comment) :
    p.weave (c :: cs) = ((p.next c cs).weave (p.rest c cs)).prepend
      (commentTrace (p.region c cs).text p.recent.head?
        (p.rest c cs).head?) := by
  have hkind : (p.region c cs).kind = .comment := h
  have hhead : (p.next c cs).recent.head? =
      (commentTrace (p.region c cs).text p.recent.head?
        (p.rest c cs).head?).getLast?.or p.recent.head? := by
    rw [recent_next_comment h, List.head?_append, List.head?_reverse]
  rw [weave, weave, regions, weaveRegions, hkind, joined_regions, hhead]

theorem exists_region_eq_cons (p : Progress) (c : Char) (cs : Text) :
    ∃ t, (p.region c cs).text = c :: t := by
  obtain ⟨d, t, ht⟩ := List.exists_cons_of_ne_nil (p.region c cs).nonempty
  have hcs := p.region_append_rest c cs
  rw [ht, List.cons_append, List.cons.injEq] at hcs
  exact ⟨t, by rw [ht, hcs.1]⟩

/-- No flag comes to stand behind an identifier character: a comment between the
two leaves a space. -/
theorem first_weave {s : Text} (hp : p.recent.head?.any isIdentifierChar = true)
    (hs : s.head?.any isFlagChar = false) :
    (p.weave s).first.head?.any isFlagChar = false := by
  fun_induction Progress.regions p s with
  | case1 p =>
      rw [weave_nil]
      rfl
  | case2 p c cs ih =>
      cases hkind : (p.piece c cs).kind with
      | code =>
          obtain ⟨t, ht⟩ := p.exists_region_eq_cons c cs
          rw [weave_code hkind, Woven.first_prepend, ht]
          exact hs
      | literal =>
          rw [weave_literal hkind]
          rfl
      | comment =>
          have hrecent := recent_next_comment hkind
          rw [weave_comment hkind, Woven.first_prepend]
          rcases commentTrace_cases (p.region c cs).text hp
            (p.rest c cs).head? with ⟨htrace, hafter⟩ | ⟨d, htrace, hd⟩
          · rw [htrace] at hrecent ⊢
            exact ih (hrecent ▸ hp) (any_isFlagChar_eq_false hafter)
          · rw [htrace]
            exact any_isFlagChar_eq_false (o := some d)
              (not_isIdentifierChar_of_isBlank hd)

end Progress

/-! ## Regular expressions among the gaps -/

/-- Regular expressions stand where they may, and no flag is behind them. The
code in front is `r`, last character first, with `n` literals so far. -/
def Lexed (r : Text) (n : Nat) : Woven Text → Prop
  | .last _ => True
  | .cons gap item rest =>
      (item.head? = some '/' → RegexLiteral item ∧
        slashOpensRegex (gap.reverse ++ r) = true ∧
        rest.first.head?.any isFlagChar = false) ∧
      Lexed ((placeholder n).reverse ++ (gap.reverse ++ r)) (n + 1) rest

theorem Lexed.prepend {r s : Text} {n : Nat} {w : Woven Text}
    (h : Lexed (s.reverse ++ r) n w) : Lexed r n (w.prepend s) := by
  cases w with
  | last gap => trivial
  | cons gap item rest =>
      rw [Woven.prepend, Lexed, List.reverse_append, List.append_assoc]
      exact h

theorem Progress.regexLiteral_region {p : Progress} {c : Char} {cs : Text}
    (h : (p.piece c cs).kind = .literal)
    (hslash : (p.region c cs).text.head? = some '/') :
    RegexLiteral (p.region c cs).text ∧ slashOpensRegex p.recent = true ∧
      (p.rest c cs).head?.any isFlagChar = false := by
  have hbegins := p.begins c cs
  have htext : (p.region c cs).text = (c :: cs).take (p.piece c cs).length :=
    rfl
  rw [htext] at hslash ⊢
  unfold Progress.rest
  generalize p.piece c cs = piece at h hslash hbegins
  cases hbegins with
  | string hq =>
      obtain rfl : c = '/' := by simpa using hslash
      exact absurd hq (by decide)
  | template => simp at hslash
  | @regex cs n hcs hcs' hallowed hn =>
      obtain ⟨body, flags, rest, rfl, hbody, hflags, hrest, rfl⟩ :=
        eq_of_regexLength?_eq_some hn
      have htext : ('/' :: (body ++ '/' :: (flags ++ rest))) =
          '/' :: (body ++ '/' :: flags) ++ rest := by simp
      have hlen : body.length + (flags.length + 1) + 1 =
          ('/' :: (body ++ '/' :: flags)).length := by simp
      rw [head?_append_slash] at hcs hcs'
      simp only [htext, hlen, List.take_left, List.drop_left]
      exact ⟨.mk hbody hflags hcs hcs', hallowed, hrest⟩
  | _ => simp at h

theorem lexed_weave (p : Progress) (s : Text) :
    Lexed p.recent p.literals.size (p.weave s) := by
  fun_induction Progress.regions p s with
  | case1 p =>
      rw [Progress.weave_nil]
      trivial
  | case2 p c cs ih =>
      cases hkind : (p.piece c cs).kind with
      | code =>
          rw [Progress.weave_code hkind]
          apply Lexed.prepend
          rwa [Progress.literals_next (by simp [hkind]),
            Progress.recent_next_code hkind] at ih
      | literal =>
          rw [Progress.weave_literal hkind]
          refine ⟨fun hslash => ?_, ?_⟩
          · obtain ⟨hregex, hallowed, hrest⟩ :=
              Progress.regexLiteral_region hkind hslash
            refine ⟨hregex, hallowed, Progress.first_weave ?_ hrest⟩
            rw [Progress.recent_next_literal hkind, head?_reverse_placeholder]
            decide +kernel
          · rwa [Progress.recent_next_literal hkind,
              Progress.size_literals_next hkind] at ih
      | comment =>
          rw [Progress.weave_comment hkind]
          apply Lexed.prepend
          rwa [Progress.literals_next (by simp [hkind]),
            Progress.recent_next_comment hkind] at ih

end ScriptMinifier.Script
