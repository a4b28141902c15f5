import Mathlib.Data.List.Infix
import ScriptMinifier.Script.Tokens

/-!
# What a piece of a script can be

The scans measure lengths. Here the lengths become shapes: a block comment is
the text up to the first `*/`, a line comment the text up to the end of the
line, and a regular expression a body within one line, a slash and flags.
`Begins` then lists once and for all how the next piece of a script can come
about, so that later proofs go through its cases and never through the
definition.
-/

namespace ScriptMinifier.Script

/-- The mark that opens a line comment. -/
def lineMark : Text := ['/', '/']

/-- The mark that opens a block comment. -/
def openMark : Text := ['/', '*']

/-- The mark that closes a block comment. -/
def closeMark : Text := ['*', '/']

/-! ## Two characters in a row -/

theorem pair_isPrefix_iff {a b : Char} {s : Text} :
    [a, b] <+: s ↔ s.head? = some a ∧ s.tail.head? = some b := by
  rcases s with _ | ⟨c, _ | ⟨d, s⟩⟩
  · simp
  · simp
  · simp [List.cons_prefix_cons, eq_comm]

theorem pair_isInfix_cons_iff {a b c : Char} {s : Text} :
    [a, b] <:+: c :: s ↔ (c = a ∧ s.head? = some b) ∨ [a, b] <:+: s := by
  rw [List.infix_cons_iff, pair_isPrefix_iff]
  simp

/-- A pair in a text made of two parts lies in one of them or across. -/
theorem pair_isInfix_append_iff {a b : Char} {s t : Text} :
    [a, b] <:+: s ++ t ↔ [a, b] <:+: s ∨ [a, b] <:+: t ∨
      (s.getLast? = some a ∧ t.head? = some b) := by
  induction s with
  | nil => simp
  | cons c s ih =>
      rw [List.cons_append, pair_isInfix_cons_iff, ih, pair_isInfix_cons_iff]
      cases s with
      | nil =>
          simp only [List.nil_append, List.head?_nil, List.getLast?_nil,
            List.getLast?_singleton, Option.some.injEq, reduceCtorEq,
            and_false, false_and, or_false, false_or]
          tauto
      | cons d s =>
          rw [List.getLast?_cons_cons]
          simp only [List.cons_append, List.head?_cons]
          tauto

theorem not_pair_isInfix_of_not_mem {a b : Char} {s : Text} (h : a ∉ s) :
    ¬ [a, b] <:+: s :=
  fun hin => h (hin.subset List.mem_cons_self)

/-! ## The end of a block comment -/

theorem blockCommentLength?_append {body : Text} (rest : Text)
    (h : ¬ closeMark <:+: body) :
    blockCommentLength? (body ++ (closeMark ++ rest)) =
      some (body.length + 2) := by
  induction body with
  | nil => simp [blockCommentLength?, closeMark]
  | cons c body ih =>
      rw [closeMark, pair_isInfix_cons_iff, not_or] at h
      have hstop : ¬ (c = '*' ∧
          (body ++ (closeMark ++ rest)).head? = some '/') := by
        rintro ⟨rfl, hhead⟩
        cases body with
        | nil => simp [closeMark] at hhead
        | cons d body => exact h.1 ⟨rfl, by simpa using hhead⟩
      rw [List.cons_append, blockCommentLength?, if_neg hstop, ih h.2]
      simp

theorem blockCommentLength?_eq_none {s : Text} :
    blockCommentLength? s = none ↔ ¬ closeMark <:+: s := by
  induction s with
  | nil => simp [blockCommentLength?, closeMark]
  | cons c s ih =>
      rw [blockCommentLength?, closeMark, pair_isInfix_cons_iff, not_or]
      split
      · next h => simp [h]
      · next h =>
          rw [Option.map_eq_none_iff, ih]
          exact ⟨fun hs => ⟨h, hs⟩, And.right⟩

theorem eq_of_blockCommentLength?_eq_some {s : Text} {n : Nat}
    (h : blockCommentLength? s = some n) : ∃ body rest,
      s = body ++ (closeMark ++ rest) ∧ ¬ closeMark <:+: body ∧
      n = body.length + 2 := by
  induction s generalizing n with
  | nil => simp [blockCommentLength?] at h
  | cons c s ih =>
      rw [blockCommentLength?] at h
      split at h
      · next hstop =>
          obtain ⟨rfl, hhead⟩ := hstop
          obtain ⟨s, rfl⟩ : ∃ t, s = '/' :: t := by
            cases s with
            | nil => simp at hhead
            | cons d t => exact ⟨t, by simpa using hhead⟩
          exact ⟨[], s, rfl, by simp [closeMark], by simpa using h.symm⟩
      · next hstop =>
          obtain ⟨m, hm, rfl⟩ := Option.map_eq_some_iff.mp h
          obtain ⟨body, rest, rfl, hbody, rfl⟩ := ih hm
          refine ⟨c :: body, rest, rfl, ?_, by simp⟩
          rw [closeMark, pair_isInfix_cons_iff, not_or]
          refine ⟨?_, hbody⟩
          rintro ⟨rfl, hhead⟩
          apply hstop
          cases body with
          | nil => simp at hhead
          | cons d body => exact ⟨rfl, by simpa using hhead⟩

/-! ## The end of a line comment -/

/-- The text ends here, or its line does. -/
def EndsLine (s : Text) : Prop := s = [] ∨ s.head? = some '\n'

instance (s : Text) : Decidable (EndsLine s) :=
  inferInstanceAs (Decidable (s = [] ∨ s.head? = some '\n'))

/-- Every text is the rest of a line and what is behind it. -/
theorem exists_line (s : Text) :
    ∃ body rest, s = body ++ rest ∧ '\n' ∉ body ∧ EndsLine rest := by
  induction s with
  | nil => exact ⟨[], [], rfl, by simp, Or.inl rfl⟩
  | cons c s ih =>
      by_cases hc : c = '\n'
      · exact ⟨[], c :: s, rfl, by simp, Or.inr (by rw [hc]; rfl)⟩
      · obtain ⟨body, rest, rfl, hbody, hrest⟩ := ih
        refine ⟨c :: body, rest, rfl, ?_, hrest⟩
        rw [List.mem_cons, not_or]
        exact ⟨fun h => hc h.symm, hbody⟩

theorem lineCommentLength_append {body s : Text} (hbody : '\n' ∉ body)
    (hs : EndsLine s) : lineCommentLength (body ++ s) = body.length := by
  have hall : ∀ c ∈ body, (c != '\n') = true := by
    intro c hc
    simpa using fun (h : c = '\n') => hbody (h ▸ hc)
  have hstop : s.takeWhile (· != '\n') = [] := by
    rcases hs with rfl | hs
    · rfl
    · cases s with
      | nil => rfl
      | cons d s =>
          have hd : d = '\n' := by simpa using hs
          simp [hd]
  rw [lineCommentLength, List.takeWhile_append_of_pos hall, hstop,
    List.append_nil]

/-! ## The end of a regular expression -/

/-- The inside of a regular expression, up to the slash that closes it. Where
it begins, `inClass` tells whether a bracket is open. -/
inductive RegexBody : Bool → Text → Prop
  | nil : RegexBody false []
  | escape {inClass : Bool} {e : Char} {s : Text}
      (he : isLineBreak e = false) (hs : RegexBody inClass s) :
      RegexBody inClass ('\\' :: e :: s)
  | plain {inClass : Bool} {c : Char} {s : Text} (hc : c ≠ '\\')
      (hline : isLineBreak c = false) (hopen : ¬ (c = '/' ∧ inClass = false))
      (hs : RegexBody (c = '[' || inClass && c != ']') s) :
      RegexBody inClass (c :: s)

theorem RegexBody.not_isLineBreak {inClass : Bool} {body : Text}
    (h : RegexBody inClass body) : ∀ c ∈ body, isLineBreak c = false := by
  induction h with
  | nil => simp
  | escape he _ ih => simpa [he] using ⟨by decide, ih⟩
  | plain _ hline _ _ ih => simpa [hline] using ih

theorem regexLength?_append {inClass : Bool} {body flags rest : Text}
    (hbody : RegexBody inClass body)
    (hflags : ∀ c ∈ flags, isFlagChar c = true)
    (hrest : rest.head?.any isFlagChar = false) :
    regexLength? inClass (body ++ '/' :: (flags ++ rest)) =
      some (body.length + (flags.length + 1)) := by
  induction hbody with
  | nil =>
      rw [List.nil_append, regexLength?.eq_def]
      simp [isLineBreak, Text.takeWhile_append_eq hflags hrest]
  | escape he _ ih =>
      simp only [List.cons_append, regexLength?, if_true, he,
        Bool.false_eq_true, if_false, ih, Option.map_some, List.length_cons,
        Option.some.injEq]
      omega
  | plain hc hline hopen _ ih =>
      rw [List.cons_append, regexLength?.eq_def]
      simp only [if_neg hc, hline, Bool.false_eq_true, if_false, if_neg hopen,
        ih, Option.map_some, List.length_cons, Option.some.injEq]
      omega

theorem eq_of_regexLength?_eq_some {inClass : Bool} {s : Text} {n : Nat}
    (h : regexLength? inClass s = some n) : ∃ body flags rest,
      s = body ++ '/' :: (flags ++ rest) ∧ RegexBody inClass body ∧
      (∀ c ∈ flags, isFlagChar c = true) ∧
      rest.head?.any isFlagChar = false ∧
      n = body.length + (flags.length + 1) := by
  fun_induction regexLength? inClass s generalizing n with
  | case1 => simp at h
  | case2 => simp at h
  | case3 => simp at h
  | case4 inClass e s he ih =>
      obtain ⟨m, hm, rfl⟩ := Option.map_eq_some_iff.mp h
      obtain ⟨body, flags, rest, rfl, hbody, hflags, hrest, rfl⟩ := ih hm
      exact ⟨'\\' :: e :: body, flags, rest, rfl,
        .escape (Bool.eq_false_iff.mpr he) hbody, hflags, hrest,
        by simp only [List.length_cons]; omega⟩
  | case5 => simp at h
  | case6 inClass c s hc hline hclose =>
      obtain ⟨rfl, rfl⟩ := hclose
      refine ⟨[], s.takeWhile isFlagChar, s.dropWhile isFlagChar, ?_, .nil,
        List.all_eq_true.mp List.all_takeWhile, ?_, ?_⟩
      · simp
      · exact Text.any_head?_dropWhile isFlagChar s
      · simpa using h.symm
  | case7 inClass c s hc hline hopen ih =>
      obtain ⟨m, hm, rfl⟩ := Option.map_eq_some_iff.mp h
      obtain ⟨body, flags, rest, rfl, hbody, hflags, hrest, rfl⟩ := ih hm
      exact ⟨c :: body, flags, rest, rfl,
        .plain hc (Bool.eq_false_iff.mpr hline) hopen hbody, hflags, hrest,
        by simp only [List.length_cons]; omega⟩

/-! ## The next piece -/

/-- The piece that begins with `c` and goes on in `cs`, by cases. -/
inductive Begins (recent : Text) (unclosed : Bool) :
    Char → Text → Piece → Prop
  | string {q : Char} {cs : Text} (hq : q = '\'' ∨ q = '"') :
      Begins recent unclosed q cs ⟨.literal, stringLength q cs + 1, unclosed⟩
  | template {cs : Text} :
      Begins recent unclosed '`' cs ⟨.literal, templateLength cs + 1, unclosed⟩
  | line {cs : Text} : Begins recent unclosed '/' ('/' :: cs)
      ⟨.comment, lineCommentLength cs + 2, unclosed⟩
  | block {cs : Text} {n : Nat} (hsearch : unclosed = false)
      (hn : blockCommentLength? cs = some n) :
      Begins recent unclosed '/' ('*' :: cs) ⟨.comment, n + 2, unclosed⟩
  | opener {cs : Text}
      (hnone : unclosed = true ∨ blockCommentLength? cs = none) :
      Begins recent unclosed '/' ('*' :: cs) ⟨.code, 2, true⟩
  | regex {cs : Text} {n : Nat} (hcs : cs.head? ≠ some '/')
      (hcs' : cs.head? ≠ some '*') (hallowed : slashOpensRegex recent = true)
      (hn : regexLength? false cs = some n) :
      Begins recent unclosed '/' cs ⟨.literal, n + 1, unclosed⟩
  | slash {cs : Text} (hcs : cs.head? ≠ some '/') (hcs' : cs.head? ≠ some '*')
      (hnone : slashOpensRegex recent = false ∨ regexLength? false cs = none) :
      Begins recent unclosed '/' cs ⟨.code, 1, unclosed⟩
  | other {c : Char} {cs : Text} (hquote : c ≠ '\'' ∧ c ≠ '"')
      (htemplate : c ≠ '`') (hslash : c ≠ '/') :
      Begins recent unclosed c cs ⟨.code, 1, unclosed⟩

theorem begins_slashPiece (recent : Text) (unclosed : Bool) (cs : Text) :
    Begins recent unclosed '/' cs (slashPiece recent unclosed cs) := by
  unfold slashPiece
  split
  · next s =>
      have hlen : lineCommentLength ('/' :: s) + 1 =
          lineCommentLength s + 2 := by
        simp [lineCommentLength]
      rw [hlen]
      exact .line
  · next inner =>
      cases hu : unclosed with
      | true => exact .opener (Or.inl rfl)
      | false =>
          simp only [Bool.false_eq_true, if_false]
          cases hn : blockCommentLength? inner with
          | none => exact .opener (Or.inr hn)
          | some n => exact .block rfl hn
  · next hline hblock =>
      have hcs : cs.head? ≠ some '/' := by
        cases cs with
        | nil => simp
        | cons d cs => exact fun h => hline cs (by simpa using h)
      have hcs' : cs.head? ≠ some '*' := by
        cases cs with
        | nil => simp
        | cons d cs => exact fun h => hblock cs (by simpa using h)
      cases hallowed : slashOpensRegex recent with
      | false => exact .slash hcs hcs' (Or.inl hallowed)
      | true =>
          simp only [if_true]
          cases hn : regexLength? false cs with
          | none => exact .slash hcs hcs' (Or.inr hn)
          | some n => exact .regex hcs hcs' hallowed hn

theorem begins_nextPiece (recent : Text) (unclosed : Bool) (c : Char)
    (cs : Text) : Begins recent unclosed c cs
      (nextPiece recent unclosed c cs) := by
  unfold nextPiece
  split
  · next hq => exact .string hq
  · next hq =>
      split
      · next ht => exact ht ▸ .template
      · next ht =>
          split
          · next hs => exact hs ▸ begins_slashPiece recent unclosed cs
          · next hs => exact .other (not_or.mp hq) ht hs

theorem Begins.nextPiece_eq {recent : Text} {unclosed : Bool} {c : Char}
    {cs : Text} {piece : Piece} (h : Begins recent unclosed c cs piece) :
    nextPiece recent unclosed c cs = piece := by
  cases h with
  | string hq => rw [nextPiece, if_pos hq]
  | template => rfl
  | line => simp [nextPiece, slashPiece, lineCommentLength]
  | block hsearch hn => simp [nextPiece, slashPiece, hsearch, hn]
  | opener hnone =>
      rcases hnone with hnone | hnone <;> simp [nextPiece, slashPiece, hnone]
  | regex hcs hcs' hallowed hn =>
      show slashPiece recent unclosed cs = _
      unfold slashPiece
      split
      · simp at hcs
      · simp at hcs'
      · rw [if_pos hallowed, hn]
  | slash hcs hcs' hnone =>
      show slashPiece recent unclosed cs = _
      unfold slashPiece
      split
      · simp at hcs
      · simp at hcs'
      · rcases hnone with hnone | hnone <;> simp [hnone]
  | other hquote htemplate hslash =>
      rw [nextPiece, if_neg (not_or.mpr hquote), if_neg htemplate,
        if_neg hslash]

theorem nextPiece_length_pos (recent : Text) (unclosed : Bool) (c : Char)
    (cs : Text) : 0 < (nextPiece recent unclosed c cs).length := by
  have h := begins_nextPiece recent unclosed c cs
  generalize nextPiece recent unclosed c cs = piece at h
  cases h <;> simp

end ScriptMinifier.Script
