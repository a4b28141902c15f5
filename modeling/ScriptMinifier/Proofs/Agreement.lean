import ScriptMinifier.Proofs.Classes
import ScriptMinifier.Proofs.Comments
import ScriptMinifier.Proofs.Pairing
import ScriptMinifier.Proofs.Relexing
import ScriptMinifier.Proofs.Trailing

/-!
# Where the two strategies agree

A simple script is a row of code, strings and comments that gives neither
strategy anything to trip over. Both then find the same strings. The code is the
same but for line feeds that comments leave behind when the script is read from
left to right: these stand in front of blanks or at the end, and compression and
trimming take them away.
-/

namespace ScriptMinifier

open Spacing Script

/-! ## Simple scripts -/

/-- What simple scripts are made of. -/
inductive Item where
  | code (text : Text)
  | string (quote : Char) (body : Text)
  | lineComment (body : Text)
  | blockComment (body : Text)
  deriving Repr, DecidableEq

/-- The characters that may stand in a simple string. -/
def isBodyChar (c : Char) : Bool :=
  !isQuote c && c != '\\' && c != '\n' && c != '/'

namespace Item

def text : Item → Text
  | code text => text
  | string quote body => quote :: (body ++ [quote])
  | lineComment body => lineMark ++ body
  | blockComment body => openMark ++ (body ++ closeMark)

/-- May the item stand in front of `after`? Code holds no quotes and slashes, a
string none within and no escapes and line feeds. A line comment is followed by
the end of its line and a block comment, which holds no `//`, by a blank. -/
def Fits (after : Text) : Item → Prop
  | code text => text.all isCodeChar = true
  | string quote body => isQuote quote = true ∧ body.all isBodyChar = true
  | lineComment body => '\n' ∉ body ∧ EndsLine after
  | blockComment body => ¬ closeMark <:+: body ∧ ¬ lineMark <:+: body ∧
      after.head?.all isBlank = true

instance (after : Text) : (item : Item) → Decidable (item.Fits after)
  | code text => inferInstanceAs (Decidable (text.all isCodeChar = true))
  | string quote body => inferInstanceAs
      (Decidable (isQuote quote = true ∧ body.all isBodyChar = true))
  | lineComment body =>
      inferInstanceAs (Decidable ('\n' ∉ body ∧ EndsLine after))
  | blockComment body => inferInstanceAs (Decidable (¬ closeMark <:+: body ∧
      ¬ lineMark <:+: body ∧ after.head?.all isBlank = true))

end Item

/-- The script that the items spell. -/
def spelled : List Item → Text
  | [] => []
  | item :: items => item.text ++ spelled items

/-- Every item fits in front of those behind it. -/
def Simple : List Item → Prop
  | [] => True
  | item :: items => item.Fits (spelled items) ∧ Simple items

instance decidableSimple : (items : List Item) → Decidable (Simple items)
  | [] => inferInstanceAs (Decidable True)
  | item :: items =>
      have := decidableSimple items
      inferInstanceAs (Decidable (item.Fits (spelled items) ∧ Simple items))

/-! ## Line feeds that make no difference -/

/-- The second text is the first with line feeds put in front of blanks, and
blanks at the end. -/
inductive Padded : Text → Text → Prop
  | trail {run : Text} (hrun : ∀ c ∈ run, isBlank c = true) : Padded [] run
  | keep {c : Char} {s t : Text} (h : Padded s t) : Padded (c :: s) (c :: t)
  | pad {b : Char} {s t : Text} (hb : isBlank b = true)
      (h : Padded (b :: s) t) : Padded (b :: s) ('\n' :: t)

theorem Padded.append {s t : Text} (h : Padded s t) :
    ∀ r : Text, Padded (r ++ s) (r ++ t)
  | [] => h
  | _ :: r => .keep (h.append r)

theorem Padded.lineFeed {s t : Text} (h : Padded s t)
    (hs : s.head?.all isBlank = true) : Padded s ('\n' :: t) := by
  cases s with
  | nil =>
      cases h with
      | trail hrun =>
          exact .trail (List.forall_mem_cons.mpr ⟨isBlank_newline, hrun⟩)
  | cons b s => exact .pad (by simpa using hs) h

/-- Padding comes to one space at the end, or to nothing. -/
theorem Padded.tighten {s t : Text} (h : Padded s t) (glued pending : Bool) :
    tighten glued pending t = tighten glued pending s ∨
      tighten glued pending t = tighten glued pending s ++ [' '] := by
  induction h generalizing glued pending with
  | @trail run hrun =>
      have htighten := tighten_blanks hrun glued pending []
      rw [List.append_nil] at htighten
      rw [htighten]
      cases pending <;> cases glued <;> cases run.isEmpty <;>
        simp [Spacing.tighten]
  | @keep c s t _ ih =>
      cases hc : isBlank c with
      | true =>
          rw [tighten_blank hc, tighten_blank hc]
          exact ih glued true
      | false =>
          rw [tighten_of_not_blank hc, tighten_of_not_blank hc]
          rcases ih (isPunctuation c) false with heq | heq
          · exact Or.inl (by rw [heq])
          · exact Or.inr (by rw [heq]; simp)
  | @pad b s t hb _ ih =>
      have hrest := ih glued true
      rw [tighten_blank hb] at hrest ⊢
      rwa [tighten_blank isBlank_newline]

theorem Padded.compress {s t : Text} (h : Padded s t) :
    compress t = compress s ∨ compress t = compress s ++ [' '] := by
  rw [compress_eq_tighten, compress_eq_tighten]
  exact h.tighten false false

/-! ## What comments leave behind -/

/-- In front of a blank, only a comment with a line feed leaves anything. -/
theorem commentTrace_of_isBlank {comment : Text} {before after : Option Char}
    (h : after.all isBlank = true) : commentTrace comment before after =
      if '\n' ∈ comment then ['\n'] else [] := by
  have hside : isIdentifierSide after = false := by
    cases after with
    | none => rfl
    | some c => exact not_isIdentifierChar_of_isBlank (by simpa using h)
  simp [commentTrace, hside]

/-! ## The two readings side by side -/

theorem countP_isQuote_of_isCodeChar {t : Text}
    (ht : ∀ c ∈ t, isCodeChar c = true) : t.countP isQuote = 0 := by
  rw [List.countP_eq_zero]
  intro c hc
  have hcode := ht c hc
  simp only [isCodeChar, Bool.and_eq_true, bne_iff_ne, ne_eq] at hcode
  simp [isQuote, hcode.1.1.1, hcode.1.1.2]

theorem not_slash_of_isCodeChar {t : Text}
    (ht : ∀ c ∈ t, isCodeChar c = true) : '/' ∉ t :=
  fun hmem => absurd (ht _ hmem) (by decide)

/-- A blank at the start of a text is still there in the reading by patterns. -/
theorem head?_masked_strip {s : Text} (hs : s.head?.all isBlank = true)
    (n : Nat) : ((weaveQuoted (Comment.strip s)).masked n).head?.all isBlank =
      true := by
  cases s with
  | nil =>
      rw [show Comment.strip [] = [] from rfl, weaveQuoted]
      rfl
  | cons b s =>
      have hb : isBlank b = true := by simpa using hs
      have hslash : '/' ∉ [b] := by
        rw [List.mem_singleton]
        rintro rfl
        exact absurd hb (by decide)
      have hquote : [b].countP isQuote = 0 := by
        rw [List.countP_eq_zero, List.forall_mem_singleton]
        intro hq
        rw [not_isBlank_of_isQuote hq] at hb
        exact Bool.noConfusion hb
      rw [← List.singleton_append, Comment.strip_append hslash,
        weaveQuoted_append hquote, Woven.masked_prepend]
      simpa using hb

/-- Reading `s` from left to right gives the literals that the patterns find in
it, and their code up to padding. -/
def ReadAlike (p : Progress) (s : Text) : Prop :=
  ∃ code,
    Padded ((weaveQuoted (Comment.strip s)).masked p.literals.size) code ∧
    (p.run 0 s).recent.reverse = p.recent.reverse ++ code ∧
    (p.run 0 s).literals.toList =
      p.literals.toList ++ (weaveQuoted (Comment.strip s)).items

theorem weaveQuoted_strip_nil : weaveQuoted (Comment.strip []) = .last [] := by
  rw [show Comment.strip [] = [] from rfl, weaveQuoted]

theorem readAlike_nil (p : Progress) : ReadAlike p [] := by
  refine ⟨[], ?_⟩
  rw [weaveQuoted_strip_nil]
  exact ⟨.trail (by simp), by simp [Progress.run],
    by simp [Progress.run, Woven.items]⟩

theorem ReadAlike.code {p : Progress} {t s : Text}
    (ht : ∀ c ∈ t, isCodeChar c = true) (h : ReadAlike (p.pushCode t) s) :
    ReadAlike p (t ++ s) := by
  obtain ⟨code, hpadded, hrecent, hliterals⟩ := h
  refine ⟨t ++ code, ?_⟩
  rw [Comment.strip_append (not_slash_of_isCodeChar ht),
    weaveQuoted_append (countP_isQuote_of_isCodeChar ht),
    Woven.masked_prepend, Woven.items_prepend, p.run_code ht, hrecent,
    hliterals]
  exact ⟨hpadded.append t, by simp [Progress.pushCode], rfl⟩

theorem ReadAlike.literal {p : Progress} {literal s : Text}
    (hclosed : ClosedLiteral literal) (hquoted : QuotedLiteral literal)
    (hslash : '/' ∉ literal) (h : ReadAlike (p.pushLiteral literal) s) :
    ReadAlike p (literal ++ s) := by
  obtain ⟨code, hpadded, hrecent, hliterals⟩ := h
  refine ⟨placeholder p.literals.size ++ code, ?_⟩
  rw [Comment.strip_append hslash, weaveQuoted_literal hquoted,
    Woven.masked_cons, List.nil_append, Progress.run_closed hclosed, hrecent,
    hliterals]
  simp only [Progress.pushLiteral, LiteralTable.size_push] at hpadded
  exact ⟨hpadded.append _, by simp [Progress.pushLiteral],
    by simp [Progress.pushLiteral, Woven.items]⟩

theorem ReadAlike.string {p : Progress} {quote : Char} {body s : Text}
    (hquote : isQuote quote = true)
    (hbody : body.all isBodyChar = true)
    (h : ReadAlike (p.pushLiteral (quote :: (body ++ [quote]))) s) :
    ReadAlike p (quote :: (body ++ [quote]) ++ s) := by
  have hq : quote = '\'' ∨ quote = '"' := (isQuote_iff.mp hquote).symm
  simp only [List.all_eq_true, isBodyChar, Bool.and_eq_true, bne_iff_ne,
    Bool.not_eq_true', and_assoc] at hbody
  have hinside : Inside [quote, '\n'] body := by
    refine inside_of_forall fun c hc => ?_
    obtain ⟨hplain, hescape, hline, -⟩ := hbody c hc
    have hne : c ≠ quote := fun heq => by simp [heq, hquote] at hplain
    exact ⟨hescape, by simp [hne, hline]⟩
  have hcount : body.countP isQuote = 0 :=
    List.countP_eq_zero.mpr fun c hc => by simp [(hbody c hc).1]
  have hslash : '/' ∉ quote :: (body ++ [quote]) := by
    have hne : '/' ≠ quote := by rcases hq with rfl | rfl <;> decide
    have hmem : '/' ∉ body := fun hmem => (hbody _ hmem).2.2.2 rfl
    simp [hne, hmem]
  exact h.literal (.string hq hinside) (.mk hquote hcount hquote) hslash

/-- A comment in front of a blank leaves a line feed at most. -/
theorem ReadAlike.comment {p : Progress} {comment s : Text}
    (hs : s.head?.all isBlank = true)
    (hstrip : Comment.strip (comment ++ s) = Comment.strip s)
    (hrun : p.run 0 (comment ++ s) = (p.pushComment
      (commentTrace comment p.recent.head? s.head?)).run 0 s)
    (h : ∀ trace, ReadAlike (p.pushComment trace) s) :
    ReadAlike p (comment ++ s) := by
  rw [commentTrace_of_isBlank hs] at hrun
  obtain ⟨code, hpadded, hrecent, hliterals⟩ :=
    h (if '\n' ∈ comment then ['\n'] else [])
  refine ⟨(if '\n' ∈ comment then ['\n'] else []) ++ code, ?_⟩
  rw [hstrip, hrun, hrecent, hliterals]
  refine ⟨?_, ?_, rfl⟩
  · split
    · exact hpadded.lineFeed (head?_masked_strip hs _)
    · exact hpadded
  · split <;> simp [Progress.pushComment]

/-- **One pass against three.** A simple script is read alike. -/
theorem readAlike_spelled {items : List Item} (h : Simple items) (p : Progress)
    (hp : p.unclosed = false) : ReadAlike p (spelled items) := by
  induction items generalizing p with
  | nil => exact readAlike_nil p
  | cons item items ih =>
      obtain ⟨hfits, hitems⟩ := h
      have hrest : ∀ q : Progress, q.unclosed = false →
          ReadAlike q (spelled items) := ih hitems
      cases item with
      | code text => exact .code (List.all_eq_true.mp hfits) (hrest _ hp)
      | string quote body =>
          obtain ⟨hquote, hbody⟩ := hfits
          exact .string hquote hbody (hrest _ hp)
      | lineComment body =>
          obtain ⟨hbody, hend⟩ := hfits
          have hblank : (spelled items).head?.all isBlank = true := by
            rcases hend with hnil | hhead
            · rw [hnil]
              rfl
            · rw [hhead]
              rfl
          refine .comment hblank ?_ (p.run_lineComment hbody hend)
            fun trace => hrest _ hp
          rw [Item.text, List.append_assoc]
          exact Comment.strip_lineComment hbody hend
      | blockComment body =>
          obtain ⟨hclose, hline, hblank⟩ := hfits
          have hslash : (spelled items).head? ≠ some '/' := by
            intro hhead
            rw [hhead] at hblank
            exact absurd hblank (by decide)
          refine .comment hblank ?_ (p.run_blockComment hclose _ hp)
            fun trace => hrest _ hp
          rw [Item.text, List.append_assoc, List.append_assoc]
          exact Comment.strip_blockComment hclose hline hslash

/-! ## Agreement -/

theorem prepare_spelled {items : List Item} (h : Simple items) :
    Padded (prepare .textual (spelled items)).text
      (prepare .lexical (spelled items)).text ∧
    (prepare .lexical (spelled items)).literals =
      (prepare .textual (spelled items)).literals := by
  obtain ⟨code, hpadded, hrecent, hliterals⟩ := readAlike_spelled h {} rfl
  have hcode : (prepare .lexical (spelled items)).text = code := hrecent
  have hentries : (prepare .lexical (spelled items)).literals.toList =
      (prepare .textual (spelled items)).literals.toList := by
    rw [literals_prepare .textual]
    exact hliterals
  refine ⟨?_, ?_⟩
  · rw [text_prepare .textual, hcode]
    exact hpadded
  · exact congrArg LiteralTable.mk (Array.toList_inj.mp hentries)

/-- Quotes and openers in comments, and line feeds left at the end. -/
def noisyItems : List Item :=
  [.code "let sum = ".toList, .string '"' "a  `b`".toList,
    .blockComment " it's\nmore ".toList, .code "\n+ sum ;".toList,
    .lineComment " \"sum\" /* ".toList, .code "\nsum".toList,
    .blockComment "\n".toList]

def noisyMap : RenameMap := .ofList [("sum".toList, "s".toList)]

/-- **The strategies agree** on simple scripts: whatever is renamed, they give
the same output and set the same number of literals aside. -/
theorem output_lexical_eq_textual (map : RenameMap)
    (accepts : Renamer → Bool) (items : List Item) (h : Simple items) :
    (Minifier.minify (.withRenames { strategy := .lexical } map accepts)
      (spelled items)).output =
    (Minifier.minify (.withRenames { strategy := .textual } map accepts)
      (spelled items)).output ∧
    (Minifier.minify (.withRenames { strategy := .lexical } map accepts)
      (spelled items)).prepared.literals.size =
    (Minifier.minify (.withRenames { strategy := .textual } map accepts)
      (spelled items)).prepared.literals.size := by
  obtain ⟨hpadded, hliterals⟩ := prepare_spelled h
  rw [Minifier.withRenames_eq .lexical, Minifier.withRenames_eq .textual]
  simp only [Minifier.minify, hliterals, and_true]
  rcases hpadded.compress with heq | heq
  · rw [heq]
  · rw [heq, trim_restore_apply_concat]

theorem output_lexical_eq_textual_noisyItems :
    Simple noisyItems ∧
    ((Minifier.minify (.withRenames { strategy := .lexical } noisyMap)
      (spelled noisyItems)).output =
    (Minifier.minify (.withRenames { strategy := .textual } noisyMap)
      (spelled noisyItems)).output ∧
    (Minifier.minify (.withRenames { strategy := .lexical } noisyMap)
      (spelled noisyItems)).prepared.literals.size =
    (Minifier.minify (.withRenames { strategy := .textual } noisyMap)
      (spelled noisyItems)).prepared.literals.size) ∧
    (Minifier.minify (.withRenames { strategy := .textual } noisyMap)
      (spelled noisyItems)).output = "let s=\"a  `b`\"+s;s".toList := by
  have hsimple : Simple noisyItems := by decide +kernel
  have hagree := output_lexical_eq_textual noisyMap Renamer.fitsSearch
    noisyItems hsimple
  exact ⟨hsimple, hagree, by decide +kernel⟩

end ScriptMinifier
