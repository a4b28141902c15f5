import ScriptMinifier.Proofs.Comments
import ScriptMinifier.Proofs.Leaks
import ScriptMinifier.Proofs.Regexes
import ScriptMinifier.Proofs.Touching

/-!
# Code without comments and quotes

What is left as code holds no quotes and no comments, although dropping comments
brings together what was apart. Two things carry the proof. Where the code goes
on with a slash or a star, the script does so too, or it goes on with a slash;
so a slash that was kept does not come to stand in front of another mark. And
once the opening of a block comment was kept, no `*/` is ahead in the script, so
none is ahead in the code.
-/

namespace ScriptMinifier.Script

open Spacing Comment

/-- The characters that open or close literals and comments. -/
def marks : List Char := ['\'', '"', '`', '/', '*']

theorem not_mem_marks {p : Char → Bool} (hmarks : marks.all (!p ·) = true)
    {c : Char} (hc : p c = true) : c ∉ marks := by
  intro hmem
  have hnot := List.all_eq_true.mp hmarks c hmem
  simp [hc] at hnot

namespace Progress

variable {p : Progress} {c : Char} {cs s : Text}

/-! ## The code ahead -/

/-- The code that the rest of a script leaves. -/
def ahead (p : Progress) (s : Text) : Text :=
  (p.weave s).masked p.literals.size

theorem ahead_nil : p.ahead [] = [] := by
  rw [ahead, weave_nil]
  rfl

/-- What the next region leaves in the code: its own text if it is code, or else
something without marks. Only a comment leaves nothing. -/
inductive Leaves (p : Progress) (c : Char) (cs : Text) : Text → Prop
  | code (hkind : (p.piece c cs).kind = .code) :
      Leaves p c cs (p.region c cs).text
  | trace {t : Text} (hmarks : ∀ d ∈ t, d ∉ marks)
      (hstart : t = [] → c = '/') : Leaves p c cs t

theorem eq_slash_of_comment (h : (p.piece c cs).kind = .comment) :
    c = '/' := by
  have hbegins := p.begins c cs
  generalize p.piece c cs = piece at h hbegins
  cases hbegins with
  | line => rfl
  | block => rfl
  | _ => simp at h

/-- The code goes on with what the next region leaves. -/
theorem exists_leaves (p : Progress) (c : Char) (cs : Text) :
    ∃ t, Leaves p c cs t ∧
      p.ahead (c :: cs) = t ++ (p.next c cs).ahead (p.rest c cs) := by
  cases hkind : (p.piece c cs).kind with
  | code =>
      refine ⟨_, .code hkind, ?_⟩
      rw [ahead, weave_code hkind, Woven.masked_prepend, ahead,
        literals_next (by simp [hkind])]
  | literal =>
      refine ⟨placeholder p.literals.size, .trace (fun d hd => ?_) ?_, ?_⟩
      · exact not_mem_marks (by decide +kernel) (isWord_placeholder _ d hd)
      · exact fun h => absurd h (placeholder_ne_nil _)
      · rw [ahead, weave_literal hkind, Woven.masked_cons, ahead,
          size_literals_next hkind]
        rfl
  | comment =>
      refine ⟨commentTrace (p.region c cs).text p.recent.head?
        (p.rest c cs).head?, .trace (fun d hd => ?_) ?_, ?_⟩
      · exact not_mem_marks (by decide) (isBlank_of_mem_commentTrace d hd)
      · exact fun _ => eq_slash_of_comment hkind
      · rw [ahead, weave_comment hkind, Woven.masked_prepend, ahead,
          literals_next (by simp [hkind])]

/-- Code is kept one character at a time, but for the opening of a block comment
that is not closed. A slash that is kept alone opens no comment. -/
theorem code_cases (h : (p.piece c cs).kind = .code) :
    ((p.region c cs).text = [c] ∧ p.rest c cs = cs ∧
      (c = '/' → cs.head? ≠ some '/' ∧ cs.head? ≠ some '*')) ∨
    ((p.region c cs).text = openMark ∧ (p.next c cs).unclosed = true) := by
  have hbegins := p.begins c cs
  have htext : (p.region c cs).text = (c :: cs).take (p.piece c cs).length :=
    rfl
  rw [unclosed_next, htext, rest]
  generalize p.piece c cs = piece at h hbegins
  cases hbegins with
  | opener hnone => exact Or.inr ⟨rfl, rfl⟩
  | slash hcs hcs' hnone => exact Or.inl ⟨rfl, rfl, fun _ => ⟨hcs, hcs'⟩⟩
  | other hquote htemplate hslash =>
      exact Or.inl ⟨rfl, rfl, fun hc => absurd hc hslash⟩
  | _ => simp at h

/-! ## No marks come together -/

/-- Where the code goes on with a mark, the script does so too, or it goes on
with the slash of a comment that is dropped in between. -/
theorem head?_of_head?_ahead {d : Char} (hd : d ∈ marks)
    (h : (p.ahead s).head? = some d) :
    s.head? = some d ∨ s.head? = some '/' := by
  cases s with
  | nil => simp [ahead_nil] at h
  | cons c cs =>
      obtain ⟨t, ht, hahead⟩ := p.exists_leaves c cs
      rw [hahead] at h
      cases ht with
      | code hkind =>
          obtain ⟨u, hu⟩ := p.exists_region_eq_cons c cs
          rw [hu] at h
          exact Or.inl h
      | trace hmarks hstart =>
          cases t with
          | nil => exact Or.inr (by rw [hstart rfl]; rfl)
          | cons e t =>
              obtain rfl : e = d := by simpa using h
              exact absurd hd (hmarks e List.mem_cons_self)

theorem not_closeMark_ahead (h : ¬ closeMark <:+: s) :
    ¬ closeMark <:+: p.ahead s := by
  fun_induction Progress.regions p s with
  | case1 p =>
      rw [ahead_nil]
      exact h
  | case2 p c cs ih =>
      obtain ⟨t, ht, hahead⟩ := p.exists_leaves c cs
      have hrest := ih fun hin => h (hin.trans (p.rest_suffix c cs).isInfix)
      rw [← p.region_append_rest c cs, closeMark, pair_isInfix_append_iff,
        not_or, not_or] at h
      obtain ⟨hregion, -, hacross⟩ := h
      rw [hahead, closeMark, pair_isInfix_append_iff, not_or, not_or]
      cases ht with
      | code hkind =>
          refine ⟨hregion, hrest, ?_⟩
          rintro ⟨hlast, hhead⟩
          have hslash := head?_of_head?_ahead (by decide) hhead
          rw [or_self] at hslash
          exact hacross ⟨hlast, hslash⟩
      | trace hmarks hstart =>
          have hstar : '*' ∉ t := fun hmem => hmarks '*' hmem (by decide)
          refine ⟨not_pair_isInfix_of_not_mem hstar, hrest, ?_⟩
          exact fun hacross => hstar (List.mem_of_getLast? hacross.1)

/-- The code ahead of a slash that was kept alone does not go on with a mark. -/
theorem not_mark_of_slash {rest : Text} {d : Char}
    (hslash : rest.head? ≠ some '/' ∧ rest.head? ≠ some '*')
    (hd : d = '/' ∨ d = '*') : (p.ahead rest).head? ≠ some d := by
  intro hhead
  rcases hd with rfl | rfl
  · have hrest := head?_of_head?_ahead (by decide) hhead
    rw [or_self] at hrest
    exact hslash.1 hrest
  · exact (head?_of_head?_ahead (by decide) hhead).elim hslash.2 hslash.1

theorem not_lineMark_ahead (p : Progress) (s : Text) :
    ¬ lineMark <:+: p.ahead s := by
  fun_induction Progress.regions p s with
  | case1 p => simp [ahead_nil, lineMark]
  | case2 p c cs ih =>
      obtain ⟨t, ht, hahead⟩ := p.exists_leaves c cs
      rw [hahead, lineMark, pair_isInfix_append_iff, not_or, not_or]
      cases ht with
      | code hkind =>
          rcases code_cases hkind with ⟨htext, hrest, hslash⟩ | ⟨htext, -⟩
          · rw [htext]
            refine ⟨by simp [pair_isInfix_cons_iff], ih, ?_⟩
            rintro ⟨hlast, hhead⟩
            obtain rfl : c = '/' := by simpa using hlast
            rw [hrest] at hhead
            exact not_mark_of_slash (hslash rfl) (Or.inl rfl) hhead
          · rw [htext]
            exact ⟨by decide, ih, fun hacross => absurd hacross.1 (by decide)⟩
      | trace hmarks hstart =>
          have hslash : '/' ∉ t := fun hmem => hmarks '/' hmem (by decide)
          refine ⟨not_pair_isInfix_of_not_mem hslash, ih, ?_⟩
          exact fun hacross => hslash (List.mem_of_getLast? hacross.1)

/-! ## No block comment -/

theorem not_hasBlock_ahead (h : p.Sound s) : ¬ HasBlock (p.ahead s) := by
  fun_induction Progress.regions p s with
  | case1 p =>
      rw [ahead_nil]
      exact not_hasBlock_nil
  | case2 p c cs ih =>
      obtain ⟨t, ht, hahead⟩ := p.exists_leaves c cs
      have hblock := ih h.next
      rw [hahead]
      cases ht with
      | code hkind =>
          rcases code_cases hkind with ⟨htext, hrest, hslash⟩ |
            ⟨htext, hunclosed⟩
          · rw [htext, List.singleton_append, hasBlock_cons_iff, not_or]
            refine ⟨?_, hblock⟩
            rintro ⟨rfl, hhead, -⟩
            rw [hrest] at hhead
            exact not_mark_of_slash (hslash rfl) (Or.inr rfl) hhead
          · have hclose := not_closeMark_ahead (p := p.next c cs)
              (h.next hunclosed)
            rw [htext, openMark, List.cons_append, List.singleton_append,
              hasBlock_cons_iff, hasBlock_cons_iff]
            rintro (⟨-, -, hin⟩ | ⟨hstar, -⟩ | hin)
            · exact hclose hin
            · exact absurd hstar (by decide)
            · exact hblock hin
      | trace hmarks hstart =>
          have hslash : '/' ∉ t := fun hmem => hmarks '/' hmem (by decide)
          rwa [hasBlock_append_of_not_mem hslash]

/-! ## No quotes -/

theorem not_quote_of_mem_ahead (p : Progress) (s : Text) :
    ∀ d ∈ p.ahead s, d ≠ '\'' ∧ d ≠ '"' ∧ d ≠ '`' := by
  fun_induction Progress.regions p s with
  | case1 p => simp [ahead_nil]
  | case2 p c cs ih =>
      obtain ⟨t, ht, hahead⟩ := p.exists_leaves c cs
      rw [hahead, List.forall_mem_append]
      refine ⟨?_, ih⟩
      cases ht with
      | code hkind =>
          have hshaped := p.region_shaped c cs
          have hcode : (p.region c cs).kind = .code := hkind
          rwa [Region.Shaped, hcode] at hshaped
      | trace hmarks hstart =>
          intro d hd
          have hmark := hmarks d hd
          simp only [marks, List.mem_cons, not_or] at hmark
          exact ⟨hmark.1, hmark.2.1, hmark.2.2.1⟩

end Progress

theorem code_tokenize (source : Text) :
    (tokenize source).code = Progress.ahead {} source :=
  text_prepare .lexical source

/-- **Code is clean.** The code of a script holds no quotes, no mark of a line
comment and no block comment. -/
theorem code_tokenize_clean (source : Text) :
    (∀ c ∈ (tokenize source).code, c ≠ '\'' ∧ c ≠ '"' ∧ c ≠ '`') ∧
    ¬ lineMark <:+: (tokenize source).code ∧
    ¬ HasBlock (tokenize source).code := by
  rw [code_tokenize]
  refine ⟨Progress.not_quote_of_mem_ahead {} source,
    Progress.not_lineMark_ahead {} source, Progress.not_hasBlock_ahead ?_⟩
  exact fun hunclosed => absurd hunclosed (by decide)

end ScriptMinifier.Script
