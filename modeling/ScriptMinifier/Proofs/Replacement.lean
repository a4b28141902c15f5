import ScriptMinifier.Text.Replace

/-!
# Laws of replacement

`Text.replace` counts down over the characters that an edit has consumed.
The laws here speak of the text that is left instead: what happens where the
rule has no edit, what happens where it has one, and that a rule which does
not look back treats every position alike.
-/

namespace ScriptMinifier.Text

/-- The last character passed, with one more in front. -/
theorem getLast?_cons_or (c : Char) (s : Text) (before : Option Char) :
    (c :: s).getLast?.or before = s.getLast?.or (some c) := by
  rw [List.getLast?_cons]
  cases s.getLast? <;> rfl

/-- Passing over `n` characters leaves the rest of the text, with the last
character passed in front of it. -/
theorem replaceFrom_skip (rule : Rule) : ∀ (s : Text) (before : Option Char)
    (n : Nat), replaceFrom rule before n s =
      replaceFrom rule ((s.take n).getLast?.or before) 0 (s.drop n)
  | [], before, n => by simp [replaceFrom]
  | c :: cs, before, 0 => by simp
  | c :: cs, before, n + 1 => by
      rw [replaceFrom, replaceFrom_skip rule cs (some c) n]
      rw [List.take_succ_cons, List.drop_succ_cons, getLast?_cons_or]

theorem replaceFrom_of_none {rule : Rule} {before : Option Char} {c : Char}
    {cs : Text} (h : rule before (c :: cs) = none) :
    replaceFrom rule before 0 (c :: cs) =
      c :: replaceFrom rule (some c) 0 cs := by
  rw [replaceFrom, h]

theorem replaceFrom_of_some {rule : Rule} {before : Option Char} {c : Char}
    {cs : Text} {edit : Edit} (h : rule before (c :: cs) = some edit)
    (hpos : 0 < edit.length) :
    replaceFrom rule before 0 (c :: cs) = edit.new ++
      replaceFrom rule (((c :: cs).take edit.length).getLast?.or before) 0
        ((c :: cs).drop edit.length) := by
  obtain ⟨n, hn⟩ := Nat.exists_eq_succ_of_ne_zero (Nat.ne_of_gt hpos)
  have hskip : replaceFrom rule before edit.length (c :: cs) =
      replaceFrom rule (some c) (edit.length - 1) cs := by
    rw [hn, replaceFrom]
    rfl
  rw [← replaceFrom_skip rule (c :: cs) before edit.length, hskip]
  rw [replaceFrom, h]

/-! ## Rules that do not look back -/

/-- The rule never uses the character before. -/
def Rule.Blind (rule : Rule) : Prop :=
  ∀ (before : Option Char) (s : Text), rule before s = rule none s

namespace Rule.Blind

variable {rule : Rule}

theorem replaceFrom_congr (blind : rule.Blind) : ∀ (s : Text)
    (before other : Option Char) (n : Nat),
    replaceFrom rule before n s = replaceFrom rule other n s
  | [], _, _, _ => by simp [replaceFrom]
  | c :: cs, _, _, n + 1 => by simp only [replaceFrom]
  | c :: cs, before, other, 0 => by
      simp only [replaceFrom]
      rw [blind before, blind other]

theorem replaceFrom_eq (blind : rule.Blind) (before : Option Char) (n : Nat)
    (s : Text) : replaceFrom rule before n s = replace rule (s.drop n) := by
  rw [replaceFrom_skip]
  exact blind.replaceFrom_congr _ _ _ _

theorem replace_of_none (blind : rule.Blind) {c : Char} {cs : Text}
    (h : rule none (c :: cs) = none) :
    replace rule (c :: cs) = c :: replace rule cs := by
  rw [replace, replaceFrom_of_none h, blind.replaceFrom_eq, List.drop_zero]

theorem replace_of_some (blind : rule.Blind) {c : Char} {cs : Text}
    {edit : Edit} (h : rule none (c :: cs) = some edit)
    (hpos : 0 < edit.length) :
    replace rule (c :: cs) =
      edit.new ++ replace rule ((c :: cs).drop edit.length) := by
  rw [replace, replaceFrom_of_some h hpos, blind.replaceFrom_eq,
    List.drop_zero]

end Rule.Blind

/-! ## A last character that the rule does not see -/

/-- A character that makes no difference to the rule when it stands at the
very end stays there. -/
theorem replaceFrom_concat {rule : Rule} {x : Char}
    (hfit : ∀ before s edit, rule before s = some edit →
      edit.length ≤ s.length)
    (hnil : ∀ before, rule before [] = none)
    (hsame : ∀ before s, rule before (s ++ [x]) = rule before s) :
    ∀ (s : Text) (before : Option Char) (n : Nat), n ≤ s.length →
      replaceFrom rule before n (s ++ [x]) =
        replaceFrom rule before n s ++ [x]
  | [], before, n, hn => by
      have hn0 : n = 0 := Nat.le_zero.mp hn
      have hnone : rule before [x] = none :=
        (hsame before []).trans (hnil before)
      subst hn0
      simp [replaceFrom, hnone]
  | c :: cs, before, n + 1, hn => by
      simp only [List.cons_append, replaceFrom]
      exact replaceFrom_concat hfit hnil hsame cs (some c) n
        (Nat.le_of_succ_le_succ hn)
  | c :: cs, before, 0, _ => by
      have hrule := hsame before (c :: cs)
      rw [List.cons_append] at hrule
      cases h : rule before (c :: cs) with
      | none =>
          rw [h] at hrule
          rw [List.cons_append, replaceFrom_of_none hrule,
            replaceFrom_of_none h, List.cons_append]
          rw [replaceFrom_concat hfit hnil hsame cs (some c) 0
            (Nat.zero_le _)]
      | some edit =>
          rw [h] at hrule
          have hlen : edit.length - 1 ≤ cs.length := by
            have hle := hfit _ _ _ h
            rw [List.length_cons] at hle
            omega
          rw [List.cons_append, replaceFrom, hrule, replaceFrom, h]
          simp only [List.append_assoc]
          rw [replaceFrom_concat hfit hnil hsame cs (some c) _ hlen]

theorem replace_concat {rule : Rule} {x : Char}
    (hfit : ∀ before s edit, rule before s = some edit →
      edit.length ≤ s.length)
    (hnil : ∀ before, rule before [] = none)
    (hsame : ∀ before s, rule before (s ++ [x]) = rule before s) (s : Text) :
    replace rule (s ++ [x]) = replace rule s ++ [x] :=
  replaceFrom_concat hfit hnil hsame s none 0 (Nat.zero_le _)

end ScriptMinifier.Text
