import ScriptMinifier.Proofs.Regions

/-!
# The states of a run

Taking a script apart goes from state to state, one region at a time.
`Progress.Reaches` names the states on the way, each with the text that is
still ahead. What one step keeps then holds wherever the run comes by.
-/

namespace ScriptMinifier.Script

namespace Progress

/-- From `p` in front of `s` the run comes to `q` in front of `t`. -/
inductive Reaches : Progress → Text → Progress → Text → Prop
  | here {p : Progress} {s : Text} : Reaches p s p s
  | step {p q : Progress} {c : Char} {cs t : Text}
      (h : Reaches (p.next c cs) (p.rest c cs) q t) : Reaches p (c :: cs) q t

theorem Reaches.run_eq {p q : Progress} {s t : Text} (h : Reaches p s q t) :
    p.run 0 s = q.run 0 t := by
  induction h with
  | here => rfl
  | step _ ih => rw [run_cons, ih]

theorem rest_suffix (p : Progress) (c : Char) (cs : Text) :
    p.rest c cs <:+ c :: cs :=
  List.drop_suffix _ _

theorem Reaches.suffix {p q : Progress} {s t : Text} (h : Reaches p s q t) :
    t <:+ s := by
  induction h with
  | here => exact List.suffix_refl _
  | step _ ih => exact ih.trans (rest_suffix _ _ _)

/-- The state behind `n` regions, and the text ahead of it. -/
def walk : Nat → Progress → Text → Progress × Text
  | 0, p, s => (p, s)
  | _ + 1, p, [] => (p, [])
  | n + 1, p, c :: cs => walk n (p.next c cs) (p.rest c cs)

theorem reaches_walk (n : Nat) (p : Progress) (s : Text) :
    p.Reaches s (walk n p s).1 (walk n p s).2 := by
  induction n generalizing p s with
  | zero => exact .here
  | succ n ih =>
      cases s with
      | nil => exact .here
      | cons c cs => exact .step (ih _ _)

theorem begins (p : Progress) (c : Char) (cs : Text) :
    Begins p.recent p.unclosed c cs (p.piece c cs) :=
  begins_nextPiece p.recent p.unclosed c cs

/-! ## Searches that failed -/

theorem unclosed_next (p : Progress) (c : Char) (cs : Text) :
    (p.next c cs).unclosed = (p.piece c cs).unclosed := by
  unfold next absorb
  cases (p.piece c cs).kind <;> rfl

/-- A search that has failed would fail again: no `*/` is ahead. -/
def Sound (p : Progress) (s : Text) : Prop :=
  p.unclosed = true → ¬ closeMark <:+: s

theorem Sound.next {p : Progress} {c : Char} {cs : Text}
    (h : p.Sound (c :: cs)) : (p.next c cs).Sound (p.rest c cs) := by
  have hrest : closeMark <:+: p.rest c cs → closeMark <:+: c :: cs :=
    fun hin => hin.trans (p.rest_suffix c cs).isInfix
  have hbegins := p.begins c cs
  intro hunclosed hin
  rw [unclosed_next] at hunclosed
  unfold Progress.rest at hin hrest
  generalize p.piece c cs = piece at hbegins hunclosed hin hrest
  cases hbegins with
  | @opener inner hnone =>
      rcases hnone with hnone | hnone
      · exact h hnone (hrest hin)
      · exact blockCommentLength?_eq_none.mp hnone hin
  | _ => exact h hunclosed (hrest hin)

theorem Reaches.sound {p q : Progress} {s t : Text} (h : Reaches p s q t)
    (hp : p.Sound s) : q.Sound t := by
  induction h with
  | here => exact hp
  | step _ ih => exact ih hp.next

/-! ## The count of comments -/

/-- The progress with `n` more comments on the count. -/
def addComments (p : Progress) (n : Nat) : Progress :=
  { p with comments := p.comments + n }

theorem absorb_addComments (p : Progress) (n : Nat) (piece : Piece)
    (s : Text) : (p.addComments n).absorb piece s =
      (p.absorb piece s).addComments n := by
  unfold absorb
  cases piece.kind with
  | code => rfl
  | literal => rfl
  | comment => simp [addComments, Nat.add_right_comm]

/-- The count of comments decides nothing. -/
theorem run_addComments (p : Progress) (n skip : Nat) (s : Text) :
    (p.addComments n).run skip s = (p.run skip s).addComments n := by
  induction s generalizing p skip with
  | nil => rfl
  | cons c cs ih =>
      cases skip with
      | succ skip => exact ih p skip
      | zero =>
          rw [run, run, absorb_addComments, ih]
          rfl

theorem comments_le_run (p : Progress) (s : Text) :
    p.comments ≤ (p.run 0 s).comments := by
  have htokens := congrArg Tokens.comments (p.tokens_run s)
  rw [show (p.run 0 s).comments = _ from htokens, Tokens.comments_addAll]
  exact Nat.le_add_right _ _

theorem comments_lt_run {p : Progress} {c : Char} {cs : Text}
    (h : (p.piece c cs).kind = .comment) :
    p.comments < (p.run 0 (c :: cs)).comments := by
  have hnext : (p.next c cs).comments = p.comments + 1 := by
    unfold next absorb
    rw [h]
  have hle := (p.next c cs).comments_le_run (p.rest c cs)
  rw [run_cons]
  omega

/-! ## The literals ahead -/

/-- The literals that are still to be found. -/
def found (p : Progress) (s : Text) : List Text :=
  ((p.regions s).filter (·.kind = .literal)).map Region.text

theorem literals_run (p : Progress) (s : Text) :
    (p.run 0 s).literals.toList = p.literals.toList ++ p.found s := by
  have htokens := congrArg Tokens.literals (p.tokens_run s)
  rw [show (p.run 0 s).literals = _ from htokens, Tokens.literals_addAll]
  rfl

theorem found_nil (p : Progress) : p.found [] = [] := by
  rw [found, regions]
  rfl

theorem found_literal {p : Progress} {c : Char} {cs : Text}
    (h : (p.piece c cs).kind = .literal) : p.found (c :: cs) =
      (c :: cs).take (p.piece c cs).length ::
        (p.next c cs).found (p.rest c cs) := by
  have hkind : (p.region c cs).kind = .literal := h
  simp only [found, regions, List.filter_cons, hkind, decide_true, if_true,
    List.map_cons]
  rfl

/-- What a part of the run takes in was ahead of it. -/
theorem found_eq {p q : Progress} {s t : Text} {ls : List Text}
    (hrun : p.run 0 s = q.run 0 t)
    (hq : q.literals.toList = p.literals.toList ++ ls) :
    p.found s = ls ++ q.found t := by
  have h := congrArg (fun r => r.literals.toList) hrun
  simp only [literals_run, hq, List.append_assoc] at h
  exact List.append_cancel_left h

end Progress

end ScriptMinifier.Script
