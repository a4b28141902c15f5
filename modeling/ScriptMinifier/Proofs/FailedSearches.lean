import ScriptMinifier.Proofs.ByteRuns

/-!
# Searches that failed

A block comment that is never closed costs one search through the rest of the
script. The pass keeps where the first such search began and makes no other one
from there on. Here: what it leaves out would have failed as well, so the tokens
are those of a pass that searches every time.
-/

namespace ScriptMinifier.Script

open Text Encoded

variable {src : Encoded} {lexer next : Lexer}

namespace Lexer

/-! ## What is kept is kept for good -/

theorem unclosedFrom_flush (h : lexer.flush src = .ok next) :
    next.unclosedFrom = lexer.unclosedFrom := by
  obtain ⟨code, -, h⟩ := bind_eq_ok_iff.mp h
  cases h
  rfl

theorem unclosedFrom_takeLiteral {stop : Nat}
    (h : lexer.takeLiteral src stop = .ok next) :
    next.unclosedFrom = lexer.unclosedFrom := by
  obtain ⟨literal, -, h⟩ := bind_eq_ok_iff.mp h
  cases h
  rfl

theorem unclosedFrom_dropComment {stop : Nat}
    (h : lexer.dropComment src stop = .ok next) :
    next.unclosedFrom = lexer.unclosedFrom := by
  obtain ⟨behind, -, h⟩ := bind_eq_ok_iff.mp h
  obtain ⟨comment, -, h⟩ := bind_eq_ok_iff.mp h
  cases h
  rfl

/-- With a failed search behind it, the pass makes no other one. -/
theorem blockEnd_of_le {start : Nat} (hstart : lexer.unclosedFrom = some start)
    (hle : start ≤ lexer.pos) :
    lexer.blockEnd true src = .ok (none, lexer) := by
  rw [blockEnd, hstart, if_pos (by simpa using hle)]

theorem unclosedFrom_step {start : Nat}
    (hstart : lexer.unclosedFrom = some start) (hle : start ≤ lexer.pos)
    (h : lexer.step true src = .ok next) : next.unclosedFrom = some start := by
  rw [← hstart]
  unfold step at h
  split at h
  · cases h
    rfl
  · rw [blockEnd_of_le hstart hle] at h
    cases h
    rfl
  · obtain ⟨flushed, hflushed, h⟩ := bind_eq_ok_iff.mp h
    obtain ⟨stop?, -, h⟩ := bind_eq_ok_iff.mp h
    rw [unclosedFrom_dropComment h, unclosedFrom_flush hflushed]
  · obtain ⟨flushed, hflushed, h⟩ := bind_eq_ok_iff.mp h
    obtain ⟨stop?, -, h⟩ := bind_eq_ok_iff.mp h
    rw [← unclosedFrom_flush hflushed]
    cases stop? with
    | none =>
        cases h
        rfl
    | some stop => exact unclosedFrom_takeLiteral h
  · obtain ⟨flushed, hflushed, h⟩ := bind_eq_ok_iff.mp h
    obtain ⟨stop?, -, h⟩ := bind_eq_ok_iff.mp h
    rw [unclosedFrom_takeLiteral h, unclosedFrom_flush hflushed]

theorem Reaches.unclosedFrom_eq {later : Lexer} (h : Reaches src lexer later)
    {start : Nat} (hstart : lexer.unclosedFrom = some start)
    (hle : start ≤ lexer.pos) : later.unclosedFrom = some start := by
  induction h with
  | here => exact hstart
  | step hreaches _ hstep ih =>
      exact unclosedFrom_step ih (Nat.le_trans hle hreaches.pos_le) hstep

/-- At every `/*` the pass gets the answer of a search from there. -/
theorem Reaches.blockEnd_eq (h : Reaches src {} lexer)
    (hat : stretchAt? src lexer.pos = some .blockComment) :
    ∃ stop?, scan src lexer.pos .blockComment = .ok stop? ∧
      lexer.blockEnd true src = .ok (stop?, lexer.searched true stop?) := by
  obtain ⟨hfollows, hsound⟩ := h.follows
  obtain ⟨p, flushed, pending, c, s, length?, htracks, hopens⟩ :=
    hfollows.exists_opens hat
  have hscan := htracks.scan_eq hopens
  cases hopens with
  | block =>
      refine ⟨_, hscan, ?_⟩
      rw [Lexer.blockEnd_eq htracks.text_eq htracks.pos_eq hsound true, hscan]
      rfl

end Lexer

/-- **A search that is left out would have failed.** At every `/*` that the pass
comes to, it gets the answer of a search from there and keeps the place of the
first search that fails. Behind that place there is no `*/`, and the pass stays
behind it. So the tokens are those of a pass that searches every time. -/
theorem failed_searches_fail_again (src : Encoded) :
    (∀ lexer, Lexer.Reaches src {} lexer →
      (stretchAt? src lexer.pos = some .blockComment →
        ∃ stop?, scan src lexer.pos .blockComment = .ok stop? ∧
          lexer.blockEnd true src = .ok (stop?, lexer.searched true stop?)) ∧
      ∀ start, lexer.unclosedFrom = some start →
        (∀ i, start + 2 ≤ i → ¬ ClosesAt src i) ∧
          ∀ later, Lexer.Reaches src lexer later →
            start ≤ later.pos ∧ later.unclosedFrom = some start) ∧
      Lexer.run true {} src = Lexer.run false {} src ∧
      Lexer.run false {} src = .ok (tokenize src.text) ∧
      ∀ p inner, Progress.Reaches {} src.text p ('/' :: '*' :: inner) →
        p.unclosed = true → blockCommentLength? inner = none := by
  refine ⟨fun lexer hreaches => ⟨hreaches.blockEnd_eq, fun start hstart => ?_⟩,
    ?_, Lexer.run_start false src, fun p inner hreaches hunclosed => ?_⟩
  · obtain ⟨hle, hnone⟩ := hreaches.follows.2 start hstart
    refine ⟨hnone, fun later hlater => ⟨?_, ?_⟩⟩
    · exact Nat.le_trans hle hlater.pos_le
    · exact hlater.unclosedFrom_eq hstart hle
  · rw [Lexer.run_start, Lexer.run_start]
  · have hsound : p.Sound _ := hreaches.sound (by rintro ⟨⟩)
    exact hsound.blockCommentLength?_eq_none hunclosed

/-- The first `/*` is not closed by the `*/` that begins inside of it. The
second one is behind a string. -/
theorem failed_searches_fail_again_overlap :
    let src := Encoded.ofText "/*/\n'b'/*é".toList
    let lexer := Lexer.walk src {} 4
    Lexer.Reaches src {} lexer ∧ lexer.pos = 7 ∧ lexer.unclosedFrom = some 0 ∧
      stretchAt? src 7 = some .blockComment ∧
      (∃ stop?, scan src 7 .blockComment = .ok stop? ∧
        lexer.blockEnd true src = .ok (stop?, lexer.searched true stop?)) ∧
      ClosesAt src 1 ∧ ∀ i, 2 ≤ i → ¬ ClosesAt src i := by
  intro src lexer
  have hreaches := Lexer.reaches_walk src {} 4
  have hpos : lexer.pos = 7 := by decide +kernel
  have hfrom : lexer.unclosedFrom = some 0 := by decide +kernel
  have hat : stretchAt? src 7 = some .blockComment := by decide +kernel
  obtain ⟨hend, hkept⟩ := (failed_searches_fail_again src).1 lexer hreaches
  rw [hpos] at hend
  refine ⟨hreaches, hpos, hfrom, hat, hend hat, ?_, (hkept 0 hfrom).1⟩
  exact ⟨by decide +kernel, by decide +kernel⟩

end ScriptMinifier.Script
