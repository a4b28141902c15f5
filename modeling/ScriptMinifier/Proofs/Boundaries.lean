import ScriptMinifier.Proofs.ByteRuns

/-!
# Cuts between characters

The pass by bytes stands inside of characters all the time, and an escape may
put a search for an end there as well, or behind the end of the script. It cuts
text out of the script only where a stretch opens or ends. Both lie between
characters, so no cut fails.
-/

namespace ScriptMinifier.Script

open Text Encoded

variable {src : Encoded} {lexer : Lexer} {p : Progress}
  {flushed pending s : Text} {c : Char}

theorem isCut_of_append {front middle back : Text}
    (h : src.text = (front ++ middle) ++ back) :
    src.IsCut (byteSize front) (byteSize (front ++ middle)) :=
  isCut_iff.mpr ⟨middle, cut_eq_ok_iff.mpr
    ⟨front, back, by rw [h, List.append_assoc], rfl,
      (byteSize_append _ _).symm⟩⟩

theorem isCut_suffix {front back : Text} (h : src.text = front ++ back) :
    src.IsCut (byteSize front) src.size :=
  isCut_iff.mpr ⟨back, cut_suffix h⟩

namespace Lexer

/-- What the pass cuts out of the script where it stands. -/
structure CutsBetween (src : Encoded) (lexer : Lexer) : Prop where
  /-- The code in front of a stretch, or in front of the end. -/
  code : (stretchAt? src lexer.pos).isSome ∨ lexer.pos = src.size →
    src.IsCut lexer.codeStart lexer.pos
  /-- What is searched for the end of a line comment. -/
  line : stretchAt? src lexer.pos = some .lineComment →
    src.IsCut lexer.pos src.size
  /-- What is searched for the end of a block comment. -/
  block : stretchAt? src lexer.pos = some .blockComment →
    src.IsCut (lexer.pos + 2) src.size
  /-- A stretch, and what is behind it. -/
  stretch : ∀ stretch, stretchAt? src lexer.pos = some stretch →
    ∃ stop?, scan src lexer.pos stretch = .ok stop? ∧
      ∀ stop, stop? = some stop →
        lexer.pos < stop ∧ src.IsCut lexer.pos stop ∧ src.IsCut stop src.size

theorem Tracks.isCut_code {rest : Text}
    (h : Tracks src lexer p flushed pending rest) :
    src.IsCut lexer.codeStart lexer.pos := by
  rw [h.codeStart_eq, h.pos_eq]
  exact isCut_of_append h.text_eq

theorem Tracks.isCut_stretch (h : Tracks src lexer p flushed pending (c :: s))
    {stretch : Stretch} {length? : Option Nat}
    (hopens : Opens c s stretch length?) :
    ∃ stop?, scan src lexer.pos stretch = .ok stop? ∧
      ∀ stop, stop? = some stop →
        lexer.pos < stop ∧ src.IsCut lexer.pos stop ∧
          src.IsCut stop src.size := by
  have hscan := h.scan_eq hopens
  refine ⟨_, hscan, fun stop hstop => ?_⟩
  have hlt := lt_of_scan (h.stretchAt?_eq hopens) hscan
  rw [hstop, Option.getD_some] at hlt
  obtain ⟨n, -, rfl⟩ := Option.map_eq_some_iff.mp hstop
  have htext : src.text = (flushed ++ pending ++ (c :: s).take n) ++
      (c :: s).drop n := by
    rw [List.append_assoc, List.take_append_drop, h.text_eq]
  refine ⟨hlt, ?_, isCut_suffix htext⟩
  rw [h.pos_eq]
  exact isCut_of_append htext

theorem Follows.cutsBetween (hfollows : Follows src lexer) :
    lexer.CutsBetween src where
  code := by
    rintro (hsome | hend)
    · obtain ⟨stretch, hat⟩ := Option.isSome_iff_exists.mp hsome
      obtain ⟨_, _, _, _, _, _, h, -⟩ := hfollows.exists_opens hat
      exact h.isCut_code
    · obtain ⟨middle, hcut, -⟩ := bind_eq_ok_iff.mp
        (hfollows.flush_eq (Nat.le_of_eq hend.symm)).2
      exact isCut_iff.mpr ⟨middle, hcut⟩
  line hat := by
    obtain ⟨_, _, _, _, _, _, h, -⟩ := hfollows.exists_opens hat
    rw [h.pos_eq]
    exact isCut_suffix h.text_eq
  block hat := by
    obtain ⟨p, flushed, pending, _, _, _, h, hopens⟩ :=
      hfollows.exists_opens hat
    cases hopens with
    | @block s =>
        have htext : src.text = (flushed ++ pending ++ openMark) ++ s := by
          simp [h.text_eq, openMark]
        have hcut := isCut_suffix htext
        rwa [byteSize_append, ← h.pos_eq] at hcut
  stretch stretch hat := by
    obtain ⟨_, _, _, _, _, _, h, hopens⟩ := hfollows.exists_opens hat
    exact h.isCut_stretch hopens

theorem Follows.pos_le (hfollows : Follows src lexer) :
    lexer.pos ≤ src.size := by
  rcases Nat.lt_or_ge lexer.pos src.size with hlt | hge
  · exact Nat.le_of_lt hlt
  · exact Nat.le_of_eq (hfollows.flush_eq hge).1

end Lexer

/-- **The pass by bytes cuts between characters only.** In every state that it
comes to, everything it may cut out of the script is in order, in the script and
between characters, and the end of a stretch is behind its beginning. So no turn
fails, every turn goes on, and the pass ends with the tokens of the script. -/
theorem cuts_between_characters (src : Encoded) :
    (∀ lexer, Lexer.Reaches src {} lexer →
      lexer.pos ≤ src.size ∧ lexer.CutsBetween src ∧
        (lexer.pos < src.size → ∃ next, lexer.step true src = .ok next ∧
          lexer.pos < next.pos)) ∧
      tokenizeEncoded src = .ok (tokenize src.text) := by
  refine ⟨fun lexer hreaches => ?_, Lexer.run_start true src⟩
  obtain ⟨hfollows, hsound⟩ := hreaches.follows
  refine ⟨hfollows.pos_le, hfollows.cutsBetween, fun hlt => ?_⟩
  obtain ⟨next, hstep, -⟩ := hfollows.exists_step true hsound hlt
  exact ⟨next, hstep, Lexer.pos_lt_step hstep⟩

/-- The escape takes the first byte of `é` along, and the search goes on inside
of the character. -/
theorem cuts_between_characters_escape :
    let src := Encoded.ofText "é='\\é';`\\".toList
    let lexer := Lexer.walk src {} 3
    Lexer.Reaches src {} lexer ∧ lexer.pos = 3 ∧
      scan src 3 (.string '\''.toUInt8) = .ok (some 8) ∧
      src.IsCut 0 3 ∧ src.IsCut 3 8 ∧ src.IsCut 8 11 := by
  intro src lexer
  have hlexer : lexer = { pos := 3 } := by decide +kernel
  have hat : stretchAt? src 3 = some (.string '\''.toUInt8) := by decide +kernel
  have hscan : scan src 3 (.string '\''.toUInt8) = .ok (some 8) := by
    decide +kernel
  have hsize : src.size = 11 := by decide +kernel
  have hreaches := Lexer.reaches_walk src {} 3
  obtain ⟨-, hcuts, -⟩ := (cuts_between_characters src).1 lexer hreaches
  refine ⟨hreaches, by rw [hlexer], hscan, ?_⟩
  rw [hlexer] at hcuts
  have hcode := hcuts.code (Or.inl (by rw [hat]; rfl))
  obtain ⟨stop?, hstop, hends⟩ := hcuts.stretch _ hat
  obtain ⟨-, hstretch, hbehind⟩ :=
    hends 8 (Except.ok.inj (hstop.symm.trans hscan))
  exact ⟨hcode, hstretch, hsize ▸ hbehind⟩

end ScriptMinifier.Script
