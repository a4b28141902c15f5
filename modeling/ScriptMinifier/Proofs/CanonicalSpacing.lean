import ScriptMinifier.Proofs.Spacing

/-!
# The canonical form of white space

A text is a row of characters other than blanks with a run of blanks, perhaps
empty, on each side of them. `Canonical` says what becomes of every run when the
text is compressed, from its two neighbours alone. It leaves no choice, so
compressed text is determined by where the text has blanks, and the single
passes give the same result in either order.
-/

namespace ScriptMinifier.Spacing

open Text

/-! ## Runs of blanks between two neighbours -/

/-- What is left of the blanks between two neighbours. A neighbour that is
missing is an end of the text. -/
def between (before : Option Char) (blanks : Text) (after : Option Char) :
    Text :=
  if blanks ≠ [] ∧ before.any isPunctuation = false ∧
      after.any isPunctuation = false then [' '] else []

/-- The text `t` is the text `s` with every run of blanks brought down to what
is left of it between its neighbours. In front of both stands `before`. -/
inductive Canonical : Option Char → Text → Text → Prop
  | last {before : Option Char} {blanks : Text} (hblanks : AreBlank blanks) :
      Canonical before blanks (between before blanks none)
  | cons {before : Option Char} {blanks : Text} {c : Char} {s t : Text}
      (hblanks : AreBlank blanks) (hc : isBlank c = false)
      (h : Canonical (some c) s t) :
      Canonical before (blanks ++ c :: s)
        (between before blanks (some c) ++ c :: t)

theorem areBlank_takeWhile (s : Text) : AreBlank (s.takeWhile isBlank) :=
  List.all_eq_true.mp List.all_takeWhile

/-- Every text is a row of characters and runs of blanks. -/
theorem exists_canonical (before : Option Char) (s : Text) :
    ∃ t, Canonical before s t := by
  induction hn : s.length using Nat.strong_induction_on
    generalizing before s with
  | _ n ih =>
      have hs := List.takeWhile_append_dropWhile (p := isBlank) (l := s)
      have hhead := any_head?_dropWhile isBlank s
      cases hrest : s.dropWhile isBlank with
      | nil =>
          rw [hrest, List.append_nil] at hs
          rw [← hs]
          exact ⟨_, .last (areBlank_takeWhile s)⟩
      | cons c rest =>
          rw [hrest] at hs hhead
          have hlen : rest.length < n := by
            rw [← hn, ← hs, List.length_append, List.length_cons]
            omega
          obtain ⟨t, ht⟩ := ih rest.length hlen (some c) rest rfl
          rw [← hs]
          exact ⟨_, .cons (areBlank_takeWhile s) (by simpa using hhead) ht⟩

/-! ## Compressed text is canonical -/

/-- The run that a scan has open is left as its neighbours say. -/
theorem between_eq (before : Option Char) (blanks : Text)
    (after : Option Char) : between before blanks after =
      if !blanks.isEmpty && !before.any isPunctuation &&
        !after.any isPunctuation then [' '] else [] := by
  unfold between
  cases blanks <;> cases before.any isPunctuation <;>
    cases after.any isPunctuation <;> rfl

theorem Canonical.eq_tighten {before : Option Char} {s t : Text}
    (h : Canonical before s t) :
    t = tighten (before.any isPunctuation) false s := by
  induction h with
  | @last before blanks hblanks =>
      have htighten :=
        tighten_blanks hblanks (before.any isPunctuation) false []
      rw [List.append_nil] at htighten
      rw [htighten, between_eq, tighten]
      simp
  | @cons before blanks c s t hblanks hc _ ih =>
      rw [tighten_blanks hblanks, tighten_of_not_blank hc, between_eq, ih]
      simp

theorem canonical_iff {s t : Text} :
    Canonical none s t ↔ t = compress s := by
  rw [compress_eq_tighten]
  constructor
  · exact Canonical.eq_tighten
  · rintro rfl
    obtain ⟨t, ht⟩ := exists_canonical none s
    have heq := ht.eq_tighten
    rwa [heq] at ht

/-! ## The passes in either order -/

theorem squeeze_blanks {blanks : Text} (h : AreBlank blanks) (pending : Bool)
    (s : Text) : squeeze pending (blanks ++ s) =
      squeeze (pending || !blanks.isEmpty) s := by
  induction blanks generalizing pending with
  | nil => simp
  | cons b blanks ih =>
      rw [AreBlank, List.forall_mem_cons] at h
      rw [List.cons_append, squeeze, if_pos h.1, ih h.2]
      simp

theorem squeeze_shed {run : Text} (hrun : AreBlank run) (glued : Bool)
    (s : Text) : squeeze false (shed glued run s) =
      tighten glued (!run.isEmpty) s := by
  induction s generalizing glued run with
  | nil =>
      have hsqueeze := squeeze_blanks hrun false []
      rw [List.append_nil] at hsqueeze
      cases glued with
      | true => simp [shed, tighten, squeeze]
      | false => simpa [shed, tighten, squeeze] using hsqueeze
  | cons c s ih =>
      cases hc : isBlank c with
      | true =>
          have hconcat : AreBlank (run ++ [c]) := by
            rw [AreBlank, List.forall_mem_append, List.forall_mem_singleton]
            exact ⟨hrun, hc⟩
          have hne : (run ++ [c]).isEmpty = false := by simp
          rw [shed_blank hc, tighten_blank hc, ih hconcat, hne]
          rfl
      | false =>
          have hrest : squeeze false (shed (isPunctuation c) [] s) =
              tighten (isPunctuation c) false s :=
            ih (fun _ h => absurd h List.not_mem_nil) (isPunctuation c)
          have hchar : ∀ pending : Bool,
              squeeze pending (c :: shed (isPunctuation c) [] s) =
                (if pending then [' '] else []) ++
                  c :: tighten (isPunctuation c) false s := by
            intro pending
            rw [squeeze, if_neg (by simp [hc]), hrest]
          rw [shed_of_not_blank hc, tighten_of_not_blank hc, Bool.and_assoc,
            ← Bool.not_or]
          cases glued || isPunctuation c with
          | true => simpa using hchar false
          | false => simpa [squeeze_blanks hrun] using hchar (!run.isEmpty)

theorem compress_eq_collapse_trimPunctuation (s : Text) :
    compress s = collapse (trimPunctuation s) := by
  rw [compress_eq_tighten, trimPunctuation_eq_shed,
    ← (squeeze_eq_collapse _).1,
    squeeze_shed (fun _ h => absurd h List.not_mem_nil)]
  rfl

theorem compress_eq_trimPunctuation_collapse (s : Text) :
    compress s = trimPunctuation (collapse s) := by
  rw [compress_eq_tighten, trimPunctuation_eq_shed,
    ← (squeeze_eq_collapse s).1, shed_squeeze]

/-- **White space is canonical.** Compressing keeps the characters other than
blanks. It leaves one space for the blanks between two of them, or at an end,
unless punctuation is next to the blanks, and nothing else does so. Compressing
again changes nothing, the last collapse has nothing to do, and the two passes
can change places. -/
theorem compress_canonical (s : Text) :
    (compress s).filter (!isBlank ·) = s.filter (!isBlank ·) ∧
    (∀ t, Canonical none s t ↔ t = compress s) ∧
    compress (compress s) = compress s ∧
    collapse (trimPunctuation (collapse s)) = trimPunctuation (collapse s) ∧
    compress s = trimPunctuation (collapse s) ∧
    compress s = collapse (trimPunctuation s) :=
  ⟨filter_compress s, fun _ => canonical_iff, compress_compress s,
    compress_eq_trimPunctuation_collapse s,
    compress_eq_trimPunctuation_collapse s,
    compress_eq_collapse_trimPunctuation s⟩

end ScriptMinifier.Spacing
