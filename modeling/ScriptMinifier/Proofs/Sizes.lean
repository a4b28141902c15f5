import Mathlib.Algebra.Group.Nat.Defs
import ScriptMinifier.Proofs.Pairing
import ScriptMinifier.Report.Size

/-!
# Minifying does not make a script larger

Sizes are counted in UTF-8 bytes. A literal costs what it cost before, however
long the placeholder is that stood for it on the way. A comment leaves at most
one byte, a run of blanks at most one space, and everything else that happens
only deletes.
-/

namespace ScriptMinifier

open Text Spacing

/-! ## Deleting -/

namespace Text

theorem byteSize_le_of_sublist {s t : Text} (h : s.Sublist t) :
    byteSize s ≤ byteSize t := by
  induction h with
  | slnil => exact Nat.le_refl _
  | cons c _ ih =>
      rw [byteSize_cons]
      omega
  | cons_cons c _ ih =>
      rw [byteSize_cons, byteSize_cons]
      omega

/-- A rule that puts nothing in place of what it finds deletes characters. -/
theorem replaceFrom_sublist {rule : Rule}
    (hnew : ∀ before s edit, rule before s = some edit → edit.new = []) :
    ∀ (s : Text) (before : Option Char) (n : Nat),
      (replaceFrom rule before n s).Sublist s
  | [], before, n => by simp [replaceFrom]
  | c :: cs, before, n + 1 => by
      rw [replaceFrom]
      exact (replaceFrom_sublist hnew cs (some c) n).cons c
  | c :: cs, before, 0 => by
      cases h : rule before (c :: cs) with
      | none =>
          rw [replaceFrom_of_none h]
          exact (replaceFrom_sublist hnew cs (some c) 0).cons_cons c
      | some edit =>
          rw [replaceFrom, h]
          dsimp only
          rw [hnew _ _ _ h, List.nil_append]
          exact (replaceFrom_sublist hnew cs (some c) _).cons c

end Text

theorem Comment.strip_sublist (s : Text) : (Comment.strip s).Sublist s := by
  have hblock : ∀ before s edit, Comment.blockRule before s = some edit →
      edit.new = [] := by
    intro before s edit h
    unfold Comment.blockRule at h
    split at h
    · obtain ⟨n, -, rfl⟩ := Option.map_eq_some_iff.mp h
      rfl
    · exact absurd h (by simp)
  have hline : ∀ before s edit, Comment.lineRule before s = some edit →
      edit.new = [] := by
    intro before s edit h
    unfold Comment.lineRule at h
    split at h
    · rw [← Option.some.inj h]
    · exact absurd h (by simp)
  exact (replaceFrom_sublist hblock _ _ _).trans
    (replaceFrom_sublist hline _ _ _)

theorem Spacing.trim_sublist (s : Text) : (trim s).Sublist s := by
  rw [trim_eq]
  exact (List.rdropWhile_prefix _ _).sublist.trans
    (List.dropWhile_suffix _).sublist

/-! ## Blanks -/

/-- An open run of blanks has a byte to spend. -/
theorem Spacing.byteSize_tighten_le : ∀ (s : Text) (glued pending : Bool),
    byteSize (tighten glued pending s) ≤ byteSize s + pending.toNat
  | [], glued, pending => by
      cases pending <;> cases glued <;> decide
  | c :: cs, glued, pending => by
      cases h : isBlank c with
      | true =>
          have ih := byteSize_tighten_le cs glued true
          have hc := c.utf8Size_pos
          rw [tighten_blank h, byteSize_cons]
          simp only [Bool.toNat_true] at ih
          omega
      | false =>
          have ih := byteSize_tighten_le cs (isPunctuation c) false
          have hgap : byteSize (if pending && !glued && !isPunctuation c
              then [' '] else []) ≤ pending.toNat := by
            cases pending with
            | false => simp
            | true => split <;> decide
          rw [tighten_of_not_blank h, byteSize_append, byteSize_cons,
            byteSize_cons]
          simp only [Bool.toNat_false] at ih
          omega

theorem Spacing.byteSize_compress_le (s : Text) :
    byteSize (compress s) ≤ byteSize s := by
  rw [compress_eq_tighten]
  exact byteSize_tighten_le s false false

/-! ## Gaps and literals -/

theorem Woven.byteSize_text_mapGaps_le {f : Text → Text}
    (hf : ∀ gap, byteSize (f gap) ≤ byteSize gap) (w : Woven Text) :
    byteSize (w.mapGaps f).text ≤ byteSize w.text := by
  induction w with
  | last gap => exact hf gap
  | cons gap item rest ih =>
      have hgap := hf gap
      rw [mapGaps, text_cons, text_cons]
      simp only [byteSize_append]
      omega

/-- A comment is never shorter than what it leaves. -/
theorem Script.byteSize_commentTrace_le {comment : Text} (h : comment ≠ [])
    (before after : Option Char) :
    byteSize (commentTrace comment before after) ≤ byteSize comment := by
  have hpos := byteSize_pos h
  have hone : byteSize (commentTrace comment before after) ≤ 1 := by
    unfold commentTrace
    split
    · decide
    · split <;> decide
  omega

theorem Script.byteSize_text_weaveRegions_le (before : Option Char)
    (regions : List Region) :
    byteSize (weaveRegions before regions).text ≤
      byteSize (joined regions) := by
  induction regions generalizing before with
  | nil => exact Nat.le_refl _
  | cons r regions ih =>
      rw [joined_cons, byteSize_append, weaveRegions]
      cases r.kind with
      | code =>
          have hrest := ih r.text.getLast?
          simp only [Woven.text_prepend, byteSize_append]
          omega
      | literal =>
          have hrest := ih placeholderClosing.getLast?
          simp only [Woven.text_cons, List.nil_append, byteSize_append]
          omega
      | comment =>
          have htrace := byteSize_commentTrace_le r.nonempty before
            (joined regions).head?
          have hrest := ih ((commentTrace r.text before
            (joined regions).head?).getLast?.or before)
          simp only [Woven.text_prepend, byteSize_append]
          omega

/-- With its literals back in place the prepared text is no larger than the
script. -/
theorem byteSize_text_weave_le (strategy : Strategy) (source : Text) :
    byteSize (weave strategy source).text ≤ byteSize source := by
  cases strategy with
  | lexical =>
      have h := Script.byteSize_text_weaveRegions_le none
        (Script.regions source)
      rwa [Script.regions, Script.Progress.joined_regions] at h
  | textual =>
      rw [weave, text_weaveQuoted]
      exact byteSize_le_of_sublist (Comment.strip_sublist source)

/-! ## Bytes saved -/

/-- Below half of the word range the bytes saved are the difference. -/
theorem SizeReport.toInt_saved {r : SizeReport} (hsource : r.source < 2 ^ 63)
    (hle : r.minified ≤ r.source) : r.saved.toInt = r.source - r.minified := by
  have hminified : r.minified < 2 ^ 63 := by omega
  rw [SizeReport.saved, Int64.toInt_sub, Int64.toInt_ofNat_of_lt hsource,
    Int64.toInt_ofNat_of_lt hminified]
  exact Int.bmod_eq_of_le (by omega) (by omega)

/-- Four short literals, whose placeholders take more room than the script. -/
def terseSource : Text := "f('',\"\" , `` , /é/ ) // é".toList

/-- **Minifying never makes a script larger**, if no gap of the prepared text
holds the opening of a placeholder. The report gives the sizes of the script and
of the output, and the bytes it saves are their difference. -/
theorem report_minify_le (strategy : Strategy) (source : Text)
    (hgaps : ∀ gap ∈ (weave strategy source).gaps, HasNoOpening gap) :
    (Minifier.minify { strategy } source).report.source = byteSize source ∧
    (Minifier.minify { strategy } source).report.minified =
      byteSize (Minifier.minify { strategy } source).output ∧
    byteSize (Minifier.minify { strategy } source).output ≤ byteSize source ∧
    (byteSize source < 2 ^ 63 →
      (Minifier.minify { strategy } source).report.saved.toInt =
        byteSize source -
          byteSize (Minifier.minify { strategy } source).output ∧
      0 ≤ (Minifier.minify { strategy } source).report.saved) := by
  have hle : byteSize (Minifier.minify { strategy } source).output ≤
      byteSize source := by
    calc byteSize (minify strategy source)
        = byteSize (trim ((weave strategy source).mapGaps compress).text) := by
          rw [minify_of_masked (text_prepare strategy source)
            (literals_prepare strategy source) hgaps]
      _ ≤ byteSize ((weave strategy source).mapGaps compress).text :=
          byteSize_le_of_sublist (trim_sublist _)
      _ ≤ byteSize (weave strategy source).text :=
          Woven.byteSize_text_mapGaps_le byteSize_compress_le _
      _ ≤ byteSize source := byteSize_text_weave_le strategy source
  refine ⟨rfl, rfl, hle, fun hsource => ?_⟩
  have hsaved : (Minifier.minify { strategy } source).report.saved.toInt =
      byteSize source -
        byteSize (Minifier.minify { strategy } source).output :=
    SizeReport.toInt_saved hsource hle
  refine ⟨hsaved, Int64.le_iff_toInt_le.mpr ?_⟩
  rw [Int64.toInt_zero]
  omega

/-- The prepared text is larger than the script here, and the output is not. -/
theorem report_minify_le_terseSource :
    (∀ gap ∈ (weave .lexical terseSource).gaps, HasNoOpening gap) ∧
    byteSize terseSource < byteSize (prepare .lexical terseSource).text ∧
    (Minifier.minify { strategy := .lexical } terseSource).report.saved =
      11 := by
  have hgaps : ∀ gap ∈ (weave .lexical terseSource).gaps,
      HasNoOpening gap := by decide +kernel
  have houtput : (Minifier.minify { strategy := .lexical } terseSource).output =
      "f('',\"\",``,/é/)".toList :=
    (minify_of_masked (text_prepare _ _) (literals_prepare _ _) hgaps).trans
      (by decide +kernel)
  have hsize : byteSize terseSource = 27 := by decide +kernel
  obtain ⟨-, -, -, hsaved⟩ := report_minify_le .lexical terseSource hgaps
  refine ⟨hgaps, by decide +kernel, ?_⟩
  rw [← Int64.toInt_inj, (hsaved (by omega)).1, houtput, hsize]
  rfl

end ScriptMinifier
