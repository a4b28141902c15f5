import ScriptMinifier.Minifier
import ScriptMinifier.Proofs.Regions

/-!
# The output as gaps and literals

Preparing a script leaves gaps of code with placeholders in between. `weave`
gives the gaps and the literals for both strategies, and the output of
minifying is read off them: compress each gap, keep each literal, trim the ends.
-/

namespace ScriptMinifier

open Text Spacing

/-! ## Gaps of a script read from left to right -/

namespace Script

/-- The gaps between the literals of regions, with `before` as the last
character emitted so far. Comments count for what they leave behind. -/
def weaveRegions (before : Option Char) : List Region → Woven Text
  | [] => .last []
  | r :: regions =>
      match r.kind with
      | .code => (weaveRegions r.text.getLast? regions).prepend r.text
      | .literal =>
          .cons [] r.text (weaveRegions placeholderClosing.getLast? regions)
      | .comment =>
          let trace := commentTrace r.text before (joined regions).head?
          (weaveRegions (trace.getLast?.or before) regions).prepend trace

theorem getLast?_placeholder (n : Nat) :
    (placeholder n).getLast? = placeholderClosing.getLast? := by
  rw [placeholder, placeholderClosing_eq]
  simp

theorem head?_reverse_placeholder (n : Nat) (s : Text) :
    ((placeholder n).reverse ++ s).head? = some '_' := by
  rw [List.head?_append, List.head?_reverse, getLast?_placeholder,
    placeholderClosing_eq]
  rfl

theorem Tokens.code_addAll (t : Tokens) (regions : List Region) :
    (t.addAll regions).code = t.code ++
      (weaveRegions t.code.getLast? regions).masked t.literals.size := by
  induction regions generalizing t with
  | nil => simp [Tokens.addAll, weaveRegions]
  | cons r regions ih =>
      rw [Tokens.addAll, ih]
      cases hkind : r.kind with
      | code =>
          have hlast : (t.code ++ r.text).getLast? = r.text.getLast? := by
            obtain ⟨s, c, hs⟩ :=
              (List.eq_nil_or_concat r.text).resolve_left r.nonempty
            simp [hs]
          simp [Tokens.add, weaveRegions, hkind, hlast]
      | literal =>
          simp [Tokens.add, weaveRegions, hkind, getLast?_placeholder,
            placeholderClosing_eq]
      | comment =>
          simp [Tokens.add, weaveRegions, hkind, List.getLast?_append]

theorem items_weaveRegions (before : Option Char) (regions : List Region) :
    (weaveRegions before regions).items =
      (regions.filter (·.kind = .literal)).map Region.text := by
  induction regions generalizing before with
  | nil => rfl
  | cons r regions ih =>
      cases hkind : r.kind <;>
        simp [weaveRegions, hkind, Woven.items, ih]

end Script

/-! ## Gaps between quotes -/

/-- The rest of the literal that `c` opens in front of `cs`, if it opens one. -/
def quotedLength? (c : Char) (cs : Text) : Option Nat :=
  if isQuote c then nextQuote? cs else none

/-- The gaps between the quoted literals of a text. -/
def weaveQuoted : Text → Woven Text
  | [] => .last []
  | c :: cs =>
      match quotedLength? c cs with
      | some n => .cons [] (c :: cs.take n) (weaveQuoted (cs.drop n))
      | none => (weaveQuoted cs).prepend [c]
termination_by s => s.length
decreasing_by all_goals simp only [List.length_drop, List.length_cons]; omega

theorem protectFrom_skip : ∀ (s : Text) (table : LiteralTable) (n : Nat),
    protectFrom table n s = protectFrom table 0 (s.drop n)
  | [], table, n => by simp [protectFrom]
  | c :: cs, table, 0 => rfl
  | c :: cs, table, n + 1 => by
      rw [protectFrom, protectFrom_skip cs table n]
      rfl

theorem protectFrom_cons (table : LiteralTable) (c : Char) (cs : Text) :
    protectFrom table 0 (c :: cs) =
      match quotedLength? c cs with
      | some n =>
          (placeholder table.size ++
            (protectFrom (table.push (c :: cs.take n)) 0 (cs.drop n)).1,
            (protectFrom (table.push (c :: cs.take n)) 0 (cs.drop n)).2)
      | none =>
          (c :: (protectFrom table 0 cs).1, (protectFrom table 0 cs).2) := by
  rw [protectFrom]
  show (match quotedLength? c cs with | some n => _ | none => _) = _
  cases quotedLength? c cs with
  | none => rfl
  | some n => simp only [protectFrom_skip cs _ n]

theorem protectFrom_eq (s : Text) (table : LiteralTable) :
    (protectFrom table 0 s).1 = (weaveQuoted s).masked table.size ∧
    (protectFrom table 0 s).2.toList =
      table.toList ++ (weaveQuoted s).items := by
  fun_induction weaveQuoted s generalizing table with
  | case1 => simp [protectFrom, Woven.items]
  | case2 c cs n h ih =>
      obtain ⟨htext, hitems⟩ := ih (table.push (c :: cs.take n))
      rw [protectFrom_cons, h]
      simp [htext, hitems, Woven.items]
  | case3 c cs h ih =>
      obtain ⟨htext, hitems⟩ := ih table
      rw [protectFrom_cons, h]
      simp [htext, hitems]

/-! ## Gaps for both strategies -/

/-- The gaps and the literals that preparing a script leaves. -/
def weave : Strategy → Text → Woven Text
  | .lexical, source => Script.weaveRegions none (Script.regions source)
  | .textual, source => weaveQuoted (Comment.strip source)

theorem text_prepare (strategy : Strategy) (source : Text) :
    (prepare strategy source).text = (weave strategy source).masked 0 := by
  cases strategy with
  | lexical =>
      show (Script.tokenize source).code = _
      rw [Script.tokenize_eq, Script.Tokens.code_addAll]
      rfl
  | textual => exact (protectFrom_eq (Comment.strip source) {}).1

theorem literals_prepare (strategy : Strategy) (source : Text) :
    (prepare strategy source).literals.toList =
      (weave strategy source).items := by
  cases strategy with
  | lexical =>
      show (Script.tokenize source).literals.toList = _
      rw [Script.tokenize_eq, Script.Tokens.literals_addAll, weave,
        Script.items_weaveRegions]
      rfl
  | textual => exact (protectFrom_eq (Comment.strip source) {}).2

/-! ## The output -/

theorem replaceFrom_eq_self {rule : Rule} (h : ∀ b s, rule b s = none) :
    ∀ (s : Text) (before : Option Char), replaceFrom rule before 0 s = s
  | [], _ => by rw [replaceFrom]
  | c :: cs, before => by
      rw [replaceFrom_of_none (h before _), replaceFrom_eq_self h cs]

theorem Renamer.apply_empty (code : Text) : Renamer.apply {} code = code :=
  replaceFrom_eq_self (fun _ _ => rfl) code none

/-- A map gives the same names to both strategies. -/
theorem Minifier.withRenames_eq (strategy : Strategy) (map : RenameMap)
    (accepts : Renamer → Bool) :
    Minifier.withRenames { strategy } map accepts =
      { strategy,
        renamer := (Minifier.withRenames {} map accepts).renamer } := by
  unfold Minifier.withRenames
  split <;> rfl

/-- However the prepared text falls into gaps and placeholders, the output
follows from the gaps. -/
theorem minify_of_masked {strategy : Strategy} {source : Text}
    {w : Woven Text} (htext : (prepare strategy source).text = w.masked 0)
    (hitems : (prepare strategy source).literals.toList = w.items)
    (hgaps : ∀ gap ∈ w.gaps, HasNoOpening gap) :
    minify strategy source = trim (w.mapGaps compress).text := by
  have hcompressed : ∀ gap ∈ (w.mapGaps compress).gaps, HasNoOpening gap :=
    Woven.forall_gaps_mapGaps (fun _ hg => hg.compress) hgaps
  show trim ((prepare strategy source).literals.restore
    (Renamer.apply {} (compress (prepare strategy source).text))) = _
  rw [Renamer.apply_empty, htext, compress_masked,
    LiteralTable.restore_masked (by simpa using hitems) hcompressed]

/-- Comments of both kinds, and literals that hold a comment mark, a quote and
the text of a placeholder. -/
def mixedSource : Text :=
  "say( 'it\\'s // __STRING_1__' , `a  b` ) /* c\n */ ; // end".toList

/-- **The output equation.** Preparing a script leaves the gaps and literals of
`weave`. If no gap holds the opening of a placeholder, the output is the
compressed gaps with the literals verbatim in between, trimmed. -/
theorem output_eq_trim_weave (strategy : Strategy) (source : Text) :
    (prepare strategy source).text = (weave strategy source).masked 0 ∧
    (prepare strategy source).literals.toList =
      (weave strategy source).items ∧
    ((∀ gap ∈ (weave strategy source).gaps, HasNoOpening gap) →
      (Minifier.minify { strategy } source).output =
        trim ((weave strategy source).mapGaps compress).text ∧
      (Minifier.minify { strategy } source).prepared.literals.size =
        (weave strategy source).items.length) := by
  refine ⟨text_prepare strategy source, literals_prepare strategy source, ?_⟩
  intro hgaps
  refine ⟨minify_of_masked (text_prepare strategy source)
    (literals_prepare strategy source) hgaps, ?_⟩
  rw [← literals_prepare]
  rfl

theorem output_eq_trim_weave_mixedSource :
    (∀ gap ∈ (weave .lexical mixedSource).gaps, HasNoOpening gap) ∧
    (Minifier.minify { strategy := .lexical } mixedSource).output =
      "say('it\\'s // __STRING_1__',`a  b`);".toList ∧
    (Minifier.minify { strategy := .lexical }
      mixedSource).prepared.literals.size = 2 := by
  have hgaps : ∀ gap ∈ (weave .lexical mixedSource).gaps,
      HasNoOpening gap := by decide +kernel
  obtain ⟨houtput, hsize⟩ :=
    (output_eq_trim_weave .lexical mixedSource).2.2 hgaps
  exact ⟨hgaps, houtput.trans (by decide +kernel),
    hsize.trans (by decide +kernel)⟩

end ScriptMinifier
