import ScriptMinifier.Proofs.Comments
import ScriptMinifier.Proofs.Pairing
import ScriptMinifier.Proofs.Relexing

/-!
# Minifying twice

The output of minifying is woven from the same literals, with tidy gaps: each
gap is compressed, and the ends of the text are trimmed. If the gaps hold no
slash, preparing the output finds the same literals and no comments, so a second
run changes nothing.
-/

namespace ScriptMinifier

open Spacing Script

/-! ## Trimming woven text -/

/-- The text is not empty and has no blanks at its ends. -/
structure Solid (s : Text) : Prop where
  ne_nil : s ≠ []
  head : s.head?.any isBlank = false
  getLast : s.getLast?.any isBlank = false

theorem Solid.of_ends {q r : Char} (hq : isBlank q = false)
    (hr : isBlank r = false) (body : Text) : Solid (q :: (body ++ [r])) := by
  refine ⟨by simp, by simpa using hq, ?_⟩
  rw [← List.cons_append, List.getLast?_concat]
  simpa using hr

theorem dropWhile_isBlank_append {t : Text} (hne : t ≠ [])
    (hhead : t.head?.any isBlank = false) (s rest : Text) :
    (s ++ (t ++ rest)).dropWhile isBlank =
      s.dropWhile isBlank ++ (t ++ rest) := by
  induction s with
  | nil =>
      obtain ⟨c, t', rfl⟩ := List.exists_cons_of_ne_nil hne
      have hc : ¬ isBlank c = true := by simpa using hhead
      simp [hc]
  | cons d s ih =>
      rw [List.cons_append]
      cases hd : isBlank d with
      | true =>
          rw [List.dropWhile_cons_of_pos hd, List.dropWhile_cons_of_pos hd, ih]
      | false =>
          have hneg : ¬ isBlank d = true := by simp [hd]
          rw [List.dropWhile_cons_of_neg hneg, List.dropWhile_cons_of_neg hneg,
            List.cons_append]

theorem rdropWhile_isBlank_append {t : Text} (ht : Solid t) (s rest : Text) :
    (s ++ (t ++ rest)).rdropWhile isBlank =
      s ++ (t ++ rest.rdropWhile isBlank) := by
  obtain ⟨t, c, rfl⟩ := (List.eq_nil_or_concat' t).resolve_left ht.ne_nil
  have hc : isBlank c = false := by simpa using ht.getLast
  have hassoc : ∀ u : Text, s ++ (t ++ [c] ++ u) = s ++ t ++ c :: u := by simp
  rw [hassoc, hassoc, rdropWhile_append_cons hc]

namespace Woven

theorem dropWhile_text {w : Woven Text}
    (h : ∀ item ∈ w.items, item ≠ [] ∧ item.head?.any isBlank = false) :
    w.text.dropWhile isBlank =
      (w.mapFirst (·.dropWhile isBlank)).text := by
  cases w with
  | last gap => rfl
  | cons gap item rest =>
      obtain ⟨hne, hhead⟩ := h item (by simp [items])
      exact dropWhile_isBlank_append hne hhead _ _

theorem rdropWhile_text {w : Woven Text} (h : ∀ item ∈ w.items, Solid item) :
    w.text.rdropWhile isBlank =
      (w.mapLast (·.rdropWhile isBlank)).text := by
  induction w with
  | last gap => rfl
  | cons gap item rest ih =>
      rw [items, List.forall_mem_cons] at h
      rw [text_cons, rdropWhile_isBlank_append h.1, ih h.2]
      rfl

/-- Every gap compressed, and no blanks at the two ends. -/
def tidy (w : Woven Text) : Woven Text :=
  ((w.mapGaps compress).mapFirst (·.dropWhile isBlank)).mapLast
    (·.rdropWhile isBlank)

@[simp] theorem items_tidy (w : Woven Text) : w.tidy.items = w.items := by
  simp [tidy]

theorem text_tidy {w : Woven Text} (h : ∀ item ∈ w.items, Solid item) :
    w.tidy.text = trim (w.mapGaps compress).text := by
  have hheads : ∀ item ∈ (w.mapGaps compress).items,
      item ≠ [] ∧ item.head?.any isBlank = false := by
    rw [items_mapGaps]
    exact fun item hitem => ⟨(h item hitem).ne_nil, (h item hitem).head⟩
  rw [trim_eq, dropWhile_text hheads, rdropWhile_text (by simpa using h)]
  rfl

/-- What holds of compressed gaps and of parts of them holds of tidy gaps. -/
theorem forall_gaps_tidy {P Q : Text → Prop}
    (hcompress : ∀ g, P g → Q (compress g))
    (hdrop : ∀ g, Q g → Q (g.dropWhile isBlank))
    (hrdrop : ∀ g, Q g → Q (g.rdropWhile isBlank)) {w : Woven Text}
    (h : ∀ g ∈ w.gaps, P g) : ∀ g ∈ w.tidy.gaps, Q g :=
  forall_gaps_mapLast hrdrop (forall_gaps_mapFirst hdrop
    (forall_gaps_mapGaps hcompress h))

theorem compress_gaps_tidy (w : Woven Text) :
    ∀ g ∈ w.tidy.gaps, compress g = g :=
  forall_gaps_tidy (P := fun _ => True) (Q := fun g => compress g = g)
    (fun g _ => compress_compress g)
    (fun _ h => compress_dropWhile_isBlank h)
    (fun _ h => compress_rdropWhile_isBlank h) (fun _ _ => trivial)

theorem hasNoOpening_tidy {w : Woven Text}
    (h : ∀ g ∈ w.gaps, HasNoOpening g) : ∀ g ∈ w.tidy.gaps, HasNoOpening g :=
  forall_gaps_tidy (fun _ hg => hg.compress)
    (fun _ hg hin => hg (hin.trans (List.dropWhile_suffix _).isInfix))
    (fun _ hg hin => hg (hin.trans (List.rdropWhile_prefix _ _).isInfix)) h

/-- Tidying brings in no characters but spaces. -/
theorem forall_mem_tidy {P : Char → Prop} (hspace : P ' ') {w : Woven Text}
    (h : ∀ g ∈ w.gaps, ∀ c ∈ g, P c) : ∀ g ∈ w.tidy.gaps, ∀ c ∈ g, P c := by
  refine forall_gaps_tidy ?_ ?_ ?_ h
  · intro g hg c hc
    rcases mem_compress hc with hc | rfl
    · exact hg c hc
    · exact hspace
  · exact fun g hg c hc => hg c ((List.dropWhile_suffix _).subset hc)
  · exact fun g hg c hc => hg c ((List.rdropWhile_prefix _ _).subset hc)

end Woven

theorem trim_trim (s : Text) : trim (trim s) = trim s := by
  have hhead : ∀ t : Text, t.head?.any isBlank = false →
      (t.rdropWhile isBlank).dropWhile isBlank = t.rdropWhile isBlank := by
    intro t ht
    cases t with
    | nil => rfl
    | cons c t =>
        have hc : isBlank c = false := by simpa using ht
        rcases List.prefix_cons_iff.mp (List.rdropWhile_prefix isBlank (c :: t))
          with hnil | ⟨u, hu, -⟩
        · rw [hnil]
          rfl
        · rw [hu, List.dropWhile_cons_of_neg (by simp [hc])]
  rw [trim_eq, trim_eq, hhead _ (Text.any_head?_dropWhile isBlank s),
    List.rdropWhile_idempotent]

/-! ## The second run -/

/-- If preparing tidy text gives back what it is woven from, minifying it
changes nothing. -/
theorem minify_tidy {strategy : Strategy} {w : Woven Text}
    (hsolid : ∀ item ∈ w.items, Solid item)
    (hgaps : ∀ g ∈ w.gaps, HasNoOpening g)
    (htext : (prepare strategy w.tidy.text).text = w.tidy.masked 0)
    (hitems : (prepare strategy w.tidy.text).literals.toList = w.tidy.items) :
    minify strategy w.tidy.text = w.tidy.text := by
  rw [minify_of_masked htext hitems (Woven.hasNoOpening_tidy hgaps),
    Woven.mapGaps_eq_self w.compress_gaps_tidy, Woven.text_tidy hsolid,
    trim_trim]

/-! ## Read from left to right -/

theorem Script.ClosedLiteral.solid {literal : Text}
    (h : ClosedLiteral literal) : Solid literal := by
  cases h with
  | @string q body hq hbody =>
      have hblank : isBlank q = false := by rcases hq with rfl | rfl <;> decide
      exact .of_ends hblank hblank _
  | template hbody => exact .of_ends (by decide) (by decide) _

/-- The gaps of a script hold no quotes: code has none, and a comment leaves a
line feed or a space at most. -/
theorem Script.gaps_weaveRegions {regions : List Region}
    (h : ∀ r ∈ regions, r.Shaped) (before : Option Char) :
    ∀ g ∈ (weaveRegions before regions).gaps, ∀ c ∈ g,
      c ≠ '\'' ∧ c ≠ '"' ∧ c ≠ '`' := by
  induction regions generalizing before with
  | nil => simp [weaveRegions, Woven.gaps]
  | cons r regions ih =>
      rw [List.forall_mem_cons] at h
      obtain ⟨hr, hregions⟩ := h
      unfold Region.Shaped at hr
      unfold weaveRegions
      cases hkind : r.kind with
      | code =>
          rw [hkind] at hr
          exact Woven.forall_gaps_prepend hr (ih hregions _)
      | literal =>
          rw [Woven.gaps, List.forall_mem_cons]
          exact ⟨by simp, ih hregions _⟩
      | comment =>
          refine Woven.forall_gaps_prepend ?_ (ih hregions _)
          intro c hc
          unfold commentTrace at hc
          split at hc
          · rw [List.mem_singleton.mp hc]
            decide
          · split at hc
            · rw [List.mem_singleton.mp hc]
              decide
            · simp at hc

theorem minify_tidy_lexical {source : Text}
    (hgaps : ∀ g ∈ (weave .lexical source).gaps, '/' ∉ g ∧ HasNoOpening g)
    (hclosed : ∀ literal ∈ (weave .lexical source).items,
      ClosedLiteral literal) :
    minify .lexical (weave .lexical source).tidy.text =
      (weave .lexical source).tidy.text := by
  have hcode : ∀ g ∈ (weave .lexical source).tidy.gaps, ∀ c ∈ g,
      isCodeChar c = true := by
    refine Woven.forall_mem_tidy (by decide) fun g hg c hc => ?_
    obtain ⟨hsingle, hdouble, hback⟩ :=
      gaps_weaveRegions (Progress.regions_shaped {} source) none g hg c hc
    have hslash : c ≠ '/' := fun h => (hgaps g hg).1 (h ▸ hc)
    simp [isCodeChar, hsingle, hdouble, hback, hslash]
  obtain ⟨htext, hitems⟩ := tokenize_woven hcode (by simpa using hclosed)
  exact minify_tidy (fun l hl => (hclosed l hl).solid)
    (fun g hg => (hgaps g hg).2) htext hitems

/-! ## Read by patterns -/

theorem QuotedLiteral.solid {literal : Text} (h : QuotedLiteral literal) :
    Solid literal := by
  cases h with
  | mk hq hbody hr =>
      exact .of_ends (not_isBlank_of_isQuote hq) (not_isBlank_of_isQuote hr) _

theorem QuotedLiteral.head?_append_ne {literal : Text}
    (h : QuotedLiteral literal) (s : Text) {c : Char} (hc : isQuote c = false) :
    (literal ++ s).head? ≠ some c := by
  cases h with
  | mk hq hbody hr =>
      rintro heq
      obtain rfl : _ = c := by simpa using heq
      exact absurd hq (by simp [hc])

theorem QuotedLiteral.getLast?_ne {literal : Text} (h : QuotedLiteral literal)
    {c : Char} (hc : isQuote c = false) : literal.getLast? ≠ some c := by
  cases h with
  | mk hq hbody hr =>
      rw [← List.cons_append, List.getLast?_concat]
      rintro heq
      obtain rfl : _ = c := by simpa using heq
      exact absurd hr (by simp [hc])

/-- Gaps without slashes, and quoted literals: all comment marks stand inside
the literals. -/
structure Sheltered (w : Woven Text) : Prop where
  gaps : ∀ g ∈ w.gaps, '/' ∉ g
  items : ∀ literal ∈ w.items, QuotedLiteral literal

theorem Sheltered.of_cons {gap literal : Text} {w : Woven Text}
    (h : Sheltered (.cons gap literal w)) :
    '/' ∉ gap ∧ QuotedLiteral literal ∧ Sheltered w :=
  ⟨h.gaps gap (by simp [Woven.gaps]), h.items literal (by simp [Woven.items]),
    fun g hg => h.gaps g (List.mem_cons_of_mem _ hg),
    fun l hl => h.items l (List.mem_cons_of_mem _ hl)⟩

/-- The gaps make no marks, neither of their own nor with their neighbours. -/
theorem Sheltered.pair_text_iff {a b : Char} (hslash : a = '/' ∨ b = '/')
    (ha : isQuote a = false) (hb : isQuote b = false) {w : Woven Text}
    (h : Sheltered w) : [a, b] <:+: w.text ↔ [a, b] <:+: w.items.flatten := by
  have hgap : ∀ g : Text, '/' ∉ g → ¬ [a, b] <:+: g := by
    intro g hg hin
    have hmem : '/' ∈ [a, b] := by rcases hslash with rfl | rfl <;> simp
    exact hg (hin.subset hmem)
  induction w with
  | last gap =>
      have hnone := hgap gap (h.gaps gap (by simp [Woven.gaps]))
      simp [Woven.items, hnone]
  | cons gap literal w ih =>
      obtain ⟨hg, hliteral, hw⟩ := h.of_cons
      have hhead := hliteral.head?_append_ne w.text hb
      have hlast := hliteral.getLast?_ne ha
      have hrest : [a, b] <:+: w.text ↔ [a, b] <:+: w.items.flatten := ih hw
      rw [Woven.text_cons, Woven.items, List.flatten_cons,
        pair_isInfix_append_iff, pair_isInfix_append_iff,
        pair_isInfix_append_iff, hrest]
      simp only [hgap gap hg, hhead, hlast, and_false, false_and, or_false,
        false_or]

/-- The gaps open no comment, and no mark lies across an end of a literal. -/
theorem Sheltered.hasBlock_text_iff {w : Woven Text} (h : Sheltered w) :
    Comment.HasBlock w.text ↔ Comment.HasBlock w.items.flatten := by
  have hgap : ∀ g : Text, '/' ∉ g → ¬ Comment.HasBlock g := by
    intro g hg hblock
    have hclose := Comment.closeMark_of_hasBlock hblock
    exact hg (hclose.subset (by simp [closeMark]))
  induction w with
  | last gap =>
      have hnone := hgap gap (h.gaps gap (by simp [Woven.gaps]))
      simp [Woven.items, hnone, Comment.not_hasBlock_nil]
  | cons gap literal w ih =>
      obtain ⟨hg, hliteral, hw⟩ := h.of_cons
      have hrest : Comment.HasBlock w.text ↔
          Comment.HasBlock w.items.flatten := ih hw
      have hopen : ¬ openMark <:+: gap := not_pair_isInfix_of_not_mem hg
      have hclose : closeMark <:+: w.text ↔ closeMark <:+: w.items.flatten :=
        hw.pair_text_iff (Or.inr rfl) (by decide) (by decide)
      have hhead := hliteral.head?_append_ne w.text (c := '/') (by decide)
      have hhead' := hliteral.head?_append_ne w.text (c := '*') (by decide)
      have hlast := hliteral.getLast?_ne (c := '/') (by decide)
      have hlast' := hliteral.getLast?_ne (c := '*') (by decide)
      rw [Woven.text_cons, Woven.items, List.flatten_cons,
        Comment.hasBlock_append_iff (fun hx => hhead' hx.2)
          (fun hx => hhead hx.2),
        Comment.hasBlock_append_iff (fun hx => hlast hx.1)
          (fun hx => hlast' hx.1),
        Comment.hasBlock_append_iff (fun hx => hlast hx.1)
          (fun hx => hlast' hx.1), hrest, hclose]
      simp only [hgap gap hg, hopen, false_and, or_false, false_or]

theorem Paired.tidy {w : Woven Text} (h : Paired w) : Paired w.tidy := by
  have hdrop : ∀ g : Text,
      (g.dropWhile isBlank).countP isQuote ≤ g.countP isQuote :=
    fun g => (List.dropWhile_suffix _).sublist.countP_le
  have hrdrop : ∀ g : Text,
      (g.rdropWhile isBlank).countP isQuote ≤ g.countP isQuote :=
    fun g => (List.rdropWhile_prefix _ _).sublist.countP_le
  exact ((h.mapGaps fun g => (countP_isQuote_compress g).le).mapFirst
    hdrop).mapLast hrdrop

/-- Tidy text has the comment marks that it had before: none. -/
theorem strip_tidy {source : Text}
    (hgaps : ∀ g ∈ (weave .textual source).gaps, '/' ∉ g) :
    Comment.strip (weave .textual source).tidy.text =
      (weave .textual source).tidy.text := by
  have hpaired : Paired (weave .textual source) := paired_weaveQuoted _
  have hbefore : Sheltered (weave .textual source) :=
    ⟨hgaps, hpaired.quotedLiteral⟩
  have hafter : Sheltered (weave .textual source).tidy := by
    refine ⟨fun g hg hmem => ?_, by simpa using hpaired.quotedLiteral⟩
    exact Woven.forall_mem_tidy (P := (· ≠ '/')) (by decide)
      (fun g hg c hc heq => hgaps g hg (heq ▸ hc)) g hg '/' hmem rfl
  have htext : (weave .textual source).text = Comment.strip source :=
    text_weaveQuoted _
  apply Comment.strip_eq_self
  · rw [lineMark, hafter.pair_text_iff (Or.inl rfl) (by decide) (by decide),
      Woven.items_tidy,
      ← hbefore.pair_text_iff (Or.inl rfl) (by decide) (by decide), htext]
    exact Comment.not_lineMark_strip source
  · rw [hafter.hasBlock_text_iff, Woven.items_tidy,
      ← hbefore.hasBlock_text_iff, htext]
    exact Comment.not_hasBlock_strip source

theorem minify_tidy_textual {source : Text}
    (hgaps : ∀ g ∈ (weave .textual source).gaps, '/' ∉ g ∧ HasNoOpening g) :
    minify .textual (weave .textual source).tidy.text =
      (weave .textual source).tidy.text := by
  have hpaired : Paired (weave .textual source) := paired_weaveQuoted _
  have hweave : weave .textual (weave .textual source).tidy.text =
      (weave .textual source).tidy := by
    show weaveQuoted (Comment.strip _) = _
    rw [strip_tidy (fun g hg => (hgaps g hg).1), weaveQuoted_text hpaired.tidy]
  refine minify_tidy (fun l hl => (hpaired.quotedLiteral l hl).solid)
    (fun g hg => (hgaps g hg).2) ?_ ?_
  · rw [text_prepare, hweave]
  · rw [literals_prepare, hweave]

/-! ## Both strategies -/

/-- **Minifying twice is minifying once**, if the gaps hold neither slashes nor
openings of placeholders, and, where literals are read from left to right, each
of them is closed. -/
theorem minify_minify (strategy : Strategy) (source : Text)
    (hgaps : ∀ gap ∈ (weave strategy source).gaps,
      '/' ∉ gap ∧ HasNoOpening gap)
    (hclosed : strategy = .lexical →
      ∀ literal ∈ (weave strategy source).items, ClosedLiteral literal) :
    minify strategy (minify strategy source) = minify strategy source := by
  have houtput : minify strategy source =
      trim ((weave strategy source).mapGaps compress).text :=
    minify_of_masked (text_prepare strategy source)
      (literals_prepare strategy source) (fun g hg => (hgaps g hg).2)
  cases strategy with
  | lexical =>
      have hsolid := fun l hl => (hclosed rfl l hl).solid
      rw [houtput, ← Woven.text_tidy hsolid]
      exact minify_tidy_lexical hgaps (hclosed rfl)
  | textual =>
      have hpaired : Paired (weave .textual source) := paired_weaveQuoted _
      have hsolid := fun l hl => (hpaired.quotedLiteral l hl).solid
      rw [houtput, ← Woven.text_tidy hsolid]
      exact minify_tidy_textual hgaps

theorem minify_minify_mixedSource :
    (∀ gap ∈ (weave .lexical mixedSource).gaps,
      '/' ∉ gap ∧ HasNoOpening gap) ∧
    (∀ literal ∈ (weave .lexical mixedSource).items, ClosedLiteral literal) ∧
    minify .lexical (minify .lexical mixedSource) =
      minify .lexical mixedSource := by
  have hgaps : ∀ gap ∈ (weave .lexical mixedSource).gaps,
      '/' ∉ gap ∧ HasNoOpening gap := by decide +kernel
  have hitems : (weave .lexical mixedSource).items =
      ["'it\\'s // __STRING_1__'".toList, "`a  b`".toList] := by
    decide +kernel
  have hclosed : ∀ literal ∈ (weave .lexical mixedSource).items,
      ClosedLiteral literal := by
    have hend : Inside ['\'', '\n'] "s // __STRING_1__".toList :=
      inside_of_forall (by simp)
    have hstring : Inside ['\'', '\n'] "it\\'s // __STRING_1__".toList :=
      .plain (by decide) (by decide)
        (.plain (by decide) (by decide) (.escape hend))
    have htemplate : Inside ['`'] "a  b".toList := inside_of_forall (by simp)
    simp only [hitems, List.forall_mem_cons, List.not_mem_nil, false_implies,
      implies_true, and_true]
    exact ⟨.string (Or.inl rfl) hstring, .template htemplate⟩
  exact ⟨hgaps, hclosed, minify_minify .lexical mixedSource hgaps
    fun _ => hclosed⟩

end ScriptMinifier
