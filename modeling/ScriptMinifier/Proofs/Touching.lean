import ScriptMinifier.Proofs.Classes
import ScriptMinifier.Proofs.Weaving
import ScriptMinifier.Proofs.Words

/-!
# Names that touch a literal

While names are replaced, placeholders stand for the literals. A placeholder is
made of word characters, so a name with a literal right before or behind it is
part of a longer word and stays as it is. Everywhere else renaming treats a gap
as if it stood alone.
-/

namespace ScriptMinifier

open Text Spacing

/-! ## Gaps cut at their ends -/

/-- A gap in three parts: the word that touches an item on the left, the word
that touches an item on the right, and what is between them. -/
structure Cut where
  lead : Text
  core : Text
  trail : Text

/-- Cuts a gap with items on the given sides. -/
def cut (left right : Bool) (gap : Text) : Cut :=
  let lead := if left then gap.takeWhile isWordChar else []
  let rest := if left then gap.dropWhile isWordChar else gap
  { lead
    core := if right then rest.rdropWhile isWordChar else rest
    trail := if right then rest.rtakeWhile isWordChar else [] }

/-- The gap with `f` applied between its two ends. -/
def Cut.mapCore (f : Text → Text) (c : Cut) : Text :=
  c.lead ++ (f c.core ++ c.trail)

/-- What a cut is like. -/
structure Cut.Fits (left right : Bool) (gap : Text) (c : Cut) : Prop where
  eq : gap = c.lead ++ (c.core ++ c.trail)
  lead_word : IsWord c.lead
  trail_word : IsWord c.trail
  lead_nil : left = false → c.lead = []
  trail_nil : right = false → c.trail = []
  lead_edge : left = true → (c.core ++ c.trail).head?.any isWordChar = false
  trail_edge : right = true → c.core.getLast?.any isWordChar = false

theorem any_getLast?_rdropWhile (p : Char → Bool) (s : Text) :
    (s.rdropWhile p).getLast?.any p = false := by
  rw [List.rdropWhile, List.getLast?_reverse]
  exact any_head?_dropWhile p s.reverse

theorem cut_fits (left right : Bool) (gap : Text) :
    (cut left right gap).Fits left right gap := by
  have hrest : (cut left right gap).core ++ (cut left right gap).trail =
      if left then gap.dropWhile isWordChar else gap := by
    cases right with
    | false => exact List.append_nil _
    | true => exact List.rdropWhile_append_rtakeWhile
  constructor
  · rw [hrest]
    cases left with
    | false => rfl
    | true => exact List.takeWhile_append_dropWhile.symm
  · cases left with
    | false => simp [IsWord, cut]
    | true => exact List.all_eq_true.mp List.all_takeWhile
  · cases right with
    | false => simp [IsWord, cut]
    | true => exact fun c hc => List.mem_rtakeWhile_imp hc
  · rintro rfl
    rfl
  · rintro rfl
    rfl
  · rintro rfl
    rw [hrest]
    exact any_head?_dropWhile isWordChar gap
  · rintro rfl
    exact any_getLast?_rdropWhile isWordChar _

namespace Cut.Fits

variable {left right : Bool} {gap : Text} {c : Cut}

theorem apart_trail (h : c.Fits left right gap) : Apart c.core c.trail := by
  cases right with
  | false => exact Or.inr (by rw [h.trail_nil rfl]; rfl)
  | true => exact Or.inl (h.trail_edge rfl)

theorem apart_lead (h : c.Fits left right gap) :
    Apart c.lead (c.core ++ c.trail) := by
  cases left with
  | false => exact Or.inl (by rw [h.lead_nil rfl]; rfl)
  | true => exact Or.inr (h.lead_edge rfl)

/-- Behind a word on the left there is no second one with nothing between. -/
theorem trail_nil_of_core (h : c.Fits true right gap) (hcore : c.core = []) :
    c.trail = [] := by
  have hedge := h.lead_edge rfl
  rw [hcore, List.nil_append] at hedge
  cases htrail : c.trail with
  | nil => rfl
  | cons d t =>
      have hword := h.trail_word
      rw [htrail] at hedge hword
      rw [hword.head?_any] at hedge
      exact absurd hedge (by decide)

theorem core_edge (h : c.Fits true right gap) :
    c.core.head?.any isWordChar = false := by
  have hedge := h.lead_edge rfl
  cases hcore : c.core with
  | nil => rfl
  | cons d t =>
      rw [hcore] at hedge
      exact hedge

variable {f : Text → Text}

theorem mapWords_eq (h : c.Fits left right gap) (hf : f [] = []) :
    mapWords f gap = f c.lead ++ (mapWords f c.core ++ f c.trail) := by
  conv_lhs => rw [h.eq]
  rw [mapWords_append hf h.apart_lead, mapWords_append hf h.apart_trail,
    mapWords_word h.lead_word, mapWords_word h.trail_word]

/-- Behind a word on the left no word follows, whatever becomes of the core. -/
theorem head?_mapWords_append (h : c.Fits true right gap) (hf : f [] = [])
    {s : Text} (hs : c.trail = [] → s.head?.any isWordChar = false) :
    (mapWords f c.core ++ s).head?.any isWordChar = false := by
  have hedge := h.core_edge
  cases hcore : c.core with
  | nil =>
      rw [mapWords_nil, hf]
      exact hs (h.trail_nil_of_core hcore)
  | cons d t =>
      rw [hcore] at hedge
      rw [mapWords_cons hf (by simpa using hedge)]
      exact hedge

end Cut.Fits

/-! ## Words at the edges of gaps -/

namespace Woven

variable {α : Type}

/-- Maps the gaps by `f`, but the words that touch an item stay. `left` tells
whether there is an item before the first gap. -/
def keepEdges (f : Text → Text) (left : Bool) : Woven α → Woven α
  | last gap => last ((cut left false gap).mapCore f)
  | cons gap item rest =>
      cons ((cut left true gap).mapCore f) item (rest.keepEdges f true)

/-- The words that touch an item, some of them empty. -/
def edgeWords (left : Bool) : Woven α → List Text
  | last gap => [(cut left false gap).lead]
  | cons gap _ rest =>
      (cut left true gap).lead :: (cut left true gap).trail ::
        rest.edgeWords true

@[simp] theorem items_keepEdges (f : Text → Text) (left : Bool)
    (w : Woven α) : (w.keepEdges f left).items = w.items := by
  induction w generalizing left with
  | last gap => rfl
  | cons gap item rest ih => simp [keepEdges, items, ih]

@[simp] theorem number_keepEdges (f : Text → Text) (left : Bool)
    (w : Woven α) (first : Nat) :
    (w.keepEdges f left).number first = (w.number first).keepEdges f left := by
  induction w generalizing left first with
  | last gap => rfl
  | cons gap item rest ih => simp [keepEdges, number, ih]

/-- If the words at the edges do not change, the gaps are mapped as wholes. -/
theorem keepEdges_eq_mapGaps {f : Text → Text} (hf : f [] = []) {left : Bool}
    {w : Woven α} (h : ∀ word ∈ w.edgeWords left, f word = word) :
    w.keepEdges (mapWords f) left = w.mapGaps (mapWords f) := by
  induction w generalizing left with
  | last gap =>
      rw [edgeWords, List.forall_mem_singleton] at h
      have hfits := cut_fits left false gap
      rw [keepEdges, mapGaps, hfits.mapWords_eq hf, h, hfits.trail_nil rfl, hf,
        Cut.mapCore, hfits.trail_nil rfl]
  | cons gap item rest ih =>
      rw [edgeWords, List.forall_mem_cons, List.forall_mem_cons] at h
      obtain ⟨hlead, htrail, hrest⟩ := h
      rw [keepEdges, mapGaps, (cut_fits left true gap).mapWords_eq hf, hlead,
        htrail, ih hrest]
      rfl

end Woven

/-! ## Renaming with placeholders -/

theorem isWordChar_of_isWordDigit {c : Char} (h : isWordDigit c = true) :
    isWordChar c = true := by
  rw [isWordDigit, Bool.and_eq_true] at h
  simp [isWordChar, h.1, h.2]

theorem isWord_placeholderOpening : IsWord placeholderOpening := by
  decide +kernel

theorem isWord_placeholder (n : Nat) : IsWord (placeholder n) := by
  have hdigits : IsWord (Nat.toDigits 10 n) := fun c hc =>
    isWordChar_of_isWordDigit
      (isWordDigit_of_isDigit (isDigit_of_mem_toDigits hc))
  have hclosing : IsWord placeholderClosing := by decide +kernel
  exact (isWord_placeholderOpening.append hdigits).append hclosing

theorem opening_isInfix_placeholder (n : Nat) :
    placeholderOpening <:+: placeholder n :=
  ⟨[], Nat.toDigits 10 n ++ placeholderClosing, by simp [placeholder]⟩

/-- The word in front of a gap: it holds a placeholder if there is an item on
the left, and else it is empty. -/
structure Front (left : Bool) (u : Text) : Prop where
  word : IsWord u
  opening : left = true → placeholderOpening <:+: u
  nil : left = false → u = []

theorem Front.of_placeholder {u : Text} (hu : IsWord u) (n : Nat) :
    Front true (u ++ placeholder n) where
  word := hu.append (isWord_placeholder n)
  opening _ := (opening_isInfix_placeholder n).trans
    (List.suffix_append _ _).isInfix
  nil h := absurd h (by decide)

section Placeholders

variable {f : Text → Text} (hf : f [] = [])
  (hopening : ∀ u, IsWord u → placeholderOpening <:+: u → f u = u)

include hf hopening

/-- The word in front takes in the first word of the gap and stays. -/
theorem Front.mapWords_append {left right : Bool} {u gap : Text} {c : Cut}
    (h : Front left u) (hfits : c.Fits left right gap) {s : Text}
    (hnil : c.core = [] → s = []) (hs : Apart c.core s) :
    mapWords f (u ++ (c.lead ++ (c.core ++ s))) =
      u ++ (c.lead ++ (mapWords f c.core ++ mapWords f s)) := by
  have hstays : f (u ++ c.lead) = u ++ c.lead := by
    cases left with
    | false => rw [h.nil rfl, hfits.lead_nil rfl, List.append_nil, hf]
    | true =>
        exact hopening _ (h.word.append hfits.lead_word)
          ((h.opening rfl).trans (List.prefix_append _ _).isInfix)
  have hapart : Apart (u ++ c.lead) (c.core ++ s) := by
    cases left with
    | false => exact Or.inl (by rw [h.nil rfl, hfits.lead_nil rfl]; rfl)
    | true =>
        have hedge := hfits.core_edge
        cases hcore : c.core with
        | nil => exact Or.inr (by rw [hnil hcore]; rfl)
        | cons d t =>
            rw [hcore] at hedge
            exact Or.inr hedge
  rw [← List.append_assoc, ScriptMinifier.mapWords_append hf hapart,
    ScriptMinifier.mapWords_append hf hs,
    mapWords_word (h.word.append hfits.lead_word), hstays, List.append_assoc]

/-- Between placeholders the words that touch one stay. -/
theorem mapWords_render (w : Woven Nat) {left : Bool} {u : Text}
    (h : Front left u) : mapWords f (u ++ w.render placeholder) =
      u ++ (w.keepEdges (mapWords f) left).render placeholder := by
  induction w generalizing left u with
  | last gap =>
      have hfits := cut_fits left false gap
      have hgap := hfits.eq
      rw [hfits.trail_nil rfl] at hgap
      have happend := h.mapWords_append hf hopening hfits (fun _ => rfl)
        (Or.inr rfl)
      rw [← hgap, mapWords_nil, hf] at happend
      rw [Woven.render, happend, Woven.keepEdges, Woven.render, Cut.mapCore,
        hfits.trail_nil rfl]
  | cons gap n rest ih =>
      have hfits := cut_fits left true gap
      generalize hcut : cut left true gap = c at hfits
      rw [Woven.render, Woven.keepEdges, Woven.render, hcut, Cut.mapCore]
      by_cases hcore : c.core = []
      · have hgap := hfits.eq
        rw [hcore, List.nil_append] at hgap
        have hword : IsWord (u ++ gap) := by
          rw [hgap]
          exact h.word.append (hfits.lead_word.append hfits.trail_word)
        rw [hcore, mapWords_nil, hf, List.nil_append, ← hgap]
        simpa using ih (Front.of_placeholder hword n)
      · have hrest := ih (Front.of_placeholder hfits.trail_word n)
        have happend := h.mapWords_append hf hopening hfits
          (s := c.trail ++ placeholder n ++ rest.render placeholder)
          (fun hnil => absurd hnil hcore) (Or.inl (hfits.trail_edge rfl))
        rw [hrest] at happend
        conv_lhs => rw [hfits.eq]
        simpa using happend

end Placeholders

/-! ## Gaps without an opening -/

/-- An opening is one word, so it lies on one side of an edge between words. -/
theorem HasNoOpening.append {s t : Text} (hs : HasNoOpening s)
    (ht : HasNoOpening t) (h : Apart s t) : HasNoOpening (s ++ t) := by
  rintro ⟨x, y, heq⟩
  rw [List.append_assoc] at heq
  rcases List.append_eq_append_iff.mp heq with ⟨a, rfl, ha⟩ | ⟨a, rfl, rfl⟩
  · rcases List.append_eq_append_iff.mp ha with ⟨b, rfl, -⟩ | ⟨b, hb, rfl⟩
    · exact hs ⟨x, b, by simp⟩
    · have hword := isWord_placeholderOpening
      rw [hb] at hword
      rcases h with h | h
      · rcases List.eq_nil_or_concat' a with rfl | ⟨a, d, rfl⟩
        · exact ht ⟨[], y, by rw [hb]; rfl⟩
        · exact absurd (hword d (by simp)) (by simpa using h)
      · cases b with
        | nil => exact hs ⟨x, [], by rw [hb]; simp⟩
        | cons d b => exact absurd (hword d (by simp)) (by simpa using h)
  · exact ht ⟨a, y, by simp⟩

theorem HasNoOpening.of_infix {s t : Text} (h : HasNoOpening t)
    (hs : s <:+: t) : HasNoOpening s :=
  fun hin => h (hin.trans hs)

theorem hasNoOpening_singleton (c : Char) : HasNoOpening [c] := by
  intro hin
  have hlen := hin.length_le
  rw [placeholderOpening_eq] at hlen
  simp at hlen

theorem hasNoOpening_mapWordsFrom {f : Text → Text}
    (hf : ∀ u, HasNoOpening u → HasNoOpening (f u)) {s word : Text}
    (h : HasNoOpening (word ++ s)) : HasNoOpening (mapWordsFrom f word s) := by
  induction s generalizing word with
  | nil =>
      rw [List.append_nil] at h
      exact hf word h
  | cons c s ih =>
      rw [mapWordsFrom]
      split
      · exact ih (by simpa using h)
      · next hc =>
          have hword : HasNoOpening word :=
            h.of_infix (List.prefix_append _ _).isInfix
          have hs : HasNoOpening ([] ++ s) :=
            h.of_infix ⟨word ++ [c], [], by simp⟩
          have hrest : HasNoOpening ([c] ++ mapWordsFrom f [] s) :=
            (hasNoOpening_singleton c).append (ih hs)
              (Or.inl (by simpa using hc))
          exact (hf word hword).append hrest (Or.inr (by simpa using hc))

theorem hasNoOpening_mapCore {f : Text → Text} (hf : f [] = [])
    (hopening : ∀ u, HasNoOpening u → HasNoOpening (f u)) {left right : Bool}
    {gap : Text} {c : Cut} (hfits : c.Fits left right gap)
    (h : HasNoOpening gap) : HasNoOpening (c.mapCore (mapWords f)) := by
  rw [hfits.eq] at h
  have hlead : HasNoOpening c.lead :=
    h.of_infix (List.prefix_append _ _).isInfix
  have hcore : HasNoOpening (mapWords f c.core) :=
    hasNoOpening_mapWordsFrom hopening (h.of_infix ⟨c.lead, c.trail, by simp⟩)
  have htrail : HasNoOpening c.trail :=
    h.of_infix ⟨c.lead ++ c.core, [], by simp⟩
  refine hlead.append (hcore.append htrail ?_) ?_
  · cases right with
    | false => exact Or.inr (by rw [hfits.trail_nil rfl]; rfl)
    | true =>
        have hedge := hfits.trail_edge rfl
        exact Or.inl (by rwa [getLast?_mapWords hf hedge])
  · cases left with
    | false => exact Or.inl (by rw [hfits.lead_nil rfl]; rfl)
    | true =>
        exact Or.inr (hfits.head?_mapWords_append hf fun htrail => by
          rw [htrail]; rfl)

theorem hasNoOpening_keepEdges {f : Text → Text} (hf : f [] = [])
    (hopening : ∀ u, HasNoOpening u → HasNoOpening (f u)) {left : Bool}
    {w : Woven Text} (h : ∀ gap ∈ w.gaps, HasNoOpening gap) :
    ∀ gap ∈ (w.keepEdges (mapWords f) left).gaps, HasNoOpening gap := by
  induction w generalizing left with
  | last gap =>
      rw [Woven.gaps, List.forall_mem_singleton] at h
      rw [Woven.keepEdges, Woven.gaps, List.forall_mem_singleton]
      exact hasNoOpening_mapCore hf hopening (cut_fits left false gap) h
  | cons gap item rest ih =>
      rw [Woven.gaps, List.forall_mem_cons] at h
      rw [Woven.keepEdges, Woven.gaps, List.forall_mem_cons]
      exact ⟨hasNoOpening_mapCore hf hopening (cut_fits left true gap) h.1,
        ih h.2⟩

/-! ## Reading the edge words off the output -/

/-- Trimming the end of two texts with the same front. -/
theorem rdropWhile_append_cancel {p : Char → Bool} {s t t' : Text}
    (h : (s ++ t).rdropWhile p = (s ++ t').rdropWhile p) :
    t.rdropWhile p = t'.rdropWhile p := by
  have hshort := (List.rdropWhile_prefix p s).length_le
  rw [rdropWhile_append, rdropWhile_append] at h
  split at h
  · next ht =>
      split at h
      · next ht' => rw [ht, ht']
      · next ht' =>
          have hlen := congrArg List.length h
          have hpos := List.length_pos_iff.mpr ht'
          rw [List.length_append] at hlen
          omega
  · next ht =>
      split at h
      · next ht' =>
          have hlen := congrArg List.length h
          have hpos := List.length_pos_iff.mpr ht
          rw [List.length_append] at hlen
          omega
      · exact List.append_cancel_left h

theorem rdropWhile_word_append {u : Text} (hu : IsWord u) (s : Text) :
    (u ++ s).rdropWhile isBlank = u ++ s.rdropWhile isBlank := by
  rw [rdropWhile_append]
  split
  · next hs =>
      rw [hs, List.append_nil, List.rdropWhile_eq_self_iff]
      intro hne hblank
      have hlast := hu _ (List.getLast_mem hne)
      rw [not_isWordChar_of_isBlank hblank] at hlast
      exact absurd hlast (by decide)
  · rfl

theorem word_append_inj {u v s t : Text} (hu : IsWord u) (hv : IsWord v)
    (hs : s.head?.any isWordChar = false) (ht : t.head?.any isWordChar = false)
    (h : u ++ s = v ++ t) : u = v ∧ s = t := by
  have huv : u = v := by
    rw [← takeWhile_append_eq hu hs, h, takeWhile_append_eq hv ht]
  subst huv
  exact ⟨rfl, List.append_cancel_left h⟩

theorem takeWhile_append_congr {p : Char → Bool} {s t t' : Text}
    (ht : t.head?.any p = false) (ht' : t'.head?.any p = false) :
    (s ++ t).takeWhile p = (s ++ t').takeWhile p := by
  rw [List.takeWhile_append, List.takeWhile_append, takeWhile_eq_nil ht,
    takeWhile_eq_nil ht']

theorem head?_word_append_cons {u s : Text} {d : Char} (hu : IsWord u)
    (hd : isBlank d = false) : (u ++ d :: s).head?.any isBlank = false := by
  cases u with
  | nil => exact hd
  | cons c u =>
      show isBlank c = false
      rw [Bool.eq_false_iff]
      intro hblank
      have hc := hu c List.mem_cons_self
      rw [not_isWordChar_of_isBlank hblank] at hc
      exact absurd hc (by decide)

/-- The text begins with a character that is in no word and is no blank. -/
def Delimited (item : Text) : Prop :=
  ∃ c t, item = c :: t ∧ isWordChar c = false ∧ isBlank c = false

section Decode

variable {f : Text → Text} (hf : f [] = [])
  (hword : ∀ u, IsWord u → IsWord (f u))

include hf hword

/-- If it makes no difference whether the words at the edges are mapped, they
are mapped to themselves. -/
theorem eq_self_of_text_keepEdges {w : Woven Text} {left : Bool}
    (hitems : ∀ item ∈ w.items, Delimited item)
    (h : (w.mapGaps (mapWords f)).text.rdropWhile isBlank =
      (w.keepEdges (mapWords f) left).text.rdropWhile isBlank) :
    ∀ word ∈ w.edgeWords left, f word = word := by
  induction w generalizing left with
  | last gap =>
      have hfits := cut_fits left false gap
      rw [Woven.edgeWords, List.forall_mem_singleton]
      rw [Woven.mapGaps, Woven.keepEdges, Woven.text_last, Woven.text_last,
        hfits.mapWords_eq hf, Cut.mapCore,
        rdropWhile_word_append (hword _ hfits.lead_word),
        rdropWhile_word_append hfits.lead_word, hfits.trail_nil rfl, hf] at h
      exact List.append_cancel_right h
  | cons gap item rest ih =>
      have hfits := cut_fits left true gap
      rw [Woven.items, List.forall_mem_cons] at hitems
      obtain ⟨⟨d, t, rfl, hd, hblank⟩, hitems⟩ := hitems
      rw [Woven.edgeWords, List.forall_mem_cons, List.forall_mem_cons]
      rw [Woven.mapGaps, Woven.keepEdges, Woven.text_cons, Woven.text_cons,
        hfits.mapWords_eq hf, Cut.mapCore, List.cons_append, List.cons_append,
        rdropWhile_append_cons hblank, rdropWhile_append_cons hblank] at h
      generalize cut left true gap = c at hfits h
      simp only [List.append_assoc] at h
      have hedge : ∀ s : Text, (d :: s).head?.any isWordChar = false :=
        fun _ => hd
      obtain ⟨hlead, h⟩ : f c.lead = c.lead ∧ _ = _ := by
        cases left with
        | false =>
            rw [hfits.lead_nil rfl, hf] at h ⊢
            exact ⟨rfl, h⟩
        | true =>
            refine word_append_inj (hword _ hfits.lead_word) hfits.lead_word
              ?_ ?_ h
            · refine hfits.head?_mapWords_append hf fun htrail => ?_
              rw [htrail, hf]
              exact hd
            · refine hfits.head?_mapWords_append hf fun htrail => ?_
              rw [htrail]
              exact hd
      obtain ⟨htrail, h⟩ := word_append_inj (hword _ hfits.trail_word)
        hfits.trail_word (hedge _) (hedge _) (List.append_cancel_left h)
      exact ⟨hlead, htrail,
        ih hitems (rdropWhile_append_cancel (List.cons.inj h).2)⟩

/-- The blanks at the front are the same, mapped or not. -/
theorem takeWhile_text_keepEdges {w : Woven Text}
    (hitems : ∀ item ∈ w.items, Delimited item) :
    (w.mapGaps (mapWords f)).text.takeWhile isBlank =
      (w.keepEdges (mapWords f) false).text.takeWhile isBlank := by
  cases w with
  | last gap =>
      have hfits := cut_fits false false gap
      rw [Woven.mapGaps, Woven.keepEdges, hfits.mapWords_eq hf, Cut.mapCore,
        hfits.lead_nil rfl, hfits.trail_nil rfl, hf]
  | cons gap item rest =>
      have hfits := cut_fits false true gap
      rw [Woven.items, List.forall_mem_cons] at hitems
      obtain ⟨⟨d, t, rfl, hd, hblank⟩, -⟩ := hitems
      rw [Woven.mapGaps, Woven.keepEdges, Woven.text_cons, Woven.text_cons,
        hfits.mapWords_eq hf, Cut.mapCore, hfits.lead_nil rfl, hf]
      simp only [List.nil_append, List.append_assoc, List.cons_append]
      exact takeWhile_append_congr
        (head?_word_append_cons (hword _ hfits.trail_word) hblank)
        (head?_word_append_cons hfits.trail_word hblank)

theorem trim_text_keepEdges_iff {w : Woven Text}
    (hitems : ∀ item ∈ w.items, Delimited item) :
    trim (w.keepEdges (mapWords f) false).text =
      trim (w.mapGaps (mapWords f)).text ↔
    ∀ word ∈ w.edgeWords false, f word = word := by
  constructor
  · intro h
    apply eq_self_of_text_keepEdges hf hword hitems
    have htake := takeWhile_text_keepEdges hf hword hitems
    rw [trim_eq, trim_eq] at h
    rw [← List.takeWhile_append_dropWhile (p := isBlank)
        (l := (w.mapGaps (mapWords f)).text),
      ← List.takeWhile_append_dropWhile (p := isBlank)
        (l := (w.keepEdges (mapWords f) false).text), htake]
    rw [rdropWhile_append, rdropWhile_append, h]
  · intro h
    rw [Woven.keepEdges_eq_mapGaps hf h]

end Decode

/-! ## The output -/

theorem Woven.isWord_edgeWords {α : Type} {w : Woven α} {left : Bool} :
    ∀ word ∈ w.edgeWords left, IsWord word := by
  induction w generalizing left with
  | last gap =>
      rw [edgeWords, List.forall_mem_singleton]
      exact (cut_fits left false gap).lead_word
  | cons gap item rest ih =>
      rw [edgeWords, List.forall_mem_cons, List.forall_mem_cons]
      exact ⟨(cut_fits left true gap).lead_word,
        (cut_fits left true gap).trail_word, ih⟩

theorem delimited_items (source : Text) :
    ∀ item ∈ (weave .lexical source).items, Delimited item := by
  intro item hitem
  rw [weave, Script.items_weaveRegions] at hitem
  obtain ⟨r, hr, rfl⟩ := List.mem_map.mp hitem
  obtain ⟨hr, hkind⟩ := List.mem_filter.mp hr
  have hshaped := Script.Progress.regions_shaped {} source r hr
  rw [Script.Region.Shaped, of_decide_eq_true hkind] at hshaped
  obtain ⟨c, hc, hhead⟩ := hshaped
  obtain ⟨t, ht⟩ := List.head?_eq_some_iff.mp hhead
  have hall : ['\'', '"', '`', '/'].all
      (fun d => !isWordChar d && !isBlank d) = true := by decide +kernel
  exact ⟨c, t, ht, by simpa using List.all_eq_true.mp hall c hc⟩

/-- Names and new names are words without the opening of a placeholder. -/
def PlainBindings (bindings : List (Text × Text)) : Prop :=
  ∀ b ∈ bindings, (IsWord b.1 ∧ HasNoOpening b.1) ∧
    IsWord b.2 ∧ HasNoOpening b.2

section Output

variable {map : RenameMap} {accepts : Renamer → Bool} {renamer : Renamer}

theorem Renamer.wordsOnly_of_ofMap
    (hmap : Renamer.ofMap map accepts = .ok renamer)
    (h : PlainBindings map.bindings) : renamer.WordsOnly := by
  intro b hb
  obtain ⟨hmem, hne⟩ := Renamer.mem_of_ofMap hmap hb
  exact ⟨hne, (h b hmem).1.1⟩

/-- What holds of a word and of all new names holds of what the word becomes. -/
theorem Renamer.newName_of_ofMap
    (hmap : Renamer.ofMap map accepts = .ok renamer)
    {P : Text → Prop} (h : ∀ b ∈ map.bindings, P b.2) {word : Text}
    (hword : P word) : P (renamer.newName word) := by
  rcases renamer.newName_cases word with hsame | ⟨b, hb, -, hnew⟩
  · rwa [hsame]
  · rw [hnew]
    exact h b (Renamer.mem_of_ofMap hmap hb).1

/-- A word with a placeholder in it is no name. -/
theorem Renamer.newName_of_opening
    (hmap : Renamer.ofMap map accepts = .ok renamer)
    (h : PlainBindings map.bindings) {word : Text}
    (hword : placeholderOpening <:+: word) : renamer.newName word = word := by
  rcases renamer.newName_cases word with hsame | ⟨b, hb, rfl, -⟩
  · exact hsame
  · exact absurd hword (h b (Renamer.mem_of_ofMap hmap hb).1).1.2

theorem output_keepEdges {source : Text}
    (hmap : Renamer.ofMap map accepts = .ok renamer)
    (h : PlainBindings map.bindings)
    (hgaps : ∀ gap ∈ (weave .lexical source).gaps, HasNoOpening gap) :
    (Minifier.minify (.withRenames { strategy := .lexical } map accepts)
      source).output =
      trim (((weave .lexical source).mapGaps compress).keepEdges
        (mapWords renamer.newName) false).text := by
  have hwords := Renamer.wordsOnly_of_ofMap hmap h
  have hnil := Renamer.newName_nil hwords
  have hfront : Front false [] := ⟨by simp [IsWord], by simp, fun _ => rfl⟩
  have hrenamed : renamer.apply (compress (prepare .lexical source).text) =
      (((weave .lexical source).mapGaps compress).keepEdges
        (mapWords renamer.newName) false).masked 0 := by
    rw [text_prepare, compress_masked, Renamer.apply_eq_mapWords hwords]
    have hrender := mapWords_render hnil
      (fun u _ hu => Renamer.newName_of_opening hmap h hu)
      (((weave .lexical source).mapGaps compress).number 0) hfront
    rw [← Woven.number_keepEdges] at hrender
    exact hrender
  have hopening : ∀ u, HasNoOpening u → HasNoOpening (renamer.newName u) :=
    fun u hu => Renamer.newName_of_ofMap hmap (fun b hb => (h b hb).2.2) hu
  have hcompressed : ∀ gap ∈ ((weave .lexical source).mapGaps compress).gaps,
      HasNoOpening gap :=
    Woven.forall_gaps_mapGaps (fun _ hg => hg.compress) hgaps
  have hminifier : Minifier.withRenames { strategy := .lexical } map accepts =
      { strategy := .lexical, renamer } := by
    rw [Minifier.withRenames, hmap]
  rw [hminifier]
  show trim ((prepare .lexical source).literals.restore
    (renamer.apply (compress (prepare .lexical source).text))) = _
  rw [hrenamed, LiteralTable.restore_masked
    (by simpa using literals_prepare .lexical source)
    (hasNoOpening_keepEdges hnil hopening hcompressed)]

end Output

/-- **Names next to a literal stay.** Where names and new names are words, the
output is the gaps with every word renamed but those that touch a literal. So
it is the gaps renamed as wholes exactly if no word that touches a literal is a
name of another. -/
theorem output_renamed_iff {source : Text} {map : RenameMap}
    {accepts : Renamer → Bool} {renamer : Renamer}
    (hmap : Renamer.ofMap map accepts = .ok renamer)
    (h : PlainBindings map.bindings)
    (hgaps : ∀ gap ∈ (weave .lexical source).gaps, HasNoOpening gap) :
    (Minifier.minify (.withRenames { strategy := .lexical } map accepts)
      source).output =
      trim (((weave .lexical source).mapGaps compress).keepEdges
        renamer.apply false).text ∧
    ((Minifier.minify (.withRenames { strategy := .lexical } map accepts)
        source).output =
      trim (((weave .lexical source).mapGaps compress).mapGaps
        renamer.apply).text ↔
    ∀ word ∈ ((weave .lexical source).mapGaps compress).edgeWords false,
      renamer.apply word = word) := by
  have hwords := Renamer.wordsOnly_of_ofMap hmap h
  have happly : renamer.apply = mapWords renamer.newName :=
    funext (Renamer.apply_eq_mapWords hwords)
  have houtput := output_keepEdges hmap h hgaps
  rw [happly]
  refine ⟨houtput, ?_⟩
  rw [houtput, trim_text_keepEdges_iff (Renamer.newName_nil hwords)
    (fun u hu => Renamer.newName_of_ofMap hmap (fun b hb => (h b hb).2.1) hu)
    (by simpa using delimited_items source)]
  refine forall₂_congr fun word hmem => ?_
  rw [mapWords_word (Woven.isWord_edgeWords word hmem)]

theorem output_renamed_iff_callSource :
    Renamer.ofMap (.ofList [("foo".toList, "f".toList),
      ("x".toList, "long".toList)]) = .ok ⟨[("foo".toList, "f".toList),
        ("x".toList, "long".toList)]⟩ ∧
    PlainBindings [("foo".toList, "f".toList), ("x".toList, "long".toList)] ∧
    (∀ gap ∈ (weave .lexical "foo`x` + foo(bar'x', x)".toList).gaps,
      HasNoOpening gap) ∧
    (Minifier.minify (.withRenames { strategy := .lexical }
      (.ofList [("foo".toList, "f".toList), ("x".toList, "long".toList)]))
      "foo`x` + foo(bar'x', x)".toList).output =
      "foo`x`+f(bar'x',long)".toList := by
  have hmap : Renamer.ofMap (.ofList [("foo".toList, "f".toList),
      ("x".toList, "long".toList)]) = .ok ⟨[("foo".toList, "f".toList),
        ("x".toList, "long".toList)]⟩ := by decide +kernel
  have hplain : PlainBindings
      [("foo".toList, "f".toList), ("x".toList, "long".toList)] := by
    unfold PlainBindings
    decide +kernel
  have hgaps : ∀ gap ∈ (weave .lexical "foo`x` + foo(bar'x', x)".toList).gaps,
      HasNoOpening gap := by decide +kernel
  refine ⟨hmap, hplain, hgaps, ?_⟩
  exact (output_renamed_iff hmap hplain hgaps).1.trans (by decide +kernel)

/-- A tag in front of a template is a name that stays, although the gap alone
would be renamed. -/
theorem output_renamed_tag :
    Renamer.ofMap (.ofList [("foo".toList, "f".toList)]) =
      .ok ⟨[("foo".toList, "f".toList)]⟩ ∧
    PlainBindings [("foo".toList, "f".toList)] ∧
    (∀ gap ∈ (weave .lexical "foo`x`".toList).gaps, HasNoOpening gap) ∧
    (Minifier.minify (.withRenames { strategy := .lexical }
      (.ofList [("foo".toList, "f".toList)])) "foo`x`".toList).output =
      "foo`x`".toList ∧
    trim (((weave .lexical "foo`x`".toList).mapGaps compress).mapGaps
      (Renamer.apply ⟨[("foo".toList, "f".toList)]⟩)).text =
      "f`x`".toList := by
  unfold PlainBindings
  decide +kernel

end ScriptMinifier
