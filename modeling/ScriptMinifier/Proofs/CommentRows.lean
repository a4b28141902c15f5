import ScriptMinifier.Proofs.Leaks

/-!
# Comments in a row

Each comment looks for itself at the last character emitted and at the next
character of the script. In a row of comments all but the last have the slash of
another comment behind them, and one with a line feed leaves no identifier
character in front of the next. So the row as a whole leaves its line feeds, or
one space if there are none and it stands between two identifier characters.
-/

namespace ScriptMinifier.Script

open Spacing

/-! ## Regions in parts -/

theorem joined_append (regions more : List Region) :
    joined (regions ++ more) = joined regions ++ joined more :=
  List.flatMap_append

theorem joined_ne_nil {regions : List Region} (h : regions ≠ []) :
    joined regions ≠ [] := by
  obtain ⟨r, more, rfl⟩ := List.exists_cons_of_ne_nil h
  rw [joined_cons, ne_eq, List.append_eq_nil_iff]
  exact fun hnil => r.nonempty hnil.1

theorem head?_joined_append {regions : List Region} (h : regions ≠ [])
    (more : List Region) :
    (joined (regions ++ more)).head? = (joined regions).head? := by
  rw [joined_append, List.head?_append_of_ne_nil _ (joined_ne_nil h)]

/-- Only a comment looks at what is behind it. -/
theorem Tokens.add_congr {r : Region} (h : r.kind ≠ .comment) (t : Tokens)
    (after other : Option Char) : t.add r after = t.add r other := by
  unfold Tokens.add
  cases hkind : r.kind with
  | code => rfl
  | literal => rfl
  | comment => exact absurd hkind h

/-- Regions can be taken in up to any place but behind a comment. -/
theorem Tokens.addAll_append (t : Tokens) {regions : List Region}
    (h : ∀ r ∈ regions.getLast?, r.kind ≠ .comment) (more : List Region) :
    t.addAll (regions ++ more) = (t.addAll regions).addAll more := by
  induction regions generalizing t with
  | nil => rfl
  | cons r regions ih =>
      cases regions with
      | nil =>
          have hr : r.kind ≠ .comment := h r rfl
          rw [List.singleton_append, Tokens.addAll, t.add_congr hr _ none]
          rfl
      | cons next regions =>
          rw [List.getLast?_cons_cons] at h
          rw [List.cons_append, Tokens.addAll, ih _ h,
            head?_joined_append (by simp)]
          rfl

theorem weaveRegions_congr {regions : List Region}
    (h : ∀ r ∈ regions.head?, r.kind ≠ .comment) (before other : Option Char) :
    weaveRegions before regions = weaveRegions other regions := by
  cases regions with
  | nil => rfl
  | cons r regions =>
      have hr : r.kind ≠ .comment := h r rfl
      cases hkind : r.kind with
      | code => simp [weaveRegions, hkind]
      | literal => simp [weaveRegions, hkind]
      | comment => exact absurd hkind hr

/-! ## What comments in a row leave -/

/-- What comments in a row leave, with `before` emitted in front of them and
`after` behind them in the script. -/
def rowTrace (after before : Option Char) : List Region → Text
  | [] => []
  | r :: comments =>
      let trace := commentTrace r.text before ((joined comments).head?.or after)
      trace ++ rowTrace after (trace.getLast?.or before) comments

/-- The number of comments with a line feed in them. -/
def lineFeeds (comments : List Region) : Nat :=
  comments.countP fun r => r.text.contains '\n'

theorem masked_weaveRegions_row {comments back : List Region}
    (hcomments : ∀ r ∈ comments, r.kind = .comment)
    (hback : ∀ r ∈ back.head?, r.kind ≠ .comment) (before : Option Char)
    (n : Nat) : (weaveRegions before (comments ++ back)).masked n =
      rowTrace (joined back).head? before comments ++
        (weaveRegions none back).masked n := by
  induction comments generalizing before with
  | nil => rw [List.nil_append, weaveRegions_congr hback before none]; rfl
  | cons r comments ih =>
      rw [List.forall_mem_cons] at hcomments
      simp only [List.cons_append, weaveRegions, hcomments.1,
        Woven.masked_prepend, rowTrace, ih hcomments.2, joined_append,
        List.head?_append, List.append_assoc]

theorem Region.Shaped.head?_comment {r : Region} (h : r.Shaped)
    (hkind : r.kind = .comment) : r.text.head? = some '/' := by
  rw [Region.Shaped, hkind] at h
  rcases h with ⟨body, htext, -⟩ | ⟨body, htext, -⟩
  · rw [htext]; rfl
  · rw [htext]; rfl

theorem lineFeeds_cons_of_mem {r : Region} (h : '\n' ∈ r.text)
    (comments : List Region) :
    lineFeeds (r :: comments) = lineFeeds comments + 1 :=
  List.countP_cons_of_pos (by simpa using h)

theorem lineFeeds_cons_of_not_mem {r : Region} (h : '\n' ∉ r.text)
    (comments : List Region) :
    lineFeeds (r :: comments) = lineFeeds comments :=
  List.countP_cons_of_neg (by simpa using h)

/-- **A row of comments leaves its line feeds.** If there are none, it leaves a
space where it stands between two identifier characters. -/
theorem rowTrace_eq {comments : List Region} (hne : comments ≠ [])
    (hslash : ∀ r ∈ comments, r.text.head? = some '/')
    (before after : Option Char) : rowTrace after before comments =
      if lineFeeds comments = 0 ∧ isIdentifierSide before = true ∧
        isIdentifierSide after = true then [' ']
      else List.replicate (lineFeeds comments) '\n' := by
  induction comments generalizing before with
  | nil => exact absurd rfl hne
  | cons r comments ih =>
      rw [List.forall_mem_cons] at hslash
      by_cases hmem : '\n' ∈ r.text
      · have htrace : ∀ next, commentTrace r.text before next = ['\n'] := by
          simp [commentTrace, hmem]
        rw [lineFeeds_cons_of_mem hmem, if_neg (by omega), rowTrace, htrace]
        cases comments with
        | nil => rfl
        | cons next comments =>
            have hside : isIdentifierSide (some '\n') = false := by decide
            rw [ih (by simp) hslash.2, if_neg (by simp [hside])]
            rfl
      · rw [lineFeeds_cons_of_not_mem hmem, rowTrace]
        cases comments with
        | nil => simp [commentTrace, hmem, rowTrace, lineFeeds]
        | cons next comments =>
            have htrace : commentTrace r.text before
                ((joined (next :: comments)).head?.or after) = [] := by
              obtain ⟨body, hbody⟩ := List.head?_eq_some_iff.mp
                (hslash.2 next List.mem_cons_self)
              have hside : isIdentifierSide (some '/') = false := by decide
              simp [commentTrace, hmem, hbody, hside]
            rw [htrace, ih (by simp) hslash.2]
            rfl

/-! ## Rows of comments in a script -/

/-- Comments in a row with no comment on either side of them, among the regions
of a script. -/
structure CommentRow (source : Text) where
  front : List Region
  comments : List Region
  back : List Region
  regions_eq : regions source = front ++ (comments ++ back)
  nonempty : comments ≠ []
  are_comments : ∀ r ∈ comments, r.kind = .comment
  front_ends : ∀ r ∈ front.getLast?, r.kind ≠ .comment
  back_starts : ∀ r ∈ back.head?, r.kind ≠ .comment

namespace CommentRow

variable {source : Text}

/-- The tokens of what is in front of the row. -/
def tokens (row : CommentRow source) : Tokens := Tokens.addAll {} row.front

/-- The code emitted in front of the row. -/
def emitted (row : CommentRow source) : Text := row.tokens.code

/-- The code that the regions behind the row leave. -/
def ahead (row : CommentRow source) : Text :=
  (Tokens.addAll { row.tokens with code := [] } row.back).code

/-- What the row itself leaves. -/
def trace (row : CommentRow source) : Text :=
  rowTrace (joined row.back).head? row.emitted.getLast? row.comments

/-- Code or a literal is in front of the row and code behind it. The code
emitted so far ends with the identifier character `a`, and the script goes on
with the identifier character `b`. -/
structure Between (row : CommentRow source) (a b : Char) : Prop where
  front : ∃ r ∈ row.front.getLast?, r.kind = .code ∨ r.kind = .literal
  back : ∃ r ∈ row.back.head?, r.kind = .code
  last : row.emitted.getLast? = some a
  first : (joined row.back).head? = some b
  isIdentifierChar_last : isIdentifierChar a = true
  isIdentifierChar_first : isIdentifierChar b = true

theorem shaped (row : CommentRow source) :
    ∀ r ∈ row.front ++ (row.comments ++ row.back), r.Shaped := by
  rw [← row.regions_eq]
  exact Progress.regions_shaped {} source

theorem source_eq (row : CommentRow source) :
    source = joined row.front ++ (joined row.comments ++ joined row.back) := by
  rw [← joined_append, ← joined_append, ← row.regions_eq]
  exact (Progress.joined_regions {} source).symm

theorem ahead_eq (row : CommentRow source) : row.ahead =
    (weaveRegions none row.back).masked row.tokens.literals.size := by
  rw [ahead, Tokens.code_addAll]
  rfl

/-- The code is what is emitted in front of the row, what the row leaves, and
what is left of the rest. -/
theorem code_eq (row : CommentRow source) :
    (tokenize source).code = row.emitted ++ (row.trace ++ row.ahead) := by
  rw [tokenize_eq, row.regions_eq, Tokens.addAll_append _ row.front_ends,
    Tokens.code_addAll, masked_weaveRegions_row row.are_comments
      row.back_starts, row.ahead_eq]
  rfl

/-- Nothing is emitted in front of the first region. -/
theorem kind_of_emitted_ne_nil (row : CommentRow source)
    (h : row.emitted ≠ []) :
    ∃ r ∈ row.front.getLast?, r.kind = .code ∨ r.kind = .literal := by
  cases hlast : row.front.getLast? with
  | none =>
      have hnil := List.getLast?_eq_none_iff.mp hlast
      exact absurd (by rw [emitted, tokens, hnil]; rfl) h
  | some r =>
      have hr := row.front_ends r hlast
      refine ⟨r, rfl, ?_⟩
      cases hkind : r.kind with
      | code => exact Or.inl rfl
      | literal => exact Or.inr rfl
      | comment => exact absurd hkind hr

/-- No literal starts with an identifier character. -/
theorem kind_of_identifier (row : CommentRow source)
    (h : isIdentifierSide (joined row.back).head? = true) :
    ∃ r ∈ row.back.head?, r.kind = .code := by
  cases hback : row.back with
  | nil => simp [hback, isIdentifierSide] at h
  | cons r back =>
      have hr : r.kind ≠ .comment := row.back_starts r (by rw [hback]; rfl)
      have hshaped : r.Shaped := row.shaped r (by simp [hback])
      refine ⟨r, rfl, ?_⟩
      cases hkind : r.kind with
      | code => rfl
      | literal =>
          rw [hback, joined_cons, isIdentifierSide,
            hshaped.head?_any hkind] at h
          exact absurd h (by decide)
      | comment => exact absurd hkind hr

/-- Identifier characters on both sides are enough. -/
theorem between_iff (row : CommentRow source) :
    (∃ a b, row.Between a b) ↔
      isIdentifierSide row.emitted.getLast? = true ∧
      isIdentifierSide (joined row.back).head? = true := by
  constructor
  · rintro ⟨a, b, h⟩
    rw [h.last, h.first]
    exact ⟨h.isIdentifierChar_last, h.isIdentifierChar_first⟩
  · rintro ⟨hlast, hfirst⟩
    obtain ⟨a, ha, hident⟩ := (Option.any_eq_true _ _).mp hlast
    obtain ⟨b, hb, hident'⟩ := (Option.any_eq_true _ _).mp hfirst
    have hne : row.emitted ≠ [] := by
      intro hnil
      simp [hnil] at ha
    exact ⟨a, b, row.kind_of_emitted_ne_nil hne,
      row.kind_of_identifier hfirst, ha, hb, hident, hident'⟩

/-- The row leaves a space, or as many line feeds as it has comments with a line
feed in them. -/
theorem trace_cases (row : CommentRow source) :
    (row.trace = [' '] ∧ lineFeeds row.comments = 0 ∧
      ∃ a b, row.Between a b) ∨
    (row.trace = List.replicate (lineFeeds row.comments) '\n' ∧
      ¬ (lineFeeds row.comments = 0 ∧ ∃ a b, row.Between a b)) := by
  have hslash : ∀ r ∈ row.comments, r.text.head? = some '/' := fun r hr =>
    (row.shaped r (by simp [hr])).head?_comment (row.are_comments r hr)
  rw [trace, rowTrace_eq row.nonempty hslash, between_iff]
  split
  · next h => exact Or.inl ⟨rfl, h⟩
  · next h => exact Or.inr ⟨rfl, h⟩

theorem areBlank_trace (row : CommentRow source) : AreBlank row.trace := by
  intro c hc
  rcases row.trace_cases with ⟨htrace, -⟩ | ⟨htrace, -⟩
  · rw [htrace, List.mem_singleton] at hc
    rw [hc]
    exact isBlank_space
  · rw [htrace] at hc
    rw [List.eq_of_mem_replicate hc]
    exact isBlank_newline

theorem Between.trace_ne_nil {row : CommentRow source} {a b : Char}
    (h : row.Between a b) : row.trace ≠ [] := by
  rcases row.trace_cases with ⟨htrace, -⟩ | ⟨htrace, hnot⟩
  · simp [htrace]
  · intro hnil
    rw [htrace, List.replicate_eq_nil_iff] at hnil
    exact hnot ⟨hnil, a, b, h⟩

/-- The code behind the row goes on as the script does. -/
theorem Between.exists_ahead_eq {row : CommentRow source} {a b : Char}
    (h : row.Between a b) : ∃ rest, row.ahead = b :: rest := by
  obtain ⟨r, hr, hkind⟩ := h.back
  obtain ⟨back, hback⟩ := List.head?_eq_some_iff.mp hr
  have hfirst := h.first
  rw [hback, joined_cons, List.head?_append_of_ne_nil _ r.nonempty] at hfirst
  obtain ⟨text, htext⟩ := List.head?_eq_some_iff.mp hfirst
  rw [ahead_eq, hback]
  simp only [weaveRegions, hkind, Woven.masked_prepend, htext]
  exact ⟨_, rfl⟩

/-- Between two identifier characters one space is left of what the row
leaves. -/
theorem Between.exists_compress_eq {row : CommentRow source} {a b : Char}
    (h : row.Between a b) : ∃ init rest, row.emitted = init ++ [a] ∧
      row.ahead = b :: rest ∧ compress (tokenize source).code =
        compress init ++ a :: ' ' :: b :: compress rest := by
  obtain ⟨init, hinit⟩ := List.getLast?_eq_some_iff.mp h.last
  obtain ⟨rest, hrest⟩ := h.exists_ahead_eq
  refine ⟨init, rest, hinit, hrest, ?_⟩
  rw [row.code_eq, hinit, hrest, List.append_assoc, List.singleton_append]
  exact compress_blanks_between
    (isPlain_of_isIdentifierChar h.isIdentifierChar_last)
    (isPlain_of_isIdentifierChar h.isIdentifierChar_first)
    row.areBlank_trace h.trace_ne_nil init rest

end CommentRow

/-- **Dropping comments joins no identifiers.** The code is what is emitted in
front of a row of comments, what the row leaves, and what is left of the rest.
Between two identifier characters the row leaves a blank, and one space is left
of it in the compressed code. The row leaves a space nowhere else and never two;
apart from that it leaves one line feed for each comment with a line feed. -/
theorem code_commentRow {source : Text} (row : CommentRow source) :
    source = joined row.front ++ (joined row.comments ++ joined row.back) ∧
    (tokenize source).code = row.emitted ++ (row.trace ++ row.ahead) ∧
    (∀ a b, row.Between a b →
      (∃ c ∈ row.trace, isBlank c = true) ∧
      ∃ init rest, row.emitted = init ++ [a] ∧ row.ahead = b :: rest ∧
        compress (tokenize source).code =
          compress init ++ a :: ' ' :: b :: compress rest) ∧
    (' ' ∈ row.trace ↔
      lineFeeds row.comments = 0 ∧ ∃ a b, row.Between a b) ∧
    row.trace.count ' ' ≤ 1 ∧
    row.trace.filter (· != ' ') =
      List.replicate (lineFeeds row.comments) '\n' := by
  refine ⟨row.source_eq, row.code_eq, ?_, ?_⟩
  · intro a b h
    obtain ⟨c, hc⟩ := List.exists_mem_of_ne_nil _ h.trace_ne_nil
    exact ⟨⟨c, hc, row.areBlank_trace c hc⟩, h.exists_compress_eq⟩
  · rcases row.trace_cases with ⟨htrace, hspace⟩ | ⟨htrace, hspace⟩
    · rw [htrace]
      exact ⟨iff_of_true List.mem_cons_self hspace, by decide,
        by rw [hspace.1]; rfl⟩
    · rw [htrace]
      refine ⟨iff_of_false ?_ hspace, ?_, ?_⟩
      · simp
      · simp [List.count_replicate]
      · simp

def templateSource : Text := "`a`/*1*//*2*/in b".toList

/-- Two comments between a template and a word. -/
def templateRow : CommentRow templateSource where
  front := (regions templateSource).take 1
  comments := ((regions templateSource).drop 1).take 2
  back := ((regions templateSource).drop 1).drop 2
  regions_eq := by rw [List.take_append_drop, List.take_append_drop]
  nonempty := by decide +kernel
  are_comments := by decide +kernel
  front_ends := by decide +kernel
  back_starts := by decide +kernel

theorem code_commentRow_templateRow :
    templateRow.Between '_' 'i' ∧
    (∃ c ∈ templateRow.trace, isBlank c = true) ∧
    ∃ init rest, templateRow.emitted = init ++ ['_'] ∧
      templateRow.ahead = 'i' :: rest ∧
      compress (tokenize templateSource).code =
        compress init ++ '_' :: ' ' :: 'i' :: compress rest := by
  have hbetween : templateRow.Between '_' 'i' :=
    { front := templateRow.kind_of_emitted_ne_nil (by decide +kernel)
      back := templateRow.kind_of_identifier (by decide +kernel)
      last := by decide +kernel
      first := by decide +kernel
      isIdentifierChar_last := by decide +kernel
      isIdentifierChar_first := by decide +kernel }
  exact ⟨hbetween, (code_commentRow templateRow).2.2.1 '_' 'i' hbetween⟩

end ScriptMinifier.Script
