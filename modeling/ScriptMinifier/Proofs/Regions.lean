import ScriptMinifier.Proofs.Pieces
import ScriptMinifier.Proofs.Placeholder

/-!
# A script as a row of regions

Taking a script apart cuts it into regions of code, literals and comments. The
regions in order are the script, nothing lost and nothing twice, and the tokens
depend on the script through its regions only: `tokens_run` replaces the run
over characters by a pass over regions, and everything after it is an induction
on lists.
-/

namespace ScriptMinifier.Script

/-- A stretch of a script and what it is. It is never empty. -/
structure Region where
  kind : Kind
  text : Text
  nonempty : text ≠ []

/-- The text that the regions cover. -/
def joined (regions : List Region) : Text := regions.flatMap Region.text

@[simp] theorem joined_nil : joined [] = [] := rfl

@[simp] theorem joined_cons (r : Region) (regions : List Region) :
    joined (r :: regions) = r.text ++ joined regions :=
  List.flatMap_cons

/-! ## One step of the run -/

theorem Progress.run_skip (p : Progress) : ∀ (s : Text) (n : Nat),
    p.run n s = p.run 0 (s.drop n)
  | [], n => by simp [Progress.run]
  | c :: cs, 0 => rfl
  | c :: cs, n + 1 => by
      rw [Progress.run, Progress.run_skip p cs n]
      rfl

/-- The piece that comes next. -/
def Progress.piece (p : Progress) (c : Char) (cs : Text) : Piece :=
  nextPiece p.recent p.unclosed c cs

/-- The region that comes next. -/
def Progress.region (p : Progress) (c : Char) (cs : Text) : Region where
  kind := (p.piece c cs).kind
  text := (c :: cs).take (p.piece c cs).length
  nonempty := by
    have hpos := nextPiece_length_pos p.recent p.unclosed c cs
    obtain ⟨n, hn⟩ := Nat.exists_eq_succ_of_ne_zero (Nat.ne_of_gt hpos)
    rw [Progress.piece, hn, List.take_succ_cons]
    simp

/-- The text behind the next region. -/
def Progress.rest (p : Progress) (c : Char) (cs : Text) : Text :=
  (c :: cs).drop (p.piece c cs).length

/-- The progress behind the next region. -/
def Progress.next (p : Progress) (c : Char) (cs : Text) : Progress :=
  p.absorb (p.piece c cs) (c :: cs)

theorem Progress.region_append_rest (p : Progress) (c : Char) (cs : Text) :
    (p.region c cs).text ++ p.rest c cs = c :: cs :=
  List.take_append_drop _ _

theorem Progress.length_rest_lt (p : Progress) (c : Char) (cs : Text) :
    (p.rest c cs).length < (c :: cs).length := by
  have hpos := nextPiece_length_pos p.recent p.unclosed c cs
  rw [Progress.rest, Progress.piece, List.length_drop, List.length_cons]
  omega

/-- One region at a time. -/
theorem Progress.run_cons (p : Progress) (c : Char) (cs : Text) :
    p.run 0 (c :: cs) = (p.next c cs).run 0 (p.rest c cs) := by
  have hpos := nextPiece_length_pos p.recent p.unclosed c cs
  obtain ⟨n, hn⟩ := Nat.exists_eq_succ_of_ne_zero (Nat.ne_of_gt hpos)
  have hdrop : p.rest c cs = cs.drop ((p.piece c cs).length - 1) := by
    rw [Progress.rest, Progress.piece, hn]
    rfl
  rw [Progress.run, hdrop, ← Progress.run_skip]
  rfl

/-- The regions of the rest of a script. -/
def Progress.regions (p : Progress) : Text → List Region
  | [] => []
  | c :: cs => p.region c cs :: (p.next c cs).regions (p.rest c cs)
termination_by s => s.length
decreasing_by exact p.length_rest_lt c cs

/-- The regions of a script. -/
def regions (source : Text) : List Region := Progress.regions {} source

theorem Progress.joined_regions (p : Progress) (s : Text) :
    joined (p.regions s) = s := by
  fun_induction Progress.regions p s with
  | case1 p => rfl
  | case2 p c cs ih =>
      rw [joined_cons, ih]
      exact p.region_append_rest c cs

/-! ## The tokens of regions -/

/-- Takes in a region with the character `after` behind it. -/
def Tokens.add (t : Tokens) (r : Region) (after : Option Char) : Tokens :=
  match r.kind with
  | .code => { t with code := t.code ++ r.text }
  | .literal =>
      { t with
        code := t.code ++ placeholder t.literals.size
        literals := t.literals.push r.text }
  | .comment =>
      { t with
        code := t.code ++ commentTrace r.text t.code.getLast? after
        comments := t.comments + 1 }

/-- Takes in regions one after the other. -/
def Tokens.addAll (t : Tokens) : List Region → Tokens
  | [] => t
  | r :: regions => (t.add r (joined regions).head?).addAll regions

theorem reverse_commentTrace (comment : Text) (before after : Option Char) :
    (commentTrace comment before after).reverse =
      commentTrace comment before after := by
  unfold commentTrace
  split
  · rfl
  · split <;> rfl

/-- Behind an identifier character a comment leaves a blank, or no identifier
character is behind the comment. -/
theorem commentTrace_cases (comment : Text) {before : Option Char}
    (hbefore : before.any isIdentifierChar = true) (after : Option Char) :
    (commentTrace comment before after = [] ∧
      after.any isIdentifierChar = false) ∨
    ∃ b, commentTrace comment before after = [b] ∧ isBlank b = true := by
  unfold commentTrace
  split
  · exact Or.inr ⟨'\n', rfl, by decide⟩
  · split
    · exact Or.inr ⟨' ', rfl, by decide⟩
    · next hsides =>
        refine Or.inl ⟨rfl, ?_⟩
        rw [Bool.eq_false_iff]
        intro hafter
        apply hsides
        rw [isIdentifierSide, isIdentifierSide, hbefore, hafter]
        rfl

/-- What absorbing a piece does to the tokens. -/
theorem Progress.tokens_next (p : Progress) (c : Char) (cs : Text) :
    (p.next c cs).tokens =
      p.tokens.add (p.region c cs) (p.rest c cs).head? := by
  unfold Progress.next Progress.absorb Tokens.add
  show Progress.tokens (match (p.piece c cs).kind with
    | .code => _ | .literal => _ | .comment => _) = _
  cases h : (p.piece c cs).kind with
  | code => simp [Progress.tokens, Progress.region, h]
  | literal => simp [Progress.tokens, Progress.region, h]
  | comment =>
      simp [Progress.tokens, Progress.region, Progress.rest, h,
        reverse_commentTrace]

/-- **The run, region by region.** -/
theorem Progress.tokens_run (p : Progress) (s : Text) :
    (p.run 0 s).tokens = p.tokens.addAll (p.regions s) := by
  fun_induction Progress.regions p s with
  | case1 p => rfl
  | case2 p c cs ih =>
      rw [Progress.run_cons, ih, Progress.tokens_next, Tokens.addAll,
        Progress.joined_regions]

theorem tokenize_eq (source : Text) :
    tokenize source = Tokens.addAll {} (regions source) :=
  Progress.tokens_run {} source

/-! ## What the regions look like -/

/-- Code holds no quotes, a literal starts with its delimiter, and a comment is
either the rest of a line or everything up to the first `*/`. -/
def Region.Shaped (r : Region) : Prop :=
  match r.kind with
  | .code => ∀ c ∈ r.text, c ≠ '\'' ∧ c ≠ '"' ∧ c ≠ '`'
  | .literal => ∃ c ∈ ['\'', '"', '`', '/'], r.text.head? = some c
  | .comment =>
      (∃ body, r.text = lineMark ++ body ∧ '\n' ∉ body) ∨
      ∃ body, r.text = openMark ++ (body ++ closeMark) ∧ ¬ closeMark <:+: body

theorem Progress.region_shaped (p : Progress) (c : Char) (cs : Text) :
    (p.region c cs).Shaped := by
  have h := begins_nextPiece p.recent p.unclosed c cs
  have hkind : (p.region c cs).kind =
      (nextPiece p.recent p.unclosed c cs).kind := rfl
  have htext : (p.region c cs).text =
      (c :: cs).take (nextPiece p.recent p.unclosed c cs).length := rfl
  generalize nextPiece p.recent p.unclosed c cs = piece at h hkind htext
  unfold Region.Shaped
  cases h with
  | string hq =>
      rw [hkind, htext]
      exact ⟨c, by rcases hq with rfl | rfl <;> simp, by simp⟩
  | template =>
      rw [hkind, htext]
      exact ⟨'`', by simp, by simp⟩
  | @line cs =>
      rw [hkind, htext]
      refine Or.inl ⟨cs.takeWhile (· != '\n'), ?_, ?_⟩
      · have htake := List.prefix_iff_eq_take.mp
          (List.takeWhile_prefix (l := cs) (· != '\n'))
        simp only [List.take_succ_cons, lineCommentLength, lineMark,
          List.cons_append, List.nil_append]
        rw [← htake]
      · intro hmem
        have hne := List.all_eq_true.mp List.all_takeWhile _ hmem
        simp at hne
  | @block cs n hsearch hn =>
      rw [hkind, htext]
      obtain ⟨body, rest, rfl, hbody, rfl⟩ :=
        eq_of_blockCommentLength?_eq_some hn
      refine Or.inr ⟨body, ?_, hbody⟩
      have hlen : body.length + 2 = (body ++ closeMark).length := by
        simp [closeMark]
      simp only [List.take_succ_cons, openMark, List.cons_append,
        List.nil_append]
      rw [hlen, ← List.append_assoc, List.take_left]
  | opener hnone =>
      rw [hkind, htext]
      simp
  | regex hcs hcs' hallowed hn =>
      rw [hkind, htext]
      exact ⟨'/', by simp, by simp⟩
  | slash hcs hcs' hnone =>
      rw [hkind, htext]
      simp
  | other hquote htemplate hslash =>
      rw [hkind, htext]
      simpa using ⟨hquote.1, hquote.2, htemplate⟩

theorem Progress.regions_shaped (p : Progress) (s : Text) :
    ∀ r ∈ p.regions s, r.Shaped := by
  fun_induction Progress.regions p s with
  | case1 p => simp
  | case2 p c cs ih =>
      intro r hr
      rcases List.mem_cons.mp hr with rfl | hr
      · exact p.region_shaped c cs
      · exact ih r hr

/-! ## The tiling of a script -/

/-- The code that regions leave behind `emitted`, which stands for `count`
literals so far. A comment leaves a line feed if it holds one, or else a space
if it keeps two identifier characters apart, or else nothing. -/
inductive Emits : Text → Nat → List Region → Text → Prop
  | done {emitted : Text} {count : Nat} : Emits emitted count [] emitted
  | code {emitted out : Text} {count : Nat} {r : Region}
      {regions : List Region} (hkind : r.kind = .code)
      (hrest : Emits (emitted ++ r.text) count regions out) :
      Emits emitted count (r :: regions) out
  | literal {emitted out : Text} {count : Nat} {r : Region}
      {regions : List Region} (hkind : r.kind = .literal)
      (hrest : Emits (emitted ++ placeholder count) (count + 1) regions out) :
      Emits emitted count (r :: regions) out
  | lineFeed {emitted out : Text} {count : Nat} {r : Region}
      {regions : List Region} (hkind : r.kind = .comment)
      (hmem : '\n' ∈ r.text)
      (hrest : Emits (emitted ++ ['\n']) count regions out) :
      Emits emitted count (r :: regions) out
  | space {emitted out : Text} {count : Nat} {r : Region}
      {regions : List Region} (hkind : r.kind = .comment)
      (hmem : '\n' ∉ r.text)
      (hbefore : emitted.getLast?.any isIdentifierChar = true)
      (hafter : (joined regions).head?.any isIdentifierChar = true)
      (hrest : Emits (emitted ++ [' ']) count regions out) :
      Emits emitted count (r :: regions) out
  | nothing {emitted out : Text} {count : Nat} {r : Region}
      {regions : List Region} (hkind : r.kind = .comment)
      (hmem : '\n' ∉ r.text)
      (hapart : ¬ (emitted.getLast?.any isIdentifierChar = true ∧
        (joined regions).head?.any isIdentifierChar = true))
      (hrest : Emits emitted count regions out) :
      Emits emitted count (r :: regions) out

theorem Tokens.emits_addAll (t : Tokens) (regions : List Region) :
    Emits t.code t.literals.size regions (t.addAll regions).code := by
  induction regions generalizing t with
  | nil => exact .done
  | cons r regions ih =>
      have hrest := ih (t.add r (joined regions).head?)
      cases hkind : r.kind with
      | code =>
          simp only [Tokens.add, hkind] at hrest
          simp only [Tokens.addAll, Tokens.add, hkind]
          exact .code hkind hrest
      | literal =>
          simp only [Tokens.add, hkind, LiteralTable.size_push] at hrest
          simp only [Tokens.addAll, Tokens.add, hkind]
          exact .literal hkind hrest
      | comment =>
          simp only [Tokens.add, hkind] at hrest
          simp only [Tokens.addAll, Tokens.add, hkind]
          by_cases hmem : '\n' ∈ r.text
          · simp only [commentTrace, List.contains_eq_mem, hmem, decide_true,
              if_true] at hrest ⊢
            exact .lineFeed hkind hmem hrest
          · by_cases hapart : t.code.getLast?.any isIdentifierChar = true ∧
                (joined regions).head?.any isIdentifierChar = true
            · simp only [commentTrace, isIdentifierSide, List.contains_eq_mem,
                hmem, decide_false, Bool.false_eq_true, if_false, hapart.1,
                hapart.2, Bool.and_self, if_true] at hrest ⊢
              exact .space hkind hmem hapart.1 hapart.2 hrest
            · have hside : (isIdentifierSide t.code.getLast? &&
                  isIdentifierSide (joined regions).head?) = false := by
                rw [Bool.eq_false_iff, ne_eq, Bool.and_eq_true]
                exact hapart
              simp only [commentTrace, List.contains_eq_mem, hmem,
                decide_false, Bool.false_eq_true, if_false, hside,
                List.append_nil] at hrest ⊢
              exact .nothing hkind hmem hapart hrest

theorem Tokens.literals_addAll (t : Tokens) (regions : List Region) :
    (t.addAll regions).literals.toList = t.literals.toList ++
      (regions.filter (·.kind = .literal)).map Region.text := by
  induction regions generalizing t with
  | nil => simp [Tokens.addAll]
  | cons r regions ih =>
      rw [Tokens.addAll, ih]
      cases hkind : r.kind <;> simp [Tokens.add, hkind]

theorem Tokens.comments_addAll (t : Tokens) (regions : List Region) :
    (t.addAll regions).comments =
      t.comments + regions.countP (·.kind = .comment) := by
  induction regions generalizing t with
  | nil => simp [Tokens.addAll]
  | cons r regions ih =>
      rw [Tokens.addAll, ih]
      cases hkind : r.kind <;> simp [Tokens.add, hkind]
      omega

/-- **Nothing is lost.** Every script is cut into regions that join up to it.
The literals are the literal regions, the comments are counted, and the code is
what the regions leave behind. -/
theorem tokenize_tiles_source (source : Text) : ∃ regions : List Region,
    joined regions = source ∧ (∀ r ∈ regions, r.Shaped) ∧
    (tokenize source).literals.toList =
      (regions.filter (·.kind = .literal)).map Region.text ∧
    (tokenize source).comments = regions.countP (·.kind = .comment) ∧
    Emits [] 0 regions (tokenize source).code := by
  refine ⟨regions source, Progress.joined_regions {} source,
    Progress.regions_shaped {} source, ?_, ?_, ?_⟩
  · rw [tokenize_eq, Tokens.literals_addAll]
    rfl
  · rw [tokenize_eq, Tokens.comments_addAll]
    exact Nat.zero_add _
  · rw [tokenize_eq]
    exact Tokens.emits_addAll {} (regions source)

end ScriptMinifier.Script
