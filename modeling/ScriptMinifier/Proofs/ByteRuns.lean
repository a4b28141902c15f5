import ScriptMinifier.Proofs.ByteScans
import ScriptMinifier.Proofs.Runs

/-!
# The pass by bytes follows the pass by characters

Where the pass by bytes stands at the beginning of a character, it has seen the
same script as the pass by characters, and what is not put out yet is code
(`Lexer.Tracks`). Inside of a character it is on its way through code
(`Lexer.Follows`). One step of it is either a byte of such a character or one
step of the other pass, so no cut fails and both end with the same tokens.
-/

namespace ScriptMinifier.Script

open Text Encoded

variable {src : Encoded} {front s : Text} {c : Char}

/-! ## Searches that failed -/

/-- A `*/` begins at the offset. -/
def ClosesAt (src : Encoded) (i : Nat) : Prop :=
  src.bytes[i]? = some '*'.toUInt8 ∧ src.bytes[i + 1]? = some '/'.toUInt8

/-- A `*/` is ahead in the bytes if it is ahead in the text. -/
theorem closeMark_isInfix_iff (h : src.text = front ++ s) :
    closeMark <:+: s ↔ ∃ i, byteSize front ≤ i ∧ ClosesAt src i := by
  constructor
  · rintro ⟨body, rest, rfl⟩
    have hstar : src.text = (front ++ body) ++ '*' :: '/' :: rest := by
      simp [h, closeMark]
    refine ⟨byteSize (front ++ body), by simp, ?_, ?_⟩
    · exact getElem?_of_single hstar (by decide)
    · exact (getElem?_next_iff hstar (by decide) (by decide)).mpr rfl
  · rintro ⟨i, hle, hstar, hslash⟩
    have hlt : i < src.size := (Array.getElem?_eq_some_iff.mp hstar).1
    rw [size_eq, h, byteSize_append] at hlt
    obtain ⟨body, c, rest, k, rfl, hi, hk⟩ := exists_char_at
      (show i - byteSize front < byteSize s by omega)
    have hc : src.text = (front ++ body) ++ c :: rest := by simp [h]
    have hoffset : i = byteSize (front ++ body) + k := by
      rw [byteSize_append]
      omega
    rw [hoffset] at hstar hslash
    by_cases hsingle : c.utf8Size = 1
    · obtain rfl : k = 0 := by omega
      obtain ⟨b, hb, heq⟩ := exists_first hc
      rw [Nat.add_zero] at hstar hslash
      obtain rfl : c = '*' :=
        (heq '*' (by decide)).mp (Option.some.inj (hb.symm.trans hstar))
      have hhead := (getElem?_next_iff hc hsingle (by decide)).mp hslash
      obtain ⟨rest, rfl⟩ := List.head?_eq_some_iff.mp hhead
      exact ⟨body, rest, by simp [closeMark]⟩
    · obtain ⟨b, hb, hle⟩ := exists_getElem?_of_multiple hc hsingle hk
      rw [hb, Option.some.injEq] at hstar
      exact absurd hstar (ne_toUInt8 hle (by decide))

theorem Progress.Reaches.next {p q : Progress} {s t : Text} {c : Char}
    (h : Reaches p s q (c :: t)) : Reaches p s (q.next c t) (q.rest c t) := by
  generalize ht : c :: t = ahead at h
  induction h with
  | here => subst ht; exact .step .here
  | step _ ih => exact .step (ih ht)

/-- Where a search has failed, another one would fail. -/
theorem Progress.Sound.blockCommentLength?_eq_none {p : Progress}
    (h : p.Sound ('/' :: '*' :: s)) (hunclosed : p.unclosed = true) :
    blockCommentLength? s = none := by
  refine Script.blockCommentLength?_eq_none.mpr fun hclose => h hunclosed ?_
  exact hclose.trans (List.suffix_append openMark s).isInfix

theorem Progress.region_text {p : Progress} {piece : Piece}
    (h : p.piece c s = piece) :
    (p.region c s).text = (c :: s).take piece.length :=
  h ▸ rfl

namespace Lexer

variable {lexer : Lexer} {p : Progress}

/-- A search that has failed would fail again: behind the opener it was made
for there is no `*/`. -/
def Sound (src : Encoded) (lexer : Lexer) : Prop :=
  ∀ start, lexer.unclosedFrom = some start →
    start ≤ lexer.pos ∧ ∀ i, start + 2 ≤ i → ¬ ClosesAt src i

theorem Sound.mono {next : Lexer} (h : lexer.Sound src)
    (hunclosed : next.unclosedFrom = lexer.unclosedFrom)
    (hpos : lexer.pos ≤ next.pos) : next.Sound src := by
  intro start hstart
  obtain ⟨hle, hnone⟩ := h start (hunclosed ▸ hstart)
  exact ⟨Nat.le_trans hle hpos, hnone⟩

/-- The pass behind a search for the end of a block comment. The first search
that fails is kept. -/
def searched (remember : Bool) (lexer : Lexer) (stop? : Option Nat) : Lexer :=
  if remember && stop?.isNone then
    { lexer with unclosedFrom := some (lexer.unclosedFrom.getD lexer.pos) }
  else lexer

section Searches

variable (h : src.text = front ++ '/' :: '*' :: s)
  (hpos : lexer.pos = byteSize front) (hsound : lexer.Sound src)

include h hpos

theorem closeMark_isInfix_iff_of_pos :
    closeMark <:+: s ↔ ∃ i, lexer.pos + 2 ≤ i ∧ ClosesAt src i := by
  have hrest := closeMark_isInfix_iff
    (show src.text = (front ++ openMark) ++ s by simp [h, openMark])
  rwa [byteSize_append, ← hpos] at hrest

include hsound

/-- The end of a block comment is the same whether the search for it is made or
remembered. -/
theorem blockEnd_eq (remember : Bool) : lexer.blockEnd remember src =
    (scan src lexer.pos .blockComment).map
      (fun stop? => (stop?, lexer.searched remember stop?)) := by
  have hscan := scan_blockComment h
  rw [← hpos] at hscan
  rw [blockEnd, hscan]
  cases remember with
  | false => rfl
  | true =>
      cases hfrom : lexer.unclosedFrom with
      | none =>
          simp only [searched, hfrom]
          rfl
      | some start =>
          obtain ⟨hle, hnone⟩ := hsound start hfrom
          have hnot : ¬ closeMark <:+: s := by
            rw [closeMark_isInfix_iff_of_pos h hpos]
            rintro ⟨i, hi, hclose⟩
            exact hnone i (by omega) hclose
          have hkept : lexer.searched true none = lexer := by
            cases lexer
            cases hfrom
            rfl
          rw [if_pos (by simpa using hle), blockCommentLength?_eq_none.mpr hnot]
          show _ = Except.ok (none, lexer.searched true none)
          rw [hkept]

theorem Sound.searched (remember : Bool) {stop? : Option Nat}
    (hscan : scan src lexer.pos .blockComment = .ok stop?) :
    (lexer.searched remember stop?).Sound src := by
  unfold Lexer.searched
  split
  · next hfailed =>
      intro start hstart
      cases hfrom : lexer.unclosedFrom with
      | some known =>
          rw [hfrom] at hstart
          exact hsound start (hfrom.trans hstart)
      | none =>
          rw [hfrom] at hstart
          cases hstart
          refine ⟨Nat.le_refl _, fun i hi hclose => ?_⟩
          have hahead : closeMark <:+: s :=
            (closeMark_isInfix_iff_of_pos h hpos).mpr ⟨i, hi, hclose⟩
          rw [hpos, scan_blockComment h] at hscan
          cases hscan
          have hnone := (Bool.and_eq_true_iff.mp hfailed).2
          rw [Option.isNone_iff_eq_none, Option.map_eq_none_iff] at hnone
          exact blockCommentLength?_eq_none.mp hnone hahead
  · exact hsound

end Searches

/-! ## At the beginning of a character -/

/-- The pass by bytes has put out what belongs to `flushed`, and `pending` is
code. What is ahead of both passes is `rest`. -/
structure Tracks (src : Encoded) (lexer : Lexer) (p : Progress)
    (flushed pending rest : Text) : Prop where
  text_eq : src.text = (flushed ++ pending) ++ rest
  codeStart_eq : lexer.codeStart = byteSize flushed
  pos_eq : lexer.pos = byteSize (flushed ++ pending)
  tokens_eq : p.tokens =
    { lexer.out with code := lexer.out.code ++ pending }

/-- The pass at `stop`, with everything in front of it put out. -/
def settle (lexer : Lexer) (stop : Nat) (out : Tokens) : Lexer :=
  { lexer with pos := stop, codeStart := stop, out }

variable {flushed pending rest : Text}

theorem tracks_settle (htext : src.text = front ++ rest) :
    Tracks src (lexer.settle (byteSize front) p.tokens) p front [] rest where
  text_eq := by rw [htext, List.append_nil]
  codeStart_eq := rfl
  pos_eq := by rw [List.append_nil]; rfl
  tokens_eq := by rw [List.append_nil]; rfl

theorem tracks_start (src : Encoded) : Tracks src {} {} [] [] src.text :=
  ⟨rfl, rfl, rfl, rfl⟩

namespace Tracks

theorem pos_add_eq (h : Tracks src lexer p flushed pending rest) :
    lexer.pos + byteSize rest = src.size := by
  rw [size_eq, h.text_eq, byteSize_append, h.pos_eq]

/-- The code that is pending can be cut out. -/
theorem flush_eq (h : Tracks src lexer p flushed pending rest) :
    lexer.flush src = .ok (lexer.settle lexer.pos p.tokens) := by
  have hcut : src.cut lexer.codeStart lexer.pos = .ok pending :=
    cut_eq_ok_iff.mpr ⟨flushed, rest, by rw [h.text_eq, List.append_assoc],
      h.codeStart_eq.symm, by rw [h.pos_eq, byteSize_append]⟩
  rw [flush, hcut, ok_bind, h.tokens_eq]
  rfl

section Region

variable (h : Tracks src lexer p flushed pending (c :: s))

include h

section

variable {stretch : Stretch} {length? : Option Nat}
  (hopens : Opens c s stretch length?)

include hopens

theorem stretchAt?_eq : stretchAt? src lexer.pos = some stretch := by
  rw [h.pos_eq, stretchAt?_of_opens h.text_eq hopens]

theorem scan_eq : scan src lexer.pos stretch = .ok (length?.map fun n =>
    byteSize (flushed ++ pending ++ (c :: s).take n)) := by
  rw [h.pos_eq, scan_of_opens h.text_eq hopens]

end

theorem text_region : src.text =
    (flushed ++ pending ++ (p.region c s).text) ++ p.rest c s := by
  rw [h.text_eq, ← p.region_append_rest c s, List.append_assoc,
    List.append_assoc, List.append_assoc]

/-- The next region can be cut out. -/
theorem cut_region : src.cut lexer.pos
    (byteSize (flushed ++ pending ++ (p.region c s).text)) =
      .ok (p.region c s).text :=
  cut_eq_ok_iff.mpr ⟨flushed ++ pending, p.rest c s,
    by rw [h.text_region, List.append_assoc], h.pos_eq.symm,
    (byteSize_append _ _).symm⟩

/-- The pass by characters takes in code, and the pass by bytes goes on. -/
theorem advance (hkind : (p.piece c s).kind = .code) :
    Tracks src (lexer.advance (byteSize (p.region c s).text)) (p.next c s)
      flushed (pending ++ (p.region c s).text) (p.rest c s) where
  text_eq := by rw [h.text_region, List.append_assoc flushed]
  codeStart_eq := h.codeStart_eq
  pos_eq := by
    rw [← List.append_assoc, byteSize_append, ← h.pos_eq]
    rfl
  tokens_eq := by
    have hregion : (p.region c s).kind = .code := hkind
    rw [p.tokens_next, Tokens.add, hregion, h.tokens_eq]
    simp [Lexer.advance]

theorem takeLiteral_eq (hkind : (p.piece c s).kind = .literal) :
    (lexer.settle lexer.pos p.tokens).takeLiteral src
        (byteSize (flushed ++ pending ++ (p.region c s).text)) =
      .ok (lexer.settle
        (byteSize (flushed ++ pending ++ (p.region c s).text))
        (p.next c s).tokens) := by
  have hregion : (p.region c s).kind = .literal := hkind
  rw [takeLiteral]
  show src.cut lexer.pos _ >>= _ = _
  rw [h.cut_region, ok_bind, p.tokens_next, Tokens.add, hregion]
  rfl

theorem dropComment_eq (hkind : (p.piece c s).kind = .comment) :
    (lexer.settle lexer.pos p.tokens).dropComment src
        (byteSize (flushed ++ pending ++ (p.region c s).text)) =
      .ok (lexer.settle
        (byteSize (flushed ++ pending ++ (p.region c s).text))
        (p.next c s).tokens) := by
  have hregion : (p.region c s).kind = .comment := hkind
  rw [dropComment, cut_suffix h.text_region, ok_bind]
  show src.cut lexer.pos _ >>= _ = _
  rw [h.cut_region, ok_bind, p.tokens_next, Tokens.add, hregion]
  rfl

end Region

theorem searched (h : Tracks src lexer p flushed pending rest)
    (remember : Bool) (stop? : Option Nat) :
    Tracks src (lexer.searched remember stop?) p flushed pending rest := by
  unfold Lexer.searched
  split
  · exact ⟨h.text_eq, h.codeStart_eq, h.pos_eq, h.tokens_eq⟩
  · exact h

end Tracks

/-- The next step succeeds, and the pass by characters is then at `p`. -/
def StepsTo (remember : Bool) (src : Encoded) (lexer : Lexer) (p : Progress)
    (rest : Text) : Prop :=
  ∃ next flushed pending, lexer.step remember src = .ok next ∧
    next.Sound src ∧ Tracks src next p flushed pending rest

section Steps

variable {remember : Bool} {lexer' : Lexer}
  (h : Tracks src lexer' p flushed pending (c :: s))
  (hsound : lexer'.Sound src)

include h hsound

theorem stepsTo_of_settle (hstep : lexer.step remember src = .ok (lexer'.settle
      (byteSize (flushed ++ pending ++ (p.region c s).text))
      (p.next c s).tokens)) :
    StepsTo remember src lexer (p.next c s) (p.rest c s) := by
  refine ⟨_, _, _, hstep, hsound.mono rfl ?_, tracks_settle h.text_region⟩
  rw [h.pos_eq]
  show byteSize _ ≤ byteSize (_ ++ _)
  rw [byteSize_append _ (p.region c s).text]
  exact Nat.le_add_right _ _

theorem stepsTo_of_advance (hkind : (p.piece c s).kind = .code)
    (hstep : lexer.step remember src =
      .ok (lexer'.advance (byteSize (p.region c s).text))) :
    StepsTo remember src lexer (p.next c s) (p.rest c s) :=
  ⟨_, _, _, hstep, hsound.mono rfl (Nat.le_add_right _ _), h.advance hkind⟩

end Steps

section Opens

variable (remember : Bool) (hsound : lexer.Sound src)

include hsound

/-- One step at a string or a template. -/
theorem Tracks.stepsTo_literal
    (h : Tracks src lexer p flushed pending (c :: s))
    (hkind : (p.piece c s).kind = .literal) {stretch : Stretch}
    (hscan : scan src lexer.pos stretch =
      .ok (some (byteSize (flushed ++ pending ++ (p.region c s).text))))
    (hstep : lexer.step remember src = lexer.flush src >>= fun flushed => do
      flushed.takeLiteral src
        ((← scan src flushed.pos stretch).getD src.size)) :
    StepsTo remember src lexer (p.next c s) (p.rest c s) := by
  refine stepsTo_of_settle h hsound ?_
  rw [hstep, h.flush_eq, ok_bind]
  show scan src lexer.pos _ >>= _ = _
  rw [hscan, ok_bind, Option.getD_some]
  exact h.takeLiteral_eq hkind

theorem Tracks.stepsTo_line
    (h : Tracks src lexer p flushed pending ('/' :: '/' :: s)) :
    StepsTo remember src lexer (p.next '/' ('/' :: s))
      (p.rest '/' ('/' :: s)) := by
  have hpiece : p.piece '/' ('/' :: s) = _ := Begins.line.nextPiece_eq
  have hdrop := h.dropComment_eq (by rw [hpiece])
  refine stepsTo_of_settle h hsound ?_
  rw [step, h.stretchAt?_eq .line]
  dsimp only
  rw [h.flush_eq, ok_bind]
  show scan src lexer.pos _ >>= _ = _
  rw [h.scan_eq .line, ok_bind, ← hdrop, Progress.region_text hpiece]
  rfl

theorem Tracks.stepsTo_block
    (h : Tracks src lexer p flushed pending ('/' :: '*' :: s))
    (hp : p.Sound ('/' :: '*' :: s)) :
    StepsTo remember src lexer (p.next '/' ('*' :: s))
      (p.rest '/' ('*' :: s)) := by
  have hat := h.stretchAt?_eq .block
  have hscan := h.scan_eq .block
  have hend := blockEnd_eq h.text_eq h.pos_eq hsound remember
  have hsound' := hsound.searched h.text_eq h.pos_eq remember hscan
  rw [hscan] at hend
  cases hlength : blockCommentLength? s with
  | some n =>
      have hsearch : p.unclosed = false := by
        rw [← Bool.not_eq_true]
        intro hunclosed
        rw [hp.blockCommentLength?_eq_none hunclosed] at hlength
        cases hlength
      have hpiece : p.piece '/' ('*' :: s) = _ :=
        (Begins.block hsearch hlength).nextPiece_eq
      have h' := h.searched remember
        (some (byteSize (flushed ++ pending ++ ('/' :: '*' :: s).take (n + 2))))
      have hdrop := h'.dropComment_eq (by rw [hpiece])
      rw [hlength] at hend hsound'
      refine stepsTo_of_settle h' hsound' ?_
      rw [step, hat]
      dsimp only
      rw [hend]
      show flush (lexer.searched remember (some _)) src >>= _ = _
      rw [h'.flush_eq, ok_bind, ← hdrop, Progress.region_text hpiece]
  | none =>
      have hpiece : p.piece '/' ('*' :: s) = _ :=
        (Begins.opener (Or.inr hlength)).nextPiece_eq
      rw [hlength] at hend hsound'
      refine stepsTo_of_advance (h.searched remember none) hsound'
        (by rw [hpiece]) ?_
      rw [step, hat]
      dsimp only
      rw [hend, Progress.region_text hpiece]
      rfl

/-- A slash that opens no regular expression is code, but the code in front of
it is put out already. -/
theorem Tracks.stepsTo_regex
    (h : Tracks src lexer p flushed pending ('/' :: s))
    (hs : s.head? ≠ some '/') (hs' : s.head? ≠ some '*') :
    StepsTo remember src lexer (p.next '/' s) (p.rest '/' s) := by
  have hat := h.stretchAt?_eq (.regex hs hs')
  have hscan := h.scan_eq (.regex hs hs')
  have hallowed : regexAllowed p.tokens.code = slashOpensRegex p.recent :=
    congrArg slashOpensRegex p.recent.reverse_reverse
  have hend : (lexer.settle lexer.pos p.tokens).regexEnd src =
      if slashOpensRegex p.recent then scan src lexer.pos .regex
      else .ok none := by
    rw [← hallowed]
    rfl
  by_cases hregex : slashOpensRegex p.recent = true ∧
      regexLength? false s ≠ none
  · obtain ⟨hrecent, hsome⟩ := hregex
    obtain ⟨n, hn⟩ := Option.ne_none_iff_exists'.mp hsome
    have hpiece : p.piece '/' s = _ :=
      (Begins.regex hs hs' hrecent hn).nextPiece_eq
    have htake := h.takeLiteral_eq (by rw [hpiece])
    refine stepsTo_of_settle h hsound ?_
    rw [step, hat]
    dsimp only
    rw [h.flush_eq, ok_bind, hend, if_pos hrecent, hscan, hn, ← htake,
      Progress.region_text hpiece]
    rfl
  · have hnone : slashOpensRegex p.recent = false ∨
        regexLength? false s = none :=
      (not_and_or.mp hregex).imp Bool.eq_false_of_not_eq_true not_not.mp
    have hpiece : p.piece '/' s = _ := (Begins.slash hs hs' hnone).nextPiece_eq
    have hsettled : Tracks src (lexer.settle lexer.pos p.tokens) p
        (flushed ++ pending) [] ('/' :: s) :=
      h.pos_eq ▸ tracks_settle h.text_eq
    have hend' : (lexer.settle lexer.pos p.tokens).regexEnd src =
        .ok none := by
      rcases hnone with hrecent | hnone
      · rw [hend, hrecent]
        rfl
      · rw [hend, hscan, hnone]
        exact ite_self _
    refine stepsTo_of_advance hsettled (hsound.mono rfl (Nat.le_refl _))
      (by rw [hpiece]) ?_
    rw [step, hat]
    dsimp only
    rw [h.flush_eq, ok_bind, hend', Progress.region_text hpiece]
    rfl

/-- One step where a stretch opens. -/
theorem Tracks.stepsTo_of_opens
    (h : Tracks src lexer p flushed pending (c :: s)) (hp : p.Sound (c :: s))
    {stretch : Stretch} {length? : Option Nat}
    (hopens : Opens c s stretch length?) :
    StepsTo remember src lexer (p.next c s) (p.rest c s) := by
  have hat := h.stretchAt?_eq hopens
  have hscan := h.scan_eq hopens
  cases hopens with
  | string hq =>
      have hpiece : p.piece c s = _ := (Begins.string hq).nextPiece_eq
      refine h.stepsTo_literal remember hsound (by rw [hpiece]) ?_
        (by rw [step, hat])
      rw [hscan, Progress.region_text hpiece]
      rfl
  | template =>
      have hpiece : p.piece '`' s = _ := Begins.template.nextPiece_eq
      refine h.stepsTo_literal remember hsound (by rw [hpiece]) ?_
        (by rw [step, hat])
      rw [hscan, Progress.region_text hpiece]
      rfl
  | line => exact h.stepsTo_line remember hsound
  | block => exact h.stepsTo_block remember hsound hp
  | regex hs hs' => exact h.stepsTo_regex remember hsound hs hs'

end Opens

/-! ## Between -/

/-- The states that the pass by bytes comes by: at the beginning of a character,
or inside of a character of code. -/
inductive Follows (src : Encoded) : Lexer → Prop
  | beginning {lexer : Lexer} {p : Progress} {flushed pending rest : Text}
      (hreaches : Progress.Reaches {} src.text p rest)
      (h : Tracks src lexer p flushed pending rest) : Follows src lexer
  | inside {lexer : Lexer} {p : Progress} {flushed pending s : Text} {c : Char}
      {k : Nat} (hreaches : Progress.Reaches {} src.text p (c :: s))
      (h : Tracks src lexer p flushed pending (c :: s))
      (hpos : 0 < k) (hk : k < c.utf8Size) : Follows src (lexer.advance k)

theorem follows_start (src : Encoded) : Follows src {} :=
  .beginning .here (tracks_start src)

/-- One more byte of a character that opens nothing. -/
theorem Tracks.follows_advance {k : Nat}
    (h : Tracks src lexer p flushed pending (c :: s))
    (hreaches : Progress.Reaches {} src.text p (c :: s))
    (hother : (c ≠ '\'' ∧ c ≠ '"') ∧ c ≠ '`' ∧ c ≠ '/')
    (hk : k < c.utf8Size) : Follows src (lexer.advance (k + 1)) := by
  by_cases hlast : k + 1 < c.utf8Size
  · exact .inside hreaches h (Nat.succ_pos k) hlast
  · have hpiece : p.piece c s = _ :=
      (Begins.other hother.1 hother.2.1 hother.2.2).nextPiece_eq
    have hnext := h.advance (by rw [hpiece])
    have hsize : byteSize (p.region c s).text = k + 1 := by
      rw [Progress.region_text hpiece]
      show byteSize [c] = k + 1
      rw [byteSize_cons, byteSize_nil]
      omega
    exact .beginning hreaches.next (hsize ▸ hnext)

/-- **No step fails.** -/
theorem Follows.exists_step (remember : Bool) (hfollows : Follows src lexer)
    (hsound : lexer.Sound src) (hlt : lexer.pos < src.size) :
    ∃ next, lexer.step remember src = .ok next ∧ Follows src next ∧
      next.Sound src := by
  cases hfollows with
  | @beginning _ p flushed pending rest hreaches h =>
      cases rest with
      | nil => exact absurd h.pos_add_eq (Nat.ne_of_lt hlt)
      | cons c s =>
          rcases exists_opens_or_other c s with ⟨_, _, hopens⟩ | hother
          · obtain ⟨next, _, _, hstep, hsound', hnext⟩ := h.stepsTo_of_opens
              remember hsound (hreaches.sound (by rintro ⟨⟩)) hopens
            exact ⟨next, hstep, .beginning hreaches.next hnext, hsound'⟩
          · have hat := stretchAt?_of_other h.text_eq hother.1 hother.2.1
              hother.2.2
            refine ⟨lexer.advance 1, ?_, ?_, ?_⟩
            · rw [step, h.pos_eq, hat]
            · exact h.follows_advance hreaches hother c.utf8Size_pos
            · exact hsound.mono rfl (Nat.le_succ _)
  | @inside start p flushed pending s c k hreaches h hpos hk =>
      have hat := stretchAt?_of_inside h.text_eq hpos hk
      have hne {d : Char} (hd : d.utf8Size = 1) : c ≠ d := by
        rintro rfl
        omega
      refine ⟨(start.advance k).advance 1, ?_, ?_, ?_⟩
      · rw [step, show (start.advance k).pos = _ from congrArg (· + k) h.pos_eq,
          hat]
      · exact h.follows_advance hreaches ⟨⟨hne (by decide), hne (by decide)⟩,
          hne (by decide), hne (by decide)⟩ hk
      · exact hsound.mono rfl (Nat.le_succ _)

/-- What is left to do at the end of the script. -/
theorem Follows.flush_eq (hfollows : Follows src lexer)
    (hle : src.size ≤ lexer.pos) : lexer.pos = src.size ∧
      lexer.flush src = .ok (lexer.settle lexer.pos (tokenize src.text)) := by
  cases hfollows with
  | @beginning _ p flushed pending rest hreaches h =>
      have hsize := h.pos_add_eq
      obtain rfl : rest = [] := by
        by_contra hrest
        have hpos := byteSize_pos hrest
        omega
      have hdone : Progress.run {} 0 src.text = p := hreaches.run_eq
      exact ⟨hsize, by rw [h.flush_eq, tokenize, hdone]⟩
  | @inside start p flushed pending s c k hreaches h hpos hk =>
      have hsize := h.pos_add_eq
      rw [byteSize_cons] at hsize
      have hadvance : (start.advance k).pos = start.pos + k := rfl
      omega

/-- **Both passes end with the same tokens.** -/
theorem Follows.run_eq (remember : Bool) (hfollows : Follows src lexer)
    (hsound : lexer.Sound src) :
    lexer.run remember src = .ok (tokenize src.text) := by
  fun_induction Lexer.run remember lexer src with
  | case1 lexer hlt bad hstep =>
      obtain ⟨next, hok, -⟩ := hfollows.exists_step remember hsound hlt
      rw [hstep] at hok
      cases hok
  | case2 lexer hlt next hstep ih =>
      obtain ⟨next', hok, hfollows', hsound'⟩ :=
        hfollows.exists_step remember hsound hlt
      rw [hstep] at hok
      cases hok
      exact ih hfollows' hsound'
  | case3 lexer hge =>
      rw [(hfollows.flush_eq (Nat.not_lt.mp hge)).2, ok_bind]
      rfl

/-! ## The states of a pass -/

/-- From one state the pass comes to another, where it remembers the searches
that have failed. -/
inductive Reaches (src : Encoded) (lexer : Lexer) : Lexer → Prop
  | here : Reaches src lexer lexer
  | step {later next : Lexer} (h : Reaches src lexer later)
      (hlt : later.pos < src.size) (hstep : later.step true src = .ok next) :
      Reaches src lexer next

theorem Reaches.pos_le {later : Lexer} (h : Reaches src lexer later) :
    lexer.pos ≤ later.pos := by
  induction h with
  | here => exact Nat.le_refl _
  | step _ _ hstep ih =>
      exact Nat.le_trans ih (Nat.le_of_lt (pos_lt_step hstep))

/-- The state behind `n` turns. -/
def walk (src : Encoded) (lexer : Lexer) : Nat → Lexer
  | 0 => lexer
  | n + 1 =>
      let later := walk src lexer n
      if later.pos < src.size then
        match later.step true src with
        | .ok next => next
        | .error _ => later
      else later

theorem reaches_walk (src : Encoded) (lexer : Lexer) (n : Nat) :
    Reaches src lexer (walk src lexer n) := by
  induction n with
  | zero => exact .here
  | succ n ih =>
      rw [walk]
      split
      · next hlt =>
          split
          · next hstep => exact ih.step hlt hstep
          · exact ih
      · exact ih

theorem sound_start (src : Encoded) : Sound src {} := by
  rintro start ⟨⟩

/-- The whole pass. -/
theorem run_start (remember : Bool) (src : Encoded) :
    run remember {} src = .ok (tokenize src.text) :=
  (follows_start src).run_eq remember (sound_start src)

theorem Reaches.follows (h : Reaches src {} lexer) :
    Follows src lexer ∧ lexer.Sound src := by
  induction h with
  | here => exact ⟨follows_start src, sound_start src⟩
  | step _ hlt hstep ih =>
      obtain ⟨next, hok, hnext⟩ := ih.1.exists_step true ih.2 hlt
      rw [hstep] at hok
      cases hok
      exact hnext

/-- Where a stretch opens, a character begins. -/
theorem Follows.exists_opens (hfollows : Follows src lexer) {stretch : Stretch}
    (hat : stretchAt? src lexer.pos = some stretch) :
    ∃ p flushed pending c s length?,
      Tracks src lexer p flushed pending (c :: s) ∧
        Opens c s stretch length? := by
  cases hfollows with
  | @beginning _ p flushed pending rest hreaches h =>
      cases rest with
      | nil =>
          have hlt := (Array.getElem?_eq_some_iff.mp
            (getElem?_of_stretchAt? hat)).1
          exact absurd h.pos_add_eq (Nat.ne_of_lt hlt)
      | cons c s =>
          rw [h.pos_eq] at hat
          obtain ⟨length?, hopens⟩ := exists_opens_of_stretchAt? h.text_eq hat
          exact ⟨p, flushed, pending, c, s, length?, h, hopens⟩
  | @inside start p flushed pending s c k hreaches h hpos hk =>
      have hnone := stretchAt?_of_inside h.text_eq hpos hk
      rw [← h.pos_eq] at hnone
      cases hat.symm.trans hnone

end Lexer

end ScriptMinifier.Script
