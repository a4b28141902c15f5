import Mathlib.Data.List.DropRight
import Mathlib.Data.List.Infix
import ScriptMinifier.Proofs.Replacement
import ScriptMinifier.Spacing

/-!
# White space in one pass

`Spacing.compress` is three replacements in a row. Here each of them becomes a
scan that remembers the blanks since the last other character, and the three
together become one such scan, `tighten`. Its laws are the ones used later: it
stops at words, it is idempotent, and it neither loses nor invents anything but
blanks.
-/

namespace ScriptMinifier.Spacing

open Text

/-- There are blanks only. -/
def AreBlank (s : Text) : Prop := ∀ c ∈ s, isBlank c = true

/-! ## The single passes as scans -/

/-- One space for every run of blanks; `pending` tells that a run is open. -/
def squeeze (pending : Bool) : Text → Text
  | [] => if pending then [' '] else []
  | c :: cs =>
      if isBlank c then squeeze true cs
      else (if pending then [' '] else []) ++ c :: squeeze false cs

/-- Drops the runs of blanks that touch punctuation. `glued` tells that the last
character other than a blank was punctuation, `run` holds the blanks since. -/
def shed (glued : Bool) (run : Text) : Text → Text
  | [] => if glued then [] else run
  | c :: cs =>
      if isBlank c then shed glued (run ++ [c]) cs
      else (if glued || isPunctuation c then [] else run) ++
        c :: shed (isPunctuation c) [] cs

/-- One space for every run of blanks that touches no punctuation. -/
def tighten (glued pending : Bool) : Text → Text
  | [] => if pending && !glued then [' '] else []
  | c :: cs =>
      if isBlank c then tighten glued true cs
      else (if pending && !glued && !isPunctuation c then [' '] else []) ++
        c :: tighten (isPunctuation c) false cs

theorem tighten_blank {c : Char} (h : isBlank c = true) (glued pending : Bool)
    (cs : Text) :
    tighten glued pending (c :: cs) = tighten glued true cs := by
  rw [tighten, if_pos h]

theorem tighten_of_not_blank {c : Char} (h : isBlank c = false)
    (glued pending : Bool) (cs : Text) :
    tighten glued pending (c :: cs) =
      (if pending && !glued && !isPunctuation c then [' '] else []) ++
        c :: tighten (isPunctuation c) false cs := by
  rw [tighten, if_neg (by simp [h])]

/-- Blanks leave a run open, if there are any. -/
theorem tighten_blanks {blanks : Text} (h : AreBlank blanks)
    (glued pending : Bool) (s : Text) :
    tighten glued pending (blanks ++ s) =
      tighten glued (pending || !blanks.isEmpty) s := by
  induction blanks generalizing pending with
  | nil => simp
  | cons b blanks ih =>
      rw [AreBlank, List.forall_mem_cons] at h
      rw [List.cons_append, tighten_blank h.1, ih h.2]
      simp

theorem shed_blank {c : Char} (h : isBlank c = true) (glued : Bool)
    (run cs : Text) :
    shed glued run (c :: cs) = shed glued (run ++ [c]) cs := by
  rw [shed, if_pos h]

theorem shed_of_not_blank {c : Char} (h : isBlank c = false) (glued : Bool)
    (run cs : Text) :
    shed glued run (c :: cs) =
      (if glued || isPunctuation c then [] else run) ++
        c :: shed (isPunctuation c) [] cs := by
  rw [shed, if_neg (by simp [h])]

theorem isBlank_space : isBlank ' ' = true := by decide

theorem isBlank_newline : isBlank '\n' = true := by decide

theorem drop_length_takeWhile (p : Char → Bool) (s : Text) :
    s.drop (s.takeWhile p).length = s.dropWhile p := by
  calc s.drop (s.takeWhile p).length
      = (s.takeWhile p ++ s.dropWhile p).drop (s.takeWhile p).length := by
        rw [List.takeWhile_append_dropWhile]
    _ = s.dropWhile p := List.drop_left

/-! ## Collapsing -/

theorem collapseRule_blind : Rule.Blind collapseRule := fun _ _ => rfl

theorem collapse_cons_of_not_blank {c : Char} (h : isBlank c = false)
    (cs : Text) : collapse (c :: cs) = c :: collapse cs := by
  have hnone : collapseRule none (c :: cs) = none := by
    simp [collapseRule, h]
  exact collapseRule_blind.replace_of_none hnone

theorem collapse_cons_of_blank {c : Char} (h : isBlank c = true) (cs : Text) :
    collapse (c :: cs) = ' ' :: collapse (cs.dropWhile isBlank) := by
  have hsome : collapseRule none (c :: cs) =
      some ⟨((c :: cs).takeWhile isBlank).length, [' ']⟩ := by
    simp [collapseRule, h]
  have hrest : (c :: cs).drop ((c :: cs).takeWhile isBlank).length =
      cs.dropWhile isBlank := by
    rw [drop_length_takeWhile, List.dropWhile_cons_of_pos h]
  have hpos : 0 < ((c :: cs).takeWhile isBlank).length := by simp [h]
  show replace collapseRule (c :: cs) = _
  rw [collapseRule_blind.replace_of_some hsome hpos, hrest]
  rfl

/-- With a run open, the rest of the run goes first. -/
theorem squeeze_eq_collapse : ∀ s : Text, squeeze false s = collapse s ∧
    squeeze true s = ' ' :: collapse (s.dropWhile isBlank)
  | [] => ⟨rfl, rfl⟩
  | c :: cs => by
      obtain ⟨ihfalse, ihtrue⟩ := squeeze_eq_collapse cs
      cases h : isBlank c with
      | true =>
          rw [squeeze, if_pos h, squeeze, if_pos h, ihtrue,
            collapse_cons_of_blank h, List.dropWhile_cons_of_pos h]
          exact ⟨rfl, rfl⟩
      | false =>
          have hneg : ¬ isBlank c = true := by simp [h]
          rw [squeeze, if_neg hneg, squeeze, if_neg hneg, ihfalse,
            List.dropWhile_cons_of_neg hneg, collapse_cons_of_not_blank h]
          exact ⟨rfl, rfl⟩

/-! ## Shedding blanks beside punctuation -/

theorem trimRule_blind : Rule.Blind trimRule := fun _ _ => rfl

/-- Blanks in front of punctuation go with it, and so do the blanks behind. -/
theorem trimPunctuation_of_punctuation {run : Text} (hrun : AreBlank run)
    {c : Char} (hblank : isBlank c = false) (hc : isPunctuation c = true)
    (s : Text) : trimPunctuation (run ++ c :: s) =
      c :: trimPunctuation (s.dropWhile isBlank) := by
  have htake : (run ++ c :: s).takeWhile isBlank = run :=
    takeWhile_append_eq hrun (by simpa using hblank)
  have hsome : trimRule none (run ++ c :: s) =
      some ⟨run.length + 1 + (s.takeWhile isBlank).length, [c]⟩ := by
    simp only [trimRule, htake, List.drop_left, if_pos hc]
  have hdrop : (run ++ c :: s).drop
      (run.length + 1 + (s.takeWhile isBlank).length) =
        s.dropWhile isBlank := by
    rw [Nat.add_assoc, List.drop_length_add_append, Nat.add_comm,
      List.drop_succ_cons, drop_length_takeWhile]
  obtain ⟨d, t, hcons⟩ := List.exists_cons_of_ne_nil
    (show run ++ c :: s ≠ [] by simp)
  rw [hcons] at hsome hdrop ⊢
  show replace trimRule (d :: t) = _
  rw [trimRule_blind.replace_of_some hsome (by dsimp only; omega), hdrop]
  rfl

/-- A match that begins in a run of blanks fails where no punctuation follows
the run. -/
theorem trimPunctuation_of_plain {run s : Text} (hrun : AreBlank run)
    (hblank : s.head?.any isBlank = false)
    (hs : s.head?.any isPunctuation = false) :
    trimPunctuation (run ++ s) = run ++ trimPunctuation s := by
  induction run with
  | nil => rfl
  | cons b run ih =>
      have htake := takeWhile_append_eq hrun hblank
      rw [AreBlank, List.forall_mem_cons] at hrun
      have hnone : trimRule none (b :: (run ++ s)) = none := by
        rw [← List.cons_append]
        simp only [trimRule, htake, List.drop_left]
        cases s with
        | nil => rfl
        | cons c s => exact if_neg (by simpa using hs)
      rw [List.cons_append, List.cons_append, ← ih hrun.2]
      exact trimRule_blind.replace_of_none hnone

theorem trimPunctuation_cons_of_plain {c : Char} (hblank : isBlank c = false)
    (hc : isPunctuation c = false) (s : Text) :
    trimPunctuation (c :: s) = c :: trimPunctuation s := by
  have hnone : trimRule none (c :: s) = none := by
    simp [trimRule, hblank, hc]
  exact trimRule_blind.replace_of_none hnone

/-- Behind punctuation a match has taken the blanks, elsewhere the run is still
ahead of it. -/
theorem shed_eq_trimPunctuation (s : Text) :
    (∀ run, AreBlank run → shed false run s = trimPunctuation (run ++ s)) ∧
    ∀ run, shed true run s = trimPunctuation (s.dropWhile isBlank) := by
  induction s with
  | nil =>
      refine ⟨fun run hrun => ?_, fun run => rfl⟩
      rw [trimPunctuation_of_plain hrun rfl rfl]
      exact (List.append_nil run).symm
  | cons c s ih =>
      obtain ⟨ihrun, ihglued⟩ := ih
      cases hblank : isBlank c with
      | true =>
          constructor
          · intro run hrun
            have hconcat : AreBlank (run ++ [c]) := by
              rw [AreBlank, List.forall_mem_append, List.forall_mem_singleton]
              exact ⟨hrun, hblank⟩
            rw [shed_blank hblank, ihrun _ hconcat, List.append_assoc]
            rfl
          · intro run
            rw [shed_blank hblank, ihglued, List.dropWhile_cons_of_pos hblank]
      | false =>
          have hneg : ¬ isBlank c = true := by simp [hblank]
          rw [List.dropWhile_cons_of_neg hneg]
          cases hc : isPunctuation c with
          | true =>
              have hmatch (run : Text) (hrun : AreBlank run) :
                  c :: shed true [] s = trimPunctuation (run ++ c :: s) := by
                rw [trimPunctuation_of_punctuation hrun hblank hc, ihglued]
              constructor
              · intro run hrun
                rw [shed_of_not_blank hblank, hc, hmatch run hrun]
                rfl
              · intro run
                rw [shed_of_not_blank hblank, hc,
                  hmatch [] (by simp [AreBlank])]
                rfl
          | false =>
              have hkept : c :: shed false [] s = trimPunctuation (c :: s) := by
                rw [trimPunctuation_cons_of_plain hblank hc,
                  ihrun [] (by simp [AreBlank])]
                rfl
              constructor
              · intro run hrun
                rw [shed_of_not_blank hblank, hc, hkept,
                  trimPunctuation_of_plain hrun (by simpa using hblank)
                    (by simpa using hc)]
                rfl
              · intro run
                rw [shed_of_not_blank hblank, hc, hkept]
                rfl

theorem trimPunctuation_eq_shed (s : Text) :
    trimPunctuation s = shed false [] s :=
  ((shed_eq_trimPunctuation s).1 [] (by simp [AreBlank])).symm

/-! ## The passes together -/

theorem shed_squeeze : ∀ (s : Text) (glued pending : Bool),
    shed glued [] (squeeze pending s) = tighten glued pending s
  | [], glued, pending => by
      cases pending <;> cases glued <;>
        simp [squeeze, shed, tighten, isBlank_space]
  | c :: cs, glued, pending => by
      cases h : isBlank c with
      | true =>
          rw [squeeze, if_pos h, tighten_blank h]
          exact shed_squeeze cs glued true
      | false =>
          rw [squeeze, if_neg (by simp [h]), tighten_of_not_blank h]
          cases pending <;> cases glued <;> cases hp : isPunctuation c <;>
            simp [shed, h, hp, isBlank_space, shed_squeeze cs]

theorem squeeze_tighten : ∀ (s : Text) (glued pending : Bool),
    squeeze false (tighten glued pending s) = tighten glued pending s
  | [], glued, pending => by
      cases pending <;> cases glued <;> simp [squeeze, tighten, isBlank_space]
  | c :: cs, glued, pending => by
      cases h : isBlank c with
      | true =>
          rw [tighten_blank h]
          exact squeeze_tighten cs glued true
      | false =>
          rw [tighten_of_not_blank h]
          cases pending <;> cases glued <;> cases hp : isPunctuation c <;>
            simp [squeeze, h, isBlank_space, squeeze_tighten cs]

/-- **Compression in one pass.** -/
theorem compress_eq_tighten (s : Text) :
    compress s = tighten false false s := by
  rw [compress, ← (squeeze_eq_collapse s).1, trimPunctuation_eq_shed,
    shed_squeeze, ← (squeeze_eq_collapse _).1, squeeze_tighten]

/-! ## Words stop the scan -/

/-- Characters that the scan passes on as they are. -/
def isPlain (c : Char) : Bool := !isBlank c && !isPunctuation c

theorem isPlain_iff {c : Char} :
    isPlain c = true ↔ isBlank c = false ∧ isPunctuation c = false := by
  simp [isPlain]

theorem tighten_append_cons {c : Char} (h : isPlain c = true) (t : Text) :
    ∀ (s : Text) (glued pending : Bool),
      tighten glued pending (s ++ c :: t) =
        tighten glued pending s ++ c :: tighten false false t := by
  obtain ⟨hb, hp⟩ := isPlain_iff.mp h
  intro s
  induction s with
  | nil =>
      intro glued pending
      rw [List.nil_append, tighten_of_not_blank hb, hp, tighten]
      simp
  | cons d s ih =>
      intro glued pending
      rw [List.cons_append]
      cases hd : isBlank d with
      | true => rw [tighten_blank hd, tighten_blank hd, ih]
      | false =>
          rw [tighten_of_not_blank hd, tighten_of_not_blank hd, ih]
          simp

/-- A word with text on both sides: each side is compressed on its own. -/
theorem compress_append_word {word : Text} (hne : word ≠ [])
    (hword : ∀ c ∈ word, isPlain c = true) (s t : Text) :
    compress (s ++ (word ++ t)) = compress s ++ (word ++ compress t) := by
  simp only [compress_eq_tighten]
  induction word generalizing s with
  | nil => exact absurd rfl hne
  | cons c word ih =>
      rw [List.cons_append, tighten_append_cons (hword c List.mem_cons_self)]
      cases word with
      | nil => rfl
      | cons d word =>
          have hrest := ih (by simp)
            (fun x hx => hword x (List.mem_cons_of_mem _ hx)) []
          rw [List.nil_append] at hrest
          rw [hrest]
          rfl

/-- Blanks between two characters that are passed on leave one space. -/
theorem compress_blanks_between {a b : Char} (ha : isPlain a = true)
    (hb : isPlain b = true) {blanks : Text} (h : AreBlank blanks)
    (hne : blanks ≠ []) (s t : Text) :
    compress (s ++ a :: (blanks ++ b :: t)) =
      compress s ++ a :: ' ' :: b :: compress t := by
  obtain ⟨hblank, hpunct⟩ := isPlain_iff.mp hb
  simp only [compress_eq_tighten]
  rw [tighten_append_cons ha, tighten_blanks h, tighten_of_not_blank hblank,
    hpunct]
  simp [hne]

/-! ## Nothing but blanks changes -/

theorem mem_tighten {x : Char} : ∀ {s : Text} {glued pending : Bool},
    x ∈ tighten glued pending s → x ∈ s ∨ x = ' '
  | [], glued, pending, h => by
      rw [tighten] at h
      split at h
      · exact Or.inr (by simpa using h)
      · simp at h
  | c :: cs, glued, pending, h => by
      cases hb : isBlank c with
      | true =>
          rw [tighten_blank hb] at h
          exact (mem_tighten h).imp_left (List.mem_cons_of_mem _)
      | false =>
          rw [tighten_of_not_blank hb, List.mem_append, List.mem_cons] at h
          rcases h with h | rfl | h
          · split at h
            · exact Or.inr (by simpa using h)
            · simp at h
          · exact Or.inl List.mem_cons_self
          · exact (mem_tighten h).imp_left (List.mem_cons_of_mem _)

theorem mem_compress {x : Char} {s : Text} (h : x ∈ compress s) :
    x ∈ s ∨ x = ' ' := by
  rw [compress_eq_tighten] at h
  exact mem_tighten h

/-- The characters other than blanks come out as they went in. -/
theorem filter_tighten : ∀ (s : Text) (glued pending : Bool),
    (tighten glued pending s).filter (!isBlank ·) = s.filter (!isBlank ·)
  | [], glued, pending => by
      cases pending <;> cases glued <;> simp [tighten, isBlank_space]
  | c :: cs, glued, pending => by
      cases h : isBlank c with
      | true =>
          rw [tighten_blank h, filter_tighten cs]
          simp [h]
      | false =>
          rw [tighten_of_not_blank h, List.filter_append]
          have hgap : (if pending && !glued && !isPunctuation c then [' ']
              else []).filter (!isBlank ·) = [] := by
            split <;> simp [isBlank_space]
          rw [hgap, List.nil_append, List.filter_cons, List.filter_cons,
            filter_tighten cs]

theorem filter_compress (s : Text) :
    (compress s).filter (!isBlank ·) = s.filter (!isBlank ·) := by
  rw [compress_eq_tighten, filter_tighten]

/-- An open run ends in a space or in punctuation. -/
theorem isPlain_head?_tighten {c : Char} : ∀ {s : Text},
    (tighten false true s).head? = some c → isPlain c = false
  | [], h => by
      obtain rfl : ' ' = c := by simpa [tighten] using h
      simp [isPlain, isBlank_space]
  | d :: s, h => by
      cases hd : isBlank d with
      | true =>
          rw [tighten_blank hd] at h
          exact isPlain_head?_tighten h
      | false =>
          rw [tighten_of_not_blank hd] at h
          cases hp : isPunctuation d with
          | true =>
              obtain rfl : d = c := by simpa [hp] using h
              simp [isPlain, hp]
          | false =>
              obtain rfl : ' ' = c := by simpa [hp] using h
              simp [isPlain, isBlank_space]

/-- A word at the start of the compressed text stands there from the outset. -/
theorem isPrefix_of_isPrefix_tighten : ∀ {word s : Text},
    (∀ c ∈ word, isPlain c = true) → word <+: tighten false false s →
    word <+: s
  | [], s, _, _ => List.nil_prefix
  | c :: word, [], _, h => by simp [tighten] at h
  | c :: word, d :: s, hword, h => by
      have hc := hword c List.mem_cons_self
      cases hd : isBlank d with
      | false =>
          rw [tighten_of_not_blank hd] at h
          simp only [Bool.false_and, Bool.false_eq_true, if_false,
            List.nil_append, List.cons_prefix_cons] at h
          obtain ⟨rfl, h⟩ := h
          have hp : isPunctuation c = false := by
            simp only [isPlain, Bool.and_eq_true, Bool.not_eq_true'] at hc
            exact hc.2
          rw [hp] at h
          refine List.cons_prefix_cons.mpr ⟨rfl, ?_⟩
          exact isPrefix_of_isPrefix_tighten
            (fun x hx => hword x (List.mem_cons_of_mem _ hx)) h
      | true =>
          rw [tighten_blank hd] at h
          obtain ⟨rest, hrest⟩ := h
          have hhead : (tighten false true s).head? = some c := by
            rw [← hrest]
            rfl
          rw [isPlain_head?_tighten hhead] at hc
          exact Bool.noConfusion hc

/-- A word of the compressed text is a word of the text. -/
theorem isInfix_of_isInfix_tighten {word : Text} (hne : word ≠ [])
    (hword : ∀ c ∈ word, isPlain c = true) : ∀ {s : Text}
    {glued pending : Bool}, word <:+: tighten glued pending s → word <:+: s
  | [], glued, pending, h => by
      obtain ⟨c, w, rfl⟩ := List.exists_cons_of_ne_nil hne
      have hc : c ∈ tighten glued pending [] := h.subset List.mem_cons_self
      rcases mem_tighten hc with hc | rfl
      · simp at hc
      · have hplain := hword ' ' List.mem_cons_self
        simp [isPlain, isBlank_space] at hplain
  | d :: s, glued, pending, h => by
      have hspace : ∀ t : Text, word <:+: ' ' :: t → word <:+: t := by
        intro t ht
        rcases List.infix_cons_iff.mp ht with hpre | hinf
        · obtain ⟨c, w, rfl⟩ := List.exists_cons_of_ne_nil hne
          have hc := (List.cons_prefix_cons.mp hpre).1
          have hplain := hword c List.mem_cons_self
          rw [hc] at hplain
          simp [isPlain, isBlank_space] at hplain
        · exact hinf
      cases hd : isBlank d with
      | true =>
          rw [tighten_blank hd] at h
          exact List.infix_cons (isInfix_of_isInfix_tighten hne hword h)
      | false =>
          rw [tighten_of_not_blank hd] at h
          have hcons : word <:+: d :: tighten (isPunctuation d) false s := by
            split at h
            · exact hspace _ h
            · exact h
          rcases List.infix_cons_iff.mp hcons with hpre | hinf
          · obtain ⟨c, w, rfl⟩ := List.exists_cons_of_ne_nil hne
            obtain ⟨rfl, hpre⟩ := List.cons_prefix_cons.mp hpre
            have hplain := hword c List.mem_cons_self
            have hp : isPunctuation c = false := by
              simp only [isPlain, Bool.and_eq_true, Bool.not_eq_true'] at hplain
              exact hplain.2
            rw [hp] at hpre
            have hrest := isPrefix_of_isPrefix_tighten
              (fun x hx => hword x (List.mem_cons_of_mem _ hx)) hpre
            exact (List.cons_prefix_cons.mpr ⟨rfl, hrest⟩).isInfix
          · exact List.infix_cons (isInfix_of_isInfix_tighten hne hword hinf)

theorem isInfix_of_isInfix_compress {word s : Text} (hne : word ≠ [])
    (hword : ∀ c ∈ word, isPlain c = true) (h : word <:+: compress s) :
    word <:+: s := by
  rw [compress_eq_tighten] at h
  exact isInfix_of_isInfix_tighten hne hword h

/-! ## Compressed text is compressed -/

theorem tighten_tighten : ∀ (s : Text) (glued pending : Bool),
    tighten glued false (tighten glued pending s) = tighten glued pending s
  | [], glued, pending => by
      cases pending <;> cases glued <;> simp [tighten, isBlank_space]
  | c :: cs, glued, pending => by
      cases h : isBlank c with
      | true =>
          rw [tighten_blank h]
          exact tighten_tighten cs glued true
      | false =>
          rw [tighten_of_not_blank h]
          cases pending <;> cases glued <;> cases hp : isPunctuation c <;>
            simp [tighten, h, hp, isBlank_space, tighten_tighten cs]

theorem compress_compress (s : Text) : compress (compress s) = compress s := by
  simp only [compress_eq_tighten, tighten_tighten]

/-- A blank at the end adds one space or nothing. -/
theorem tighten_concat_blank {b : Char} (hb : isBlank b = true) :
    ∀ (s : Text) (glued pending : Bool),
      tighten glued pending (s ++ [b]) = tighten glued pending s ∨
        tighten glued pending (s ++ [b]) = tighten glued pending s ++ [' ']
  | [], glued, pending => by
      rw [List.nil_append, tighten_blank hb]
      cases pending <;> cases glued <;> simp [tighten]
  | c :: cs, glued, pending => by
      rw [List.cons_append]
      cases h : isBlank c with
      | true =>
          rw [tighten_blank h, tighten_blank h]
          exact tighten_concat_blank hb cs glued true
      | false =>
          rw [tighten_of_not_blank h, tighten_of_not_blank h]
          rcases tighten_concat_blank hb cs (isPunctuation c) false
            with heq | heq
          · exact Or.inl (by rw [heq])
          · exact Or.inr (by rw [heq]; simp)

theorem length_tighten_le : ∀ (s : Text) (glued pending : Bool),
    (tighten glued pending s).length ≤ s.length + pending.toNat
  | [], glued, pending => by
      cases pending <;> cases glued <;> simp [tighten]
  | c :: cs, glued, pending => by
      cases h : isBlank c with
      | true =>
          rw [tighten_blank h]
          have ih := length_tighten_le cs glued true
          simp only [Bool.toNat_true] at ih
          simp only [List.length_cons]
          omega
      | false =>
          rw [tighten_of_not_blank h]
          have ih := length_tighten_le cs (isPunctuation c) false
          have hgap : (if pending && !glued && !isPunctuation c then [' ']
              else []).length ≤ pending.toNat := by
            cases pending with
            | false => simp
            | true => split <;> simp
          simp only [Bool.toNat_false] at ih
          simp only [List.length_append, List.length_cons]
          omega

/-! ## Trimming compressed text

Trimming takes blanks away one by one, and each text on the way is compressed.
-/

theorem compress_of_concat_blank {s : Text} {b : Char} (hb : isBlank b = true)
    (h : compress (s ++ [b]) = s ++ [b]) : compress s = s := by
  rw [compress_eq_tighten] at h ⊢
  rcases tighten_concat_blank hb s false false with heq | heq
  · have hlen := length_tighten_le s false false
    rw [← heq, h, List.length_append] at hlen
    exact absurd hlen (by simp)
  · rw [heq] at h
    exact (List.append_inj' h rfl).1

theorem compress_of_cons_blank {s : Text} {b : Char} (hb : isBlank b = true)
    (h : compress (b :: s) = b :: s) : compress s = s := by
  rw [compress_eq_tighten, tighten_blank hb] at h
  rw [compress_eq_tighten]
  cases s with
  | nil => rfl
  | cons c cs =>
      cases hc : isBlank c with
      | true =>
          have hlen := length_tighten_le cs false true
          rw [tighten_blank hc] at h
          rw [h] at hlen
          exact absurd hlen (by simp)
      | false =>
          rw [tighten_of_not_blank hc] at h ⊢
          cases hp : isPunctuation c with
          | true =>
              have hlen := length_tighten_le cs true false
              simp only [hp, Bool.not_true, Bool.and_false, Bool.false_eq_true,
                if_false, List.nil_append, List.cons.injEq] at h
              rw [h.2] at hlen
              exact absurd hlen (by simp)
          | false =>
              rw [hp] at h
              exact (List.cons.inj h).2

theorem compress_dropWhile_isBlank {s : Text} (h : compress s = s) :
    compress (s.dropWhile isBlank) = s.dropWhile isBlank := by
  induction s with
  | nil => exact h
  | cons c s ih =>
      cases hc : isBlank c with
      | true =>
          rw [List.dropWhile_cons_of_pos hc]
          exact ih (compress_of_cons_blank hc h)
      | false => rwa [List.dropWhile_cons_of_neg (by simp [hc])]

theorem compress_rdropWhile_isBlank {s : Text} (h : compress s = s) :
    compress (s.rdropWhile isBlank) = s.rdropWhile isBlank := by
  induction s using List.reverseRecOn with
  | nil => exact h
  | append_singleton s c ih =>
      cases hc : isBlank c with
      | true =>
          rw [List.rdropWhile_concat_pos _ _ _ hc]
          exact ih (compress_of_concat_blank hc h)
      | false => rwa [List.rdropWhile_concat_neg _ _ _ (by simp [hc])]

/-- At the start of a text blanks go, as they do behind punctuation. -/
theorem dropWhile_tighten (s : Text) (pending : Bool) :
    (tighten false pending s).dropWhile isBlank = tighten true pending s := by
  induction s generalizing pending with
  | nil => cases pending <;> rfl
  | cons c s ih =>
      cases hc : isBlank c with
      | true => rw [tighten_blank hc, tighten_blank hc, ih]
      | false =>
          have hspace : ∀ b : Bool,
              ∀ d ∈ (if b then [' '] else [] : Text), isBlank d = true := by
            intro b
            cases b <;> simp [isBlank_space]
          rw [tighten_of_not_blank hc, tighten_of_not_blank hc,
            List.dropWhile_append_of_pos (hspace _),
            List.dropWhile_cons_of_neg (by simp [hc])]
          simp

theorem tighten_concat {c : Char} (hc : isBlank c = false) (s : Text)
    (glued pending : Bool) :
    ∃ t, tighten glued pending (s ++ [c]) = t ++ [c] := by
  induction s generalizing glued pending with
  | nil => exact ⟨_, tighten_of_not_blank hc glued pending []⟩
  | cons d s ih =>
      rw [List.cons_append]
      cases hd : isBlank d with
      | true =>
          rw [tighten_blank hd]
          exact ih glued true
      | false =>
          obtain ⟨t, ht⟩ := ih (isPunctuation d) false
          rw [tighten_of_not_blank hd, ht, ← List.cons_append,
            ← List.append_assoc]
          exact ⟨_, rfl⟩

theorem rdropWhile_tighten (s : Text) (glued : Bool) :
    (tighten glued false s).rdropWhile isBlank =
      tighten glued false (s.rdropWhile isBlank) := by
  induction s using List.reverseRecOn with
  | nil => rfl
  | append_singleton s c ih =>
      cases hc : isBlank c with
      | true =>
          rw [List.rdropWhile_concat_pos _ _ _ hc, ← ih]
          rcases tighten_concat_blank hc s glued false with heq | heq
          · rw [heq]
          · rw [heq, List.rdropWhile_concat_pos _ _ _ isBlank_space]
      | false =>
          obtain ⟨t, ht⟩ := tighten_concat hc s glued false
          rw [List.rdropWhile_concat_neg _ _ _ (by simp [hc]), ht,
            List.rdropWhile_concat_neg _ _ _ (by simp [hc])]

/-! ## Trimming the ends -/

theorem rdropWhile_append (p : Char → Bool) (s t : Text) :
    (s ++ t).rdropWhile p = if t.rdropWhile p = [] then s.rdropWhile p
      else s ++ t.rdropWhile p := by
  simp only [List.rdropWhile, List.reverse_append, List.dropWhile_append,
    List.reverse_eq_nil_iff, List.isEmpty_iff]
  split <;> simp

theorem rdropWhile_append_cons {p : Char → Bool} {c : Char} (hc : p c = false)
    (s t : Text) : (s ++ c :: t).rdropWhile p = s ++ c :: t.rdropWhile p := by
  have hcons : (c :: t).rdropWhile p = c :: t.rdropWhile p := by
    rw [← List.singleton_append, rdropWhile_append, List.rdropWhile_singleton,
      hc]
    split
    · next ht =>
        rw [ht]
        rfl
    · rfl
  rw [rdropWhile_append, hcons, if_neg (by simp)]

theorem trim_eq (s : Text) :
    trim s = (s.dropWhile isBlank).rdropWhile isBlank := rfl

end ScriptMinifier.Spacing
