import Mathlib.Data.List.Find
import Mathlib.Data.List.Infix
import Mathlib.Data.List.Sort
import ScriptMinifier.Proofs.Replacement
import ScriptMinifier.Rename.Renamer

/-!
# Renaming word by word

A word is a run of word characters with none before and none behind it. If all
names are words, renaming looks at each word as a whole: it is replaced where it
is a name and stays where it is none, and nothing else changes.
-/

namespace ScriptMinifier

open Text

/-- There are word characters only. -/
def IsWord (s : Text) : Prop := ∀ c ∈ s, isWordChar c = true

instance (s : Text) : Decidable (IsWord s) :=
  decidable_of_iff (s.all isWordChar = true) List.all_eq_true

/-- No word goes on from the one text into the other. -/
def Apart (s t : Text) : Prop :=
  s.getLast?.any isWordChar = false ∨ t.head?.any isWordChar = false

theorem IsWord.head?_any {c : Char} {s : Text} (h : IsWord (c :: s)) :
    (c :: s).head?.any isWordChar = true :=
  h c List.mem_cons_self

theorem IsWord.append {s t : Text} (hs : IsWord s) (ht : IsWord t) :
    IsWord (s ++ t) :=
  List.forall_mem_append.mpr ⟨hs, ht⟩

/-- Every text is a word, which may be empty, and what is behind it. -/
theorem exists_word (s : Text) : ∃ w rest, s = w ++ rest ∧ IsWord w ∧
    rest.head?.any isWordChar = false :=
  ⟨s.takeWhile isWordChar, s.dropWhile isWordChar,
    List.takeWhile_append_dropWhile.symm,
    List.all_eq_true.mp List.all_takeWhile, any_head?_dropWhile isWordChar s⟩

/-! ## Mapping words -/

/-- Maps the words of a text, after `word` has been read of the first one. -/
def mapWordsFrom (f : Text → Text) (word : Text) : Text → Text
  | [] => f word
  | c :: s =>
      if isWordChar c then mapWordsFrom f (word ++ [c]) s
      else f word ++ c :: mapWordsFrom f [] s

/-- The text with `f` applied to each of its words. -/
def mapWords (f : Text → Text) (s : Text) : Text := mapWordsFrom f [] s

section MapWords

variable {f : Text → Text}

theorem mapWordsFrom_word {w : Text} (hw : IsWord w) (word s : Text) :
    mapWordsFrom f word (w ++ s) = mapWordsFrom f (word ++ w) s := by
  induction w generalizing word with
  | nil => rw [List.nil_append, List.append_nil]
  | cons c w ih =>
      rw [IsWord, List.forall_mem_cons] at hw
      rw [List.cons_append, mapWordsFrom, if_pos hw.1, ih hw.2,
        List.append_assoc, List.singleton_append]

theorem mapWords_word {w : Text} (hw : IsWord w) : mapWords f w = f w := by
  have h := mapWordsFrom_word (f := f) hw [] []
  rwa [List.append_nil, List.nil_append] at h

theorem mapWords_nil : mapWords f [] = f [] := rfl

theorem mapWordsFrom_append_cons {c : Char} (hc : isWordChar c = false)
    (word s t : Text) : mapWordsFrom f word (s ++ c :: t) =
      mapWordsFrom f word s ++ c :: mapWords f t := by
  induction s generalizing word with
  | nil => simp [mapWordsFrom, hc, mapWords]
  | cons d s ih =>
      rw [List.cons_append, mapWordsFrom, mapWordsFrom]
      split
      · exact ih _
      · rw [ih, List.append_assoc, List.cons_append]

theorem mapWords_cons (hf : f [] = []) {c : Char} (hc : isWordChar c = false)
    (t : Text) : mapWords f (c :: t) = c :: mapWords f t := by
  have h := mapWordsFrom_append_cons (f := f) hc [] [] t
  rwa [mapWordsFrom, hf] at h

theorem mapWords_append (hf : f [] = []) {s t : Text} (h : Apart s t) :
    mapWords f (s ++ t) = mapWords f s ++ mapWords f t := by
  rcases h with hs | ht
  · rcases List.eq_nil_or_concat' s with rfl | ⟨s, c, rfl⟩
    · rw [mapWords_nil, hf, List.nil_append, List.nil_append]
    · have hc : isWordChar c = false := by simpa using hs
      have hwhole : mapWords f (s ++ c :: t) = _ :=
        mapWordsFrom_append_cons hc [] s t
      have hlast : mapWords f (s ++ [c]) = _ :=
        mapWordsFrom_append_cons hc [] s []
      rw [List.append_assoc, List.singleton_append, hwhole, hlast,
        mapWords_nil, hf, List.append_assoc, List.singleton_append]
  · cases t with
    | nil => rw [mapWords_nil, hf, List.append_nil, List.append_nil]
    | cons c t =>
        have hc : isWordChar c = false := by simpa using ht
        rw [mapWords_cons hf hc]
        exact mapWordsFrom_append_cons hc [] s t

theorem getLast?_mapWords (hf : f [] = []) {s : Text}
    (hs : s.getLast?.any isWordChar = false) :
    (mapWords f s).getLast? = s.getLast? := by
  rcases List.eq_nil_or_concat' s with rfl | ⟨s, c, rfl⟩
  · rw [mapWords_nil, hf]
  · have hc : isWordChar c = false := by simpa using hs
    rw [mapWords_append hf (Or.inr (by simpa using hc)), mapWords_cons hf hc,
      mapWords_nil, hf, List.getLast?_concat, List.getLast?_concat]

end MapWords

/-! ## Renaming -/

namespace Renamer

/-- What becomes of a word: its new name, if it has one. -/
def newName (renamer : Renamer) (word : Text) : Text :=
  ((renamer.names.find? (·.1 == word)).map Prod.snd).getD word

/-- All names are words. -/
def WordsOnly (renamer : Renamer) : Prop :=
  ∀ b ∈ renamer.names, b.1 ≠ [] ∧ IsWord b.1

theorem isWordEdge_before {before : Option Char} {u : Text} (hu : u ≠ [])
    (hword : IsWord u) :
    isWordEdge before u.head? = !before.any isWordChar := by
  cases u with
  | nil => exact absurd rfl hu
  | cons c u =>
      rw [isWordEdge, hword.head?_any]
      cases before.any isWordChar <;> rfl

theorem isWordEdge_after {after : Option Char} {u : Text} (hu : u ≠ [])
    (hword : IsWord u) :
    isWordEdge u.getLast? after = !after.any isWordChar := by
  obtain ⟨u, c, rfl⟩ := (List.eq_nil_or_concat' u).resolve_left hu
  have hc : isWordChar c = true := hword c (by simp)
  rw [isWordEdge, List.getLast?_concat, Option.any_some, hc]
  cases after.any isWordChar <;> rfl

/-- Where a word begins, the only name to be found is the whole word. -/
theorem occursAt_word {before : Option Char} {w rest name : Text}
    (hbefore : before.any isWordChar = false) (hw : IsWord w)
    (hrest : rest.head?.any isWordChar = false) (hne : name ≠ [])
    (hname : IsWord name) :
    occursAt before (w ++ rest) name = (name == w) := by
  rw [occursAt, isWordEdge_before hne hname, isWordEdge_after hne hname,
    hbefore, Bool.not_false, Bool.and_true, Bool.eq_iff_iff, beq_iff_eq,
    Bool.and_eq_true, List.isPrefixOf_iff_prefix, Bool.not_eq_true']
  constructor
  · rintro ⟨hpre, hafter⟩
    rcases List.prefix_or_prefix_of_prefix hpre (List.prefix_append w rest)
      with ⟨u, rfl⟩ | ⟨u, rfl⟩
    · cases u with
      | nil => rw [List.append_nil]
      | cons d u =>
          rw [List.append_assoc, List.drop_left] at hafter
          exact absurd (hw d (by simp)) (by simpa using hafter)
    · cases u with
      | nil => rw [List.append_nil]
      | cons d u =>
          obtain ⟨t, rfl⟩ := (List.prefix_append_right_inj w).mp hpre
          exact absurd (hname d (by simp)) (by simpa using hrest)
  · rintro rfl
    exact ⟨List.prefix_append _ _, by rw [List.drop_left]; exact hrest⟩

theorem head?_of_isPrefix {c : Char} {s name : Text} (hne : name ≠ [])
    (hpre : name <+: c :: s) : name.head? = some c := by
  obtain ⟨d, name, rfl⟩ := List.exists_cons_of_ne_nil hne
  rw [(List.cons_prefix_cons.mp hpre).1, List.head?_cons]

/-- No name is found inside of a word. -/
theorem occursAt_inside {before : Option Char} {c : Char} {s name : Text}
    (hbefore : before.any isWordChar = true) (hc : isWordChar c = true)
    (hne : name ≠ []) : occursAt before (c :: s) name = false := by
  rw [Bool.eq_false_iff, ne_eq, occursAt, Bool.and_eq_true, Bool.and_eq_true,
    List.isPrefixOf_iff_prefix]
  rintro ⟨⟨hpre, hedge⟩, -⟩
  rw [head?_of_isPrefix hne hpre, isWordEdge, hbefore, Option.any_some, hc]
    at hedge
  exact absurd hedge (by decide)

/-- No name that is a word is found where there is no word. -/
theorem occursAt_eq_false {before : Option Char} {c : Char} {s name : Text}
    (hc : isWordChar c = false) (hne : name ≠ []) (hname : IsWord name) :
    occursAt before (c :: s) name = false := by
  have hpre : name.isPrefixOf (c :: s) = false := by
    rw [Bool.eq_false_iff, ne_eq, List.isPrefixOf_iff_prefix]
    intro hpre
    have hmem := List.mem_of_mem_head? (head?_of_isPrefix hne hpre)
    exact absurd (hname c hmem) (by simp [hc])
  rw [occursAt, hpre]
  rfl

/-- A word stays or gets the new name that it is bound to. -/
theorem newName_cases (renamer : Renamer) (word : Text) :
    renamer.newName word = word ∨
      ∃ b ∈ renamer.names, b.1 = word ∧ renamer.newName word = b.2 := by
  unfold newName
  cases hfound : renamer.names.find? (·.1 == word) with
  | none => exact Or.inl rfl
  | some b =>
      exact Or.inr ⟨b, List.mem_of_find?_eq_some hfound,
        by simpa using List.find?_some hfound, rfl⟩

section Apply

variable {renamer : Renamer}

theorem rule_eq_none (h : renamer.WordsOnly) {before : Option Char} {c : Char}
    {s : Text} (hc : isWordChar c = false) :
    renamer.rule before (c :: s) = none := by
  rw [rule, Option.map_eq_none_iff, List.find?_eq_none]
  intro b hb
  rw [occursAt_eq_false hc (h b hb).1 (h b hb).2]
  simp

theorem rule_word (h : renamer.WordsOnly) {before : Option Char}
    {w rest : Text} (hbefore : before.any isWordChar = false) (hw : IsWord w)
    (hrest : rest.head?.any isWordChar = false) :
    renamer.rule before (w ++ rest) =
      (renamer.names.find? (·.1 == w)).map fun b => ⟨w.length, b.2⟩ := by
  have hfind : renamer.names.find? (fun b => occursAt before (w ++ rest) b.1) =
      renamer.names.find? (·.1 == w) :=
    List.find?_congr fun b hb =>
      occursAt_word hbefore hw hrest (h b hb).1 (h b hb).2
  rw [rule, hfind]
  cases hfound : renamer.names.find? (·.1 == w) with
  | none => rfl
  | some b =>
      have hb : b.1 = w := by simpa using List.find?_some hfound
      rw [Option.map_some, Option.map_some, hb]

/-- The rest of a word stays. -/
theorem replaceFrom_inside (h : ∀ b ∈ renamer.names, b.1 ≠ []) {w : Text}
    (hw : IsWord w) {before : Option Char}
    (hbefore : before.any isWordChar = true) (rest : Text) :
    replaceFrom renamer.rule before 0 (w ++ rest) =
      w ++ replaceFrom renamer.rule (w.getLast?.or before) 0 rest := by
  induction w generalizing before with
  | nil => rfl
  | cons c w ih =>
      rw [IsWord, List.forall_mem_cons] at hw
      have hrule : renamer.rule before (c :: (w ++ rest)) = none := by
        rw [rule, Option.map_eq_none_iff, List.find?_eq_none]
        intro b hb
        rw [occursAt_inside hbefore hw.1 (h b hb)]
        simp
      rw [List.cons_append, replaceFrom_of_none hrule,
        ih hw.2 (by simpa using hw.1), List.cons_append, getLast?_cons_or]

theorem replaceFrom_word (h : renamer.WordsOnly) {before : Option Char}
    {w rest : Text} (hbefore : before.any isWordChar = false) (hne : w ≠ [])
    (hw : IsWord w) (hrest : rest.head?.any isWordChar = false) :
    replaceFrom renamer.rule before 0 (w ++ rest) =
      renamer.newName w ++ replaceFrom renamer.rule w.getLast? 0 rest := by
  have hrule := rule_word h hbefore hw hrest
  obtain ⟨c, w, rfl⟩ := List.exists_cons_of_ne_nil hne
  cases hfound : renamer.names.find? (·.1 == c :: w) with
  | none =>
      rw [hfound, Option.map_none, List.cons_append] at hrule
      rw [IsWord, List.forall_mem_cons] at hw
      rw [newName, hfound, List.cons_append, replaceFrom_of_none hrule,
        replaceFrom_inside (fun b hb => (h b hb).1) hw.2 (by simpa using hw.1),
        ← getLast?_cons_or c w none, Option.or_none]
      rfl
  | some b =>
      rw [hfound, Option.map_some, List.cons_append] at hrule
      rw [newName, hfound, List.cons_append,
        replaceFrom_of_some hrule (by simp)]
      rw [← List.cons_append, List.take_left, List.drop_left,
        List.getLast?_cons]
      rfl

theorem newName_nil (h : renamer.WordsOnly) : renamer.newName [] = [] := by
  have hnone : renamer.names.find? (·.1 == []) = none := by
    rw [List.find?_eq_none]
    intro b hb
    simpa using (h b hb).1
  rw [newName, hnone]
  rfl

theorem replaceFrom_eq_mapWords (h : renamer.WordsOnly) (s : Text)
    {before : Option Char} (hbefore : before.any isWordChar = false) :
    replaceFrom renamer.rule before 0 s = mapWords renamer.newName s := by
  have hnil := newName_nil h
  induction hn : s.length using Nat.strong_induction_on
    generalizing s before with
  | _ n ih =>
  subst hn
  obtain ⟨w, rest, rfl, hw, hrest⟩ := exists_word s
  have hword : ∃ b, replaceFrom renamer.rule before 0 (w ++ rest) =
      renamer.newName w ++ replaceFrom renamer.rule b 0 rest := by
    by_cases hne : w = []
    · refine ⟨before, ?_⟩
      rw [hne, hnil]
      rfl
    · exact ⟨w.getLast?, replaceFrom_word h hbefore hne hw hrest⟩
  obtain ⟨b, hword⟩ := hword
  rw [hword, mapWords_append hnil (Or.inr hrest), mapWords_word hw]
  cases rest with
  | nil => rw [mapWords_nil, hnil, replaceFrom]
  | cons c t =>
      have hc : isWordChar c = false := by simpa using hrest
      rw [replaceFrom_of_none (rule_eq_none h hc), mapWords_cons hnil hc,
        ih t.length (by rw [List.length_append, List.length_cons]; omega) t
          (by simpa using hc) rfl]

/-- **Renaming is word by word.** -/
theorem apply_eq_mapWords (h : renamer.WordsOnly) (code : Text) :
    renamer.apply code = mapWords renamer.newName code :=
  replaceFrom_eq_mapWords h code rfl

end Apply

end Renamer

/-! ## The names of a map -/

/-- A binding whose name can be replaced. -/
structure RenameMap.Usable (map : RenameMap) (b : Text × Text) : Prop where
  bound : b ∈ map.bindings
  ne_nil : b.1 ≠ []
  not_opening : ¬ placeholderOpening <+: b.1

theorem RenameMap.nodup_names (map : RenameMap) :
    (map.bindings.map Prod.fst).Nodup := by
  rw [List.Nodup, List.pairwise_map]
  refine map.ascending.imp ?_
  intro b c hbefore heq
  rw [heq, precedes_irrefl] at hbefore
  exact absurd hbefore (by decide)

namespace Renamer

theorem isUsable_iff {name : Text} :
    isUsable name = true ↔ name ≠ [] ∧ ¬ placeholderOpening <+: name := by
  rw [isUsable, Bool.and_eq_true, Bool.not_eq_true', Bool.not_eq_true',
    List.isEmpty_eq_false_iff, Bool.eq_false_iff, ne_eq, ne_eq,
    List.isPrefixOf_iff_prefix]

/-- The name of the first binding is not shorter. -/
abbrev NotShorter (b c : Text × Text) : Prop := byteSize c.1 ≤ byteSize b.1

/-- The renamer has the usable names of the map, and long ones come first. -/
structure Lists (map : RenameMap) (renamer : Renamer) : Prop where
  mem_iff : ∀ b, b ∈ renamer.names ↔ map.Usable b
  sorted : renamer.names.Pairwise NotShorter

theorem insertLongest_eq (b : Text × Text) (bindings : List (Text × Text)) :
    insertLongest b bindings = bindings.orderedInsert NotShorter b := by
  induction bindings with
  | nil => rfl
  | cons first rest ih => rw [insertLongest, List.orderedInsert_cons, ih]

theorem longestFirst_eq (bindings : List (Text × Text)) :
    longestFirst bindings = bindings.insertionSort NotShorter := by
  induction bindings with
  | nil => rfl
  | cons b rest ih =>
      rw [List.insertionSort_cons, ← ih, ← insertLongest_eq]
      rfl

theorem lists_build (map : RenameMap) : Lists map (build map) := by
  rw [build, longestFirst_eq]
  constructor
  · intro b
    rw [List.mem_insertionSort, List.mem_filter, isUsable_iff]
    constructor
    · rintro ⟨hb, hne, hopening⟩
      exact ⟨hb, hne, hopening⟩
    · rintro ⟨hb, hne, hopening⟩
      exact ⟨hb, hne, hopening⟩
  · have : Std.Total NotShorter := ⟨fun b c => Nat.le_total _ _⟩
    have : IsTrans (Text × Text) NotShorter :=
      ⟨fun b c d hbc hcd => Nat.le_trans hcd hbc⟩
    exact List.pairwise_insertionSort NotShorter _

section OfMap

variable {map : RenameMap} {accepts : Renamer → Bool} {renamer : Renamer}

/-- Whatever the search accepts, it has all usable names of the map. -/
theorem lists_of_ofMap (h : ofMap map accepts = .ok renamer) :
    Lists map renamer := by
  unfold ofMap at h
  split at h
  · obtain rfl := Except.ok.inj h
    exact lists_build map
  · cases h

theorem Lists.ne_nil (h : Lists map renamer) : ∀ b ∈ renamer.names, b.1 ≠ [] :=
  fun b hb => ((h.mem_iff b).mp hb).ne_nil

/-- A renamer has names of its map only, and no empty one. -/
theorem mem_of_ofMap (h : ofMap map accepts = .ok renamer) {b : Text × Text}
    (hb : b ∈ renamer.names) : b ∈ map.bindings ∧ b.1 ≠ [] := by
  have husable := ((lists_of_ofMap h).mem_iff b).mp hb
  exact ⟨husable.bound, husable.ne_nil⟩

end OfMap

end Renamer

end ScriptMinifier
