import Mathlib.Data.List.SplitBy
import ScriptMinifier.Proofs.LongestNames

/-!
# Renaming back

Where all names are words, renaming replaces whole stretches of word characters
and leaves the others alone. If the new names are words too, no two of them the
same, and none of them is already a word of the code without being a name, the
map turned around gives the code back. Names may swap or follow one another.
-/

namespace ScriptMinifier

open Text

/-! ## Stretches -/

/-- The text cut into its longest stretches of word characters and of others. -/
def stretches (s : Text) : List Text :=
  s.splitBy fun a b => isWordChar a == isWordChar b

/-- All characters are of one kind. -/
def Uniform (s : Text) : Prop := IsWord s ∨ ∀ c ∈ s, isWordChar c = false

theorem stretches_append {s t : Text} (hne : s ≠ []) {word : Bool}
    (hs : ∀ c ∈ s, isWordChar c = word)
    (ht : ∀ c ∈ t.head?, isWordChar c ≠ word) :
    stretches (s ++ t) = s :: stretches t := by
  have hchain : s.IsChain fun a b => (isWordChar a == isWordChar b) = true := by
    refine (List.pairwise_of_forall_mem_list ?_).isChain
    intro a ha b hb
    rw [beq_iff_eq, hs a ha, hs b hb]
  rw [stretches, List.splitBy_append, List.splitBy_of_isChain hne hchain]
  · rfl
  · intro a ha b hb
    rw [beq_eq_false_iff_ne, hs a (List.mem_of_mem_getLast? ha)]
    exact (ht b hb).symm

theorem any_getLast?_eq_false {s : Text} (hs : ∀ c ∈ s, isWordChar c = false) :
    s.getLast?.any isWordChar = false := by
  rw [Bool.eq_false_iff, ne_eq, Option.any_eq_true]
  rintro ⟨c, hc, hword⟩
  rw [hs c (List.mem_of_mem_getLast? hc)] at hword
  exact absurd hword (by decide)

/-- Induction from the front, one stretch at a time. -/
theorem stretch_induction {P : Text → Prop} (nil : P [])
    (append : ∀ s t, s ≠ [] → Uniform s → Apart s t →
      stretches (s ++ t) = s :: stretches t → P t → P (s ++ t)) (s : Text) :
    P s := by
  induction hn : s.length using Nat.strong_induction_on generalizing s with
  | _ n ih =>
  subst hn
  cases s with
  | nil => exact nil
  | cons c s =>
      let same (d : Char) : Bool := isWordChar d == isWordChar c
      have hfirst : ∀ d ∈ c :: s.takeWhile same,
          isWordChar d = isWordChar c := by
        intro d hd
        rcases List.mem_cons.mp hd with rfl | hd
        · rfl
        · simpa [same] using List.mem_takeWhile_imp hd
      have hrest : ∀ d ∈ (s.dropWhile same).head?,
          isWordChar d ≠ isWordChar c := by
        intro d hd heq
        have hhead := any_head?_dropWhile same s
        rw [Option.mem_def.mp hd] at hhead
        simp [same, heq] at hhead
      have hsplit : c :: s = c :: s.takeWhile same ++ s.dropWhile same := by
        rw [List.cons_append, List.takeWhile_append_dropWhile]
      rw [hsplit]
      refine append _ _ (by simp) ?_ ?_
        (stretches_append (by simp) hfirst hrest)
        (ih _ ?_ _ rfl)
      · cases hc : isWordChar c with
        | true =>
            rw [hc] at hfirst
            exact Or.inl hfirst
        | false =>
            rw [hc] at hfirst
            exact Or.inr hfirst
      · cases hc : isWordChar c with
        | true =>
            refine Or.inr ?_
            rw [Bool.eq_false_iff, ne_eq, Option.any_eq_true]
            rintro ⟨d, hd, hword⟩
            exact hrest d hd (hword.trans hc.symm)
        | false =>
            rw [hc] at hfirst
            exact Or.inl (any_getLast?_eq_false hfirst)
      · have hle := (List.dropWhile_suffix same (l := s)).length_le
        rw [List.length_cons]
        omega

/-! ## Mapping stretches -/

section MapWords

variable {f g : Text → Text}

theorem mapWords_of_forall_not (hf : f [] = []) {s : Text}
    (hs : ∀ c ∈ s, isWordChar c = false) : mapWords f s = s := by
  induction s with
  | nil => rw [mapWords_nil, hf]
  | cons c s ih =>
      rw [List.forall_mem_cons] at hs
      rw [mapWords_cons hf hs.1, ih hs.2]

theorem head?_mapWords (hf : f [] = []) {s : Text}
    (hs : s.head?.any isWordChar = false) :
    (mapWords f s).head? = s.head? := by
  cases s with
  | nil => rw [mapWords_nil, hf]
  | cons c s =>
      rw [mapWords_cons hf (by simpa using hs), List.head?_cons,
        List.head?_cons]

/-- A map that changes words only acts on each stretch. -/
theorem mapWords_eq_flatMap (hf : f [] = [])
    (hother : ∀ s, ¬ IsWord s → f s = s) (s : Text) :
    mapWords f s = (stretches s).flatMap f := by
  induction s using stretch_induction with
  | nil => exact hf
  | append s t hne hs hapart hstretches ih =>
      rw [mapWords_append hf hapart, hstretches, List.flatMap_cons, ih]
      congr 1
      rcases hs with hs | hs
      · exact mapWords_word hs
      · rw [mapWords_of_forall_not hf hs, hother]
        intro hword
        obtain ⟨c, s, rfl⟩ := List.exists_cons_of_ne_nil hne
        exact absurd (hword c List.mem_cons_self) (by simp [hs c])

/-- Words that are mapped to words stay stretches, so a map back applies to each
of them. -/
theorem mapWords_mapWords_eq_self (hf : f [] = []) (hg : g [] = []) {s : Text}
    (h : ∀ w ∈ stretches s, IsWord w → IsWord (f w) ∧ g (f w) = w) :
    mapWords g (mapWords f s) = s := by
  induction s using stretch_induction with
  | nil => rw [mapWords_nil, hf, mapWords_nil, hg]
  | append s t hne hs hapart hstretches ih =>
      rw [hstretches, List.forall_mem_cons] at h
      rw [mapWords_append hf hapart]
      rcases hs with hs | hs
      · obtain ⟨hword, hback⟩ := h.1 hs
        have hlast : s.getLast?.any isWordChar = true := by
          obtain ⟨s, c, rfl⟩ := (List.eq_nil_or_concat' s).resolve_left hne
          rw [List.getLast?_concat]
          exact hs c (by simp)
        have ht : t.head?.any isWordChar = false :=
          hapart.resolve_left (by simp [hlast])
        rw [mapWords_word hs, mapWords_append hg
          (Or.inr (by rwa [head?_mapWords hf ht])), mapWords_word hword, hback,
          ih h.2]
      · rw [mapWords_of_forall_not hf hs, mapWords_append hg
          (Or.inl (any_getLast?_eq_false hs)), mapWords_of_forall_not hg hs,
          ih h.2]

end MapWords

/-! ## Maps turned around -/

theorem mem_insertBinding_iff {name new : Text} {bindings : List (Text × Text)}
    (h : Ascending bindings) {b : Text × Text} :
    b ∈ insertBinding name new bindings ↔
      b = (name, new) ∨ b ∈ bindings ∧ b.1 ≠ name := by
  have hne {c : Text × Text} (hc : precedes name c.1 = true) : c.1 ≠ name := by
    intro heq
    rw [heq, precedes_irrefl] at hc
    exact absurd hc (by decide)
  induction bindings with
  | nil => simp [insertBinding]
  | cons first rest ih =>
      obtain ⟨hfirst, hrest⟩ := List.pairwise_cons.mp h
      rw [insertBinding]
      split
      · next hbefore =>
          have hall : ∀ c ∈ first :: rest, c.1 ≠ name := by
            intro c hc
            rcases List.mem_cons.mp hc with rfl | hc
            · exact hne hbefore
            · exact hne (precedes_trans hbefore (hfirst c hc))
          rw [List.mem_cons]
          exact or_congr_right ⟨fun hb => ⟨hb, hall b hb⟩, And.left⟩
      · split
        · next heq =>
            have hall : ∀ c ∈ rest, c.1 ≠ name := by
              intro c hc
              exact hne (heq ▸ hfirst c hc)
            rw [List.mem_cons]
            refine or_congr_right ⟨fun hb => ⟨List.mem_cons_of_mem _ hb,
              hall b hb⟩, ?_⟩
            rintro ⟨hb, hname⟩
            rcases List.mem_cons.mp hb with rfl | hb
            · exact absurd heq.symm hname
            · exact hb
        · next hother =>
            rw [List.mem_cons, List.mem_cons]
            refine (or_congr_right (ih hrest)).trans ?_
            constructor
            · rintro (rfl | rfl | ⟨hb, hname⟩)
              · exact Or.inr ⟨Or.inl rfl, Ne.symm hother⟩
              · exact Or.inl rfl
              · exact Or.inr ⟨Or.inr hb, hname⟩
            · rintro (rfl | ⟨rfl | hb, hname⟩)
              · exact Or.inr (Or.inl rfl)
              · exact Or.inl rfl
              · exact Or.inr (Or.inr ⟨hb, hname⟩)

namespace RenameMap

theorem mem_foldl_insert {more : List (Text × Text)}
    (hnodup : (more.map Prod.fst).Nodup) {map : RenameMap}
    (hnew : ∀ b ∈ more, ∀ c ∈ map.bindings, c.1 ≠ b.1) {b : Text × Text} :
    b ∈ (more.foldl (fun map c => map.insert c.1 c.2) map).bindings ↔
      b ∈ map.bindings ∨ b ∈ more := by
  induction more generalizing map with
  | nil => simp
  | cons first more ih =>
      rw [List.map_cons, List.nodup_cons] at hnodup
      rw [List.forall_mem_cons] at hnew
      have hinsert (c : Text × Text) :
          c ∈ (map.insert first.1 first.2).bindings ↔
            c = first ∨ c ∈ map.bindings := by
        refine (mem_insertBinding_iff map.ascending).trans (or_congr_right ?_)
        exact ⟨And.left, fun hc => ⟨hc, hnew.1 c hc⟩⟩
      rw [List.foldl_cons, ih hnodup.2, hinsert, List.mem_cons, or_assoc,
        or_left_comm]
      intro c hc d hd heq
      rcases (hinsert d).mp hd with rfl | hd
      · exact hnodup.1 (heq ▸ List.mem_map_of_mem hc)
      · exact hnew.2 c hc d hd heq

/-- Bindings of different names are all in their map. -/
theorem mem_ofList {bindings : List (Text × Text)}
    (hnodup : (bindings.map Prod.fst).Nodup) {b : Text × Text} :
    b ∈ (ofList bindings).bindings ↔ b ∈ bindings := by
  rw [ofList, mem_foldl_insert hnodup (by simp [empty])]
  simp [empty]

/-- What becomes of a stretch: a usable name gives way to its new name, and all
else stays. -/
def Becomes (map : RenameMap) (old new : Text) : Prop :=
  map.Usable (old, new) ∨ (∀ other, ¬ map.Usable (old, other)) ∧ new = old

theorem Becomes.unique {map : RenameMap} {old new new' : Text}
    (h : map.Becomes old new) (h' : map.Becomes old new') : new = new' := by
  rcases h with h | ⟨hnone, rfl⟩
  · rcases h' with h' | ⟨hnone', -⟩
    · exact congrArg Prod.snd
        (List.inj_on_of_nodup_map map.nodup_names h.bound h'.bound rfl)
    · exact absurd h (hnone' new)
  · rcases h' with h' | ⟨-, rfl⟩
    · exact absurd h' (hnone new')
    · rfl

/-- Bindings that can be turned around for this code, with all usable ones among
them. The new names are different words, and one that is already a word of the
code is a name itself. -/
structure Reversible (map : RenameMap) (bindings : List (Text × Text))
    (code : Text) : Prop where
  usable : ∀ b, map.Usable b → b ∈ bindings
  ne_nil : ∀ b ∈ bindings, b.2 ≠ []
  word : ∀ b ∈ bindings, IsWord b.2
  not_opening : ∀ b ∈ bindings, ¬ placeholderOpening <+: b.2
  nodup : (bindings.map Prod.snd).Nodup
  fresh : ∀ b ∈ bindings, b.2 ∈ stretches code → ∃ new, map.Usable (b.2, new)

/-- The map from the new names to the old ones. -/
def turned (bindings : List (Text × Text)) : RenameMap :=
  ofList (bindings.map Prod.swap)

theorem Reversible.usable_turned {map : RenameMap} {code : Text}
    {bindings : List (Text × Text)} (h : map.Reversible bindings code)
    {old new : Text} : (turned bindings).Usable (new, old) ↔
      (old, new) ∈ bindings := by
  have hnodup : ((bindings.map Prod.swap).map Prod.fst).Nodup := by
    rw [List.map_map]
    exact h.nodup
  have hmem :
      (new, old) ∈ (turned bindings).bindings ↔ (old, new) ∈ bindings := by
    rw [turned, mem_ofList hnodup, List.mem_map]
    constructor
    · rintro ⟨b, hb, heq⟩
      rwa [← Prod.swap_swap b, heq] at hb
    · exact fun hb => ⟨_, hb, rfl⟩
  constructor
  · exact fun husable => hmem.mp husable.bound
  · exact fun hb => ⟨hmem.mpr hb, h.ne_nil _ hb, h.not_opening _ hb⟩

end RenameMap

namespace Renamer.Lists

variable {map : RenameMap} {renamer : Renamer}

theorem becomes_newName (h : Lists map renamer) (s : Text) :
    map.Becomes s (renamer.newName s) := by
  unfold newName
  cases hfound : renamer.names.find? (·.1 == s) with
  | none =>
      refine Or.inr ⟨?_, rfl⟩
      intro other husable
      exact List.find?_eq_none.mp hfound _ ((h.mem_iff _).mpr husable) (by simp)
  | some b =>
      obtain rfl : b.1 = s := by simpa using List.find?_some hfound
      exact Or.inl ((h.mem_iff b).mp (List.mem_of_find?_eq_some hfound))

theorem wordsOnly (h : Lists map renamer)
    (hwords : ∀ b, map.Usable b → IsWord b.1) : renamer.WordsOnly := by
  intro b hb
  have husable := (h.mem_iff b).mp hb
  exact ⟨husable.ne_nil, hwords b husable⟩

/-- Renaming replaces the stretches that are names. -/
theorem apply_eq_flatMap (h : Lists map renamer)
    (hwords : ∀ b, map.Usable b → IsWord b.1) (code : Text) :
    renamer.apply code = (stretches code).flatMap renamer.newName := by
  have honly := h.wordsOnly hwords
  rw [apply_eq_mapWords honly, mapWords_eq_flatMap (newName_nil honly)]
  intro s hs
  rcases h.becomes_newName s with husable | ⟨-, heq⟩
  · exact absurd (hwords _ husable) hs
  · exact heq

/-- A word of the code is a word again, and turned back it is the old one. -/
theorem newName_turned (h : Lists map renamer) {inverse : Renamer}
    {bindings : List (Text × Text)} {code word : Text}
    (hrev : map.Reversible bindings code)
    (hinverse : Lists (RenameMap.turned bindings) inverse)
    (hmem : word ∈ stretches code) (hword : IsWord word) :
    IsWord (renamer.newName word) ∧
      inverse.newName (renamer.newName word) = word := by
  have hback := hinverse.becomes_newName (renamer.newName word)
  rcases h.becomes_newName word with husable | ⟨hnone, heq⟩
  · have hb := hrev.usable _ husable
    refine ⟨hrev.word _ hb, hback.unique (Or.inl (hrev.usable_turned.mpr hb))⟩
  · rw [heq] at hback ⊢
    refine ⟨hword, hback.unique (Or.inr ⟨?_, rfl⟩)⟩
    intro other husable
    obtain ⟨new, hnew⟩ := hrev.fresh _ (hrev.usable_turned.mp husable) hmem
    exact hnone new hnew

end Renamer.Lists

/-- **Renaming words can be undone.** If all names are words, renaming replaces
the stretches of the code that are names and leaves the others. If the bindings
can be turned around, the renamer of the turned map gives the code back. -/
theorem Renamer.apply_turned {map : RenameMap} {accepts : Renamer → Bool}
    {renamer : Renamer} (hmap : Renamer.ofMap map accepts = .ok renamer)
    (hwords : ∀ b, map.Usable b → IsWord b.1) (code : Text) :
    (∃ pieces, List.Forall₂ map.Becomes (stretches code) pieces ∧
      renamer.apply code = pieces.flatten) ∧
    ∀ (bindings : List (Text × Text)) (others : Renamer → Bool)
      (inverse : Renamer), map.Reversible bindings code →
      Renamer.ofMap (RenameMap.turned bindings) others = .ok inverse →
      inverse.apply (renamer.apply code) = code := by
  have hlists := Renamer.lists_of_ofMap hmap
  constructor
  · refine ⟨(stretches code).map renamer.newName, ?_, ?_⟩
    · rw [List.forall₂_map_right_iff, List.forall₂_same]
      exact fun s _ => hlists.becomes_newName s
    · rw [hlists.apply_eq_flatMap hwords, List.flatMap_def]
  · intro bindings others inverse hrev hturned
    have hinverse := Renamer.lists_of_ofMap hturned
    have honly := hlists.wordsOnly hwords
    have honly' : inverse.WordsOnly := by
      refine hinverse.wordsOnly fun b husable => ?_
      exact hrev.word _ (hrev.usable_turned.mp husable)
    rw [apply_eq_mapWords honly, apply_eq_mapWords honly']
    exact mapWords_mapWords_eq_self (newName_nil honly) (newName_nil honly')
      fun w hw hword => hlists.newName_turned hrev hinverse hw hword

/-- Two names follow one another, two swap, and one goes on from another. -/
def chainedNames : RenameMap :=
  .ofList [("a".toList, "b".toList), ("b".toList, "c".toList),
    ("x".toList, "xy".toList), ("xy".toList, "x".toList)]

theorem Renamer.apply_turned_chainedNames :
    Renamer.ofMap chainedNames = .ok ⟨[("xy".toList, "x".toList),
      ("a".toList, "b".toList), ("b".toList, "c".toList),
      ("x".toList, "xy".toList)]⟩ ∧
    (∀ b, chainedNames.Usable b → IsWord b.1) ∧
    chainedNames.Reversible chainedNames.bindings "a+b.x xy(d)".toList ∧
    Renamer.ofMap (.turned chainedNames.bindings) =
      .ok ⟨[("xy".toList, "x".toList), ("b".toList, "a".toList),
        ("c".toList, "b".toList), ("x".toList, "xy".toList)]⟩ ∧
    Renamer.apply ⟨[("xy".toList, "x".toList), ("b".toList, "a".toList),
      ("c".toList, "b".toList), ("x".toList, "xy".toList)]⟩
      "b+c.xy x(d)".toList = "a+b.x xy(d)".toList := by
  have hmap : Renamer.ofMap chainedNames = .ok ⟨[("xy".toList, "x".toList),
      ("a".toList, "b".toList), ("b".toList, "c".toList),
      ("x".toList, "xy".toList)]⟩ := by decide +kernel
  have hwords : ∀ b, chainedNames.Usable b → IsWord b.1 := by
    have hall : ∀ b ∈ chainedNames.bindings, IsWord b.1 := by decide +kernel
    exact fun b hb => hall b hb.bound
  have hrev : chainedNames.Reversible chainedNames.bindings
      "a+b.x xy(d)".toList := by
    have husable : ∀ b ∈ chainedNames.bindings,
        b.1 ≠ [] ∧ ¬ placeholderOpening <+: b.1 := by decide +kernel
    have hfresh : ∀ b ∈ chainedNames.bindings,
        b.2 ∈ stretches "a+b.x xy(d)".toList →
        ∃ c ∈ chainedNames.bindings, c.1 = b.2 := by decide +kernel
    refine ⟨fun b hb => hb.bound, by decide +kernel, by decide +kernel,
      by decide +kernel, by decide +kernel, fun b hb hmem => ?_⟩
    obtain ⟨⟨name, new⟩, hc, rfl⟩ := hfresh b hb hmem
    obtain ⟨hne, hopening⟩ := husable _ hc
    exact ⟨new, hc, hne, hopening⟩
  have hturned : Renamer.ofMap (.turned chainedNames.bindings) =
      .ok ⟨[("xy".toList, "x".toList), ("b".toList, "a".toList),
        ("c".toList, "b".toList), ("x".toList, "xy".toList)]⟩ := by
    decide +kernel
  have hback := (Renamer.apply_turned hmap hwords "a+b.x xy(d)".toList).2 _ _ _
    hrev hturned
  refine ⟨hmap, hwords, hrev, hturned, Eq.trans ?_ hback⟩
  exact congrArg _ (by decide +kernel)

end ScriptMinifier
