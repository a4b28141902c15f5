import ScriptMinifier.Proofs.Idempotence
import ScriptMinifier.Proofs.Leaks
import ScriptMinifier.Proofs.Touching

/-!
# Literals under renaming

A placeholder is one word, or a part of one, so a name cannot begin or end
inside of it. A name that takes in a whole placeholder holds its opening. All
other names are found between the placeholders, and every placeholder is still
there when the literals are put back.
-/

namespace ScriptMinifier

open Text Spacing

/-- `new` is `old` with some names replaced, none of them inside of another. -/
def RenameMap.Replaced (map : RenameMap) (old new : Text) : Prop :=
  ∃ w : Woven (Text × Text), (∀ b ∈ w.items, map.Usable b) ∧
    w.render Prod.fst = old ∧ w.render Prod.snd = new

namespace RenameMap.Replaced

variable {map : RenameMap} {old new : Text}

theorem nil : map.Replaced [] [] := ⟨.last [], by simp [Woven.items], rfl, rfl⟩

theorem cons (c : Char) (h : map.Replaced old new) :
    map.Replaced (c :: old) (c :: new) := by
  obtain ⟨w, hw, rfl, rfl⟩ := h
  refine ⟨w.prepend [c], by simpa using hw, ?_, ?_⟩
  · rw [Woven.render_prepend, List.singleton_append]
  · rw [Woven.render_prepend, List.singleton_append]

theorem append {b : Text × Text} (hb : map.Usable b)
    (h : map.Replaced old new) : map.Replaced (b.1 ++ old) (b.2 ++ new) := by
  obtain ⟨w, hw, rfl, rfl⟩ := h
  exact ⟨.cons [] b w, List.forall_mem_cons.mpr ⟨hb, hw⟩, rfl, rfl⟩

end RenameMap.Replaced

/-- `v` is `w` with names replaced in its gaps. -/
structure RenameMap.GapsReplaced (map : RenameMap) (w v : Woven Text) :
    Prop where
  items : v.items = w.items
  gaps : List.Forall₂ map.Replaced w.gaps v.gaps

/-! ## Names between placeholders -/

namespace Renamer

/-- A name does not end inside of a word. -/
theorem occursAt_append_eq_false {before : Option Char} {s u v rest : Text}
    (hu : u ≠ []) (hv : v ≠ []) (hword : IsWord (u ++ v)) :
    occursAt before (s ++ (u ++ (v ++ rest))) (s ++ u) = false := by
  obtain ⟨u, c, rfl⟩ := (List.eq_nil_or_concat' u).resolve_left hu
  obtain ⟨d, v, rfl⟩ := List.exists_cons_of_ne_nil hv
  have hlast : (s ++ (u ++ [c])).getLast? = some c := by
    rw [← List.append_assoc, List.getLast?_concat]
  have hedge : isWordEdge (some c) (some d) = false := by
    rw [isWordEdge, Option.any_some, Option.any_some, hword c (by simp),
      hword d (by simp)]
    rfl
  have hnext : ((s ++ (u ++ [c] ++ (d :: v ++ rest))).drop
      (s ++ (u ++ [c])).length).head? = some d := by
    rw [← List.append_assoc s (u ++ [c]), List.drop_left, List.cons_append,
      List.head?_cons]
  rw [occursAt, hnext, hlast, hedge, Bool.and_false]

/-- A name without the opening of a placeholder ends before the next one. -/
theorem isPrefix_gap {before : Option Char} {gap s name : Text}
    (hs : StartsWithPlaceholder s) (hname : HasNoOpening name)
    (h : occursAt before (gap ++ s) name = true) : name <+: gap := by
  have hpre : name <+: gap ++ s := by
    rw [occursAt, Bool.and_eq_true, Bool.and_eq_true] at h
    exact List.isPrefixOf_iff_prefix.mp h.1.1
  rcases hs with rfl | ⟨n, t, rfl⟩
  · rwa [List.append_nil] at hpre
  rcases prefix_append_cases hpre with hgap | ⟨u, rfl, hu⟩
  · exact hgap
  have hinside : ¬ placeholder n <:+: u := fun hin =>
    hname ((opening_isInfix_placeholder n).trans
      (hin.trans (List.suffix_append gap u).isInfix))
  rcases prefix_append_cases hu with ⟨v, hv⟩ | ⟨rest, rfl, -⟩
  · by_cases hunil : u = []
    · rw [hunil, List.append_nil]
    by_cases hvnil : v = []
    · rw [hvnil, List.append_nil] at hv
      exact absurd (hv ▸ List.infix_refl u) hinside
    · have hword : IsWord (u ++ v) := hv ▸ isWord_placeholder n
      rw [← hv, List.append_assoc,
        occursAt_append_eq_false hunil hvnil hword] at h
      exact absurd h (by decide)
  · exact absurd (List.prefix_append _ _).isInfix hinside

namespace Lists

variable {map : RenameMap} {renamer : Renamer} (h : Lists map renamer)
  (hnames : ∀ b, map.Usable b → HasNoOpening b.1)

include h hnames

/-- An edit in a gap replaces a name that lies in the gap. -/
theorem exists_of_rule {before : Option Char} {gap s : Text}
    (hs : StartsWithPlaceholder s) {edit : Edit}
    (hrule : renamer.rule before (gap ++ s) = some edit) :
    ∃ b rest, map.Usable b ∧ gap = b.1 ++ rest ∧ edit = ⟨b.1.length, b.2⟩ := by
  obtain ⟨b, hb, rfl⟩ := Option.map_eq_some_iff.mp hrule
  have husable := (h.mem_iff b).mp (List.mem_of_find?_eq_some hb)
  have hoccurs := (List.find?_eq_some_iff_append.mp hb).1
  obtain ⟨rest, hrest⟩ := isPrefix_gap hs (hnames b husable) hoccurs
  exact ⟨b, rest, husable, hrest.symm, rfl⟩

theorem replaceFrom_gap {s : Text} (hs : StartsWithPlaceholder s) (gap : Text)
    (before : Option Char) : ∃ new, map.Replaced gap new ∧
      replaceFrom renamer.rule before 0 (gap ++ s) =
        new ++ replaceFrom renamer.rule (gap.getLast?.or before) 0 s := by
  induction hn : gap.length using Nat.strong_induction_on
    generalizing gap before with
  | _ n ih =>
  subst hn
  cases gap with
  | nil => exact ⟨[], .nil, rfl⟩
  | cons c gap =>
      cases hrule : renamer.rule before (c :: gap ++ s) with
      | none =>
          obtain ⟨new, hnew, heq⟩ := ih gap.length (by simp) gap (some c) rfl
          refine ⟨c :: new, hnew.cons c, ?_⟩
          rw [List.cons_append] at hrule
          rw [List.cons_append, replaceFrom_of_none hrule, heq,
            getLast?_cons_or, List.cons_append]
      | some edit =>
          obtain ⟨b, rest, husable, hgap, rfl⟩ :=
            h.exists_of_rule hnames hs hrule
          have hpos := List.length_pos_iff.mpr husable.ne_nil
          obtain ⟨new, hnew, heq⟩ := ih rest.length
            (by rw [hgap, List.length_append]; omega) rest
            (b.1.getLast?.or before) rfl
          refine ⟨b.2 ++ new, hgap ▸ hnew.append husable, ?_⟩
          rw [List.cons_append] at hrule
          rw [List.cons_append, replaceFrom_of_some hrule hpos,
            ← List.cons_append, hgap, List.append_assoc, List.take_left,
            List.drop_left, heq, List.getLast?_append, Option.or_assoc,
            List.append_assoc]

theorem replaceFrom_placeholder (n : Nat) (t : Text) (before : Option Char) :
    replaceFrom renamer.rule before 0 (placeholder n ++ t) = placeholder n ++
      replaceFrom renamer.rule ((placeholder n).getLast?.or before) 0 t := by
  have hrule : renamer.rule before (placeholder n ++ t) = none := by
    cases hrule : renamer.rule before (placeholder n ++ t) with
    | none => rfl
    | some edit =>
        have hempty : renamer.rule before ([] ++ (placeholder n ++ t)) =
            some edit := hrule
        obtain ⟨b, rest, husable, hnil, -⟩ :=
          h.exists_of_rule hnames (Or.inr ⟨n, t, rfl⟩) hempty
        exact absurd (List.append_eq_nil_iff.mp hnil.symm).1 husable.ne_nil
  have hword := isWord_placeholder n
  obtain ⟨c, u, hu⟩ := List.exists_cons_of_ne_nil (placeholder_ne_nil n)
  rw [hu, List.cons_append] at hrule
  rw [hu, IsWord, List.forall_mem_cons] at hword
  rw [hu, List.cons_append, replaceFrom_of_none hrule,
    replaceFrom_inside h.ne_nil hword.2 (by simpa using hword.1),
    getLast?_cons_or, List.cons_append]

/-- Between placeholders only the gaps are renamed. -/
theorem replaceFrom_masked (w : Woven Text) (first : Nat)
    (before : Option Char) : ∃ v, map.GapsReplaced w v ∧
      replaceFrom renamer.rule before 0 (w.masked first) = v.masked first := by
  induction w generalizing first before with
  | last gap =>
      obtain ⟨new, hnew, heq⟩ :=
        h.replaceFrom_gap hnames (Or.inl rfl) gap before
      refine ⟨.last new, ⟨rfl, .cons hnew .nil⟩, ?_⟩
      rwa [List.append_nil, replaceFrom, List.append_nil] at heq
  | cons gap item rest ih =>
      obtain ⟨new, hnew, heq⟩ := h.replaceFrom_gap hnames
        (Or.inr ⟨first, rest.masked (first + 1), rfl⟩) gap before
      obtain ⟨v, ⟨hitems, hgaps⟩, hrest⟩ := ih (first + 1)
        ((placeholder first).getLast?.or (gap.getLast?.or before))
      refine ⟨.cons new item v, ⟨?_, .cons hnew hgaps⟩, ?_⟩
      · rw [Woven.items, Woven.items, hitems]
      · rw [Woven.masked_cons, heq, h.replaceFrom_placeholder hnames, hrest,
          Woven.masked_cons]

end Lists

end Renamer

/-! ## Trimming the ends -/

/-- The text begins with a character that is no blank. -/
def StartsFirm (item : Text) : Prop := ∃ c t, item = c :: t ∧ isBlank c = false

namespace Woven

/-- No blanks at the start of the first gap and at the end of the last one. -/
def trimEnds (w : Woven Text) : Woven Text :=
  (w.mapFirst (·.dropWhile isBlank)).mapLast (·.rdropWhile isBlank)

theorem rdropWhile_text_cons {gap item : Text} (h : StartsFirm item)
    (rest : Woven Text) :
    (cons gap item rest).text.rdropWhile isBlank ≠ [] := by
  obtain ⟨c, t, rfl, hc⟩ := h
  rw [text_cons, List.cons_append, rdropWhile_append_cons hc]
  simp

/-- What trimming takes from in front of the last gap are blanks at the end of
the last item. -/
theorem exists_rdropWhile_text {w : Woven Text}
    (h : ∀ item ∈ w.items, StartsFirm item) :
    ∃ lost, w.text.rdropWhile isBlank ++ lost =
        (w.mapLast (·.rdropWhile isBlank)).text ∧
      (∀ c ∈ lost, isBlank c = true) ∧
      (lost ≠ [] → ∃ item, w.items.getLast? = some item ∧ lost <:+ item) := by
  induction w with
  | last gap => exact ⟨[], by simp [mapLast], by simp, by simp⟩
  | cons gap item rest ih =>
      rw [items, List.forall_mem_cons] at h
      obtain ⟨⟨c, t, rfl, hc⟩, hrest⟩ := h
      rw [text_cons, List.cons_append, rdropWhile_append_cons hc,
        rdropWhile_append]
      split
      · next hblank =>
          cases rest with
          | cons gap' item' rest' =>
              rw [items, List.forall_mem_cons] at hrest
              exact absurd hblank (rdropWhile_text_cons hrest.1 rest')
          | last gap' =>
              refine ⟨t.rtakeWhile isBlank, ?_,
                fun d hd => List.mem_rtakeWhile_imp hd, fun _ => ⟨c :: t, rfl,
                  (List.rtakeWhile_suffix _ t).trans (List.suffix_cons c t)⟩⟩
              rw [text_last] at hblank
              rw [mapLast, mapLast, text_cons, text_last, hblank,
                List.append_nil, List.append_assoc, List.cons_append,
                List.rdropWhile_append_rtakeWhile]
      · obtain ⟨lost, heq, hlost, hlast⟩ := ih hrest
        refine ⟨lost, ?_, hlost, ?_⟩
        · rw [mapLast, text_cons, ← heq]
          simp
        · intro hne
          obtain ⟨item, hitem, hsuffix⟩ := hlast hne
          exact ⟨item, by rw [items, List.getLast?_cons, hitem]; rfl, hsuffix⟩

theorem exists_trim_text {w : Woven Text}
    (h : ∀ item ∈ w.items, StartsFirm item) :
    ∃ lost, trim w.text ++ lost = w.trimEnds.text ∧
      (∀ c ∈ lost, isBlank c = true) ∧
      (lost ≠ [] → ∃ item, w.items.getLast? = some item ∧ lost <:+ item) := by
  have hheads : ∀ item ∈ w.items,
      item ≠ [] ∧ item.head?.any isBlank = false := by
    intro item hitem
    obtain ⟨c, t, rfl, hc⟩ := h item hitem
    exact ⟨List.cons_ne_nil c t, hc⟩
  have hfirst := exists_rdropWhile_text
    (w := w.mapFirst (·.dropWhile isBlank)) (by rwa [items_mapFirst])
  rwa [← dropWhile_text hheads, ← trim_eq, items_mapFirst] at hfirst

end Woven

/-! ## The output -/

theorem startsFirm_items (strategy : Strategy) (source : Text) :
    ∀ item ∈ (weave strategy source).items, StartsFirm item := by
  intro item hitem
  cases strategy with
  | lexical =>
      obtain ⟨c, t, rfl, -, hc⟩ := delimited_items source item hitem
      exact ⟨c, t, rfl, hc⟩
  | textual =>
      have hsolid := ((paired_weaveQuoted _).quotedLiteral item hitem).solid
      obtain ⟨c, t, rfl⟩ := List.exists_cons_of_ne_nil hsolid.ne_nil
      exact ⟨c, t, rfl, by simpa using hsolid.head⟩

theorem Solid.eq_nil_of_suffix {item lost : Text} (h : Solid item)
    (hlost : ∀ c ∈ lost, isBlank c = true) (hsuffix : lost <:+ item) :
    lost = [] := by
  rcases List.eq_nil_or_concat' lost with rfl | ⟨front, c, rfl⟩
  · rfl
  · obtain ⟨s, rfl⟩ := hsuffix
    have hlast := h.getLast
    rw [← List.append_assoc, List.getLast?_concat, Option.any_some,
      hlost c (by simp)] at hlast
    exact absurd hlast (by decide)

/-- Trimming takes blanks at most from a last literal, and none from one that is
closed. -/
theorem exists_trim_weave {strategy : Strategy} {source : Text}
    {w : Woven Text} (hitems : w.items = (weave strategy source).items) :
    ∃ lost, trim w.text ++ lost = w.trimEnds.text ∧
      (∀ c ∈ lost, isBlank c = true) ∧
      (lost ≠ [] → strategy = .lexical ∧ ∃ literal,
        w.items.getLast? = some literal ∧ lost <:+ literal ∧
        ¬ Script.ClosedLiteral literal) := by
  have hfirm : ∀ item ∈ w.items, StartsFirm item := by
    rw [hitems]
    exact startsFirm_items strategy source
  obtain ⟨lost, htrim, hlost, hlast⟩ := Woven.exists_trim_text hfirm
  refine ⟨lost, htrim, hlost, ?_⟩
  intro hne
  obtain ⟨literal, hliteral, hsuffix⟩ := hlast hne
  have hloose : ¬ Solid literal := fun hsolid =>
    hne (hsolid.eq_nil_of_suffix hlost hsuffix)
  refine ⟨?_, literal, hliteral, hsuffix, fun hclosed => hloose hclosed.solid⟩
  cases strategy with
  | lexical => rfl
  | textual =>
      have hmem := List.mem_of_getLast? hliteral
      rw [hitems] at hmem
      exact absurd ((paired_weaveQuoted _).quotedLiteral literal hmem).solid
        hloose

/-- **Renaming leaves literals alone.** Renaming a text with placeholders
replaces names in the gaps, and if no gap then holds an opening, the table puts
every literal back between the gaps. In the output the literals are as they were
set aside; all that trimming can take of them are blanks at the end of a last
one that is not closed. -/
theorem literals_survive_renaming {map : RenameMap} {accepts : Renamer → Bool}
    {renamer : Renamer} (hmap : Renamer.ofMap map accepts = .ok renamer)
    (hnames : ∀ b, map.Usable b → HasNoOpening b.1) :
    (∀ w : Woven Text, ∃ v, map.GapsReplaced w v ∧
      renamer.apply (w.masked 0) = v.masked 0 ∧
      ((∀ gap ∈ v.gaps, HasNoOpening gap) → ∀ table : LiteralTable,
        table.toList = w.items →
        table.restore (renamer.apply (w.masked 0)) = v.text)) ∧
    ∀ (strategy : Strategy) (source : Text),
      let m := Minifier.minify (.withRenames { strategy } map accepts) source
      ∃ v, map.GapsReplaced ((weave strategy source).mapGaps compress) v ∧
        m.compressed = ((weave strategy source).mapGaps compress).masked 0 ∧
        m.renamed = v.masked 0 ∧ v.items = m.prepared.literals.toList ∧
        ((∀ gap ∈ v.gaps, HasNoOpening gap) → ∃ lost,
          m.output ++ lost = v.trimEnds.text ∧
          (∀ c ∈ lost, isBlank c = true) ∧
          (lost ≠ [] → strategy = .lexical ∧ ∃ literal,
            v.items.getLast? = some literal ∧ lost <:+ literal ∧
            ¬ Script.ClosedLiteral literal)) := by
  have hlists := Renamer.lists_of_ofMap hmap
  constructor
  · intro w
    obtain ⟨v, hv, heq⟩ := hlists.replaceFrom_masked hnames w 0 none
    have happly : renamer.apply (w.masked 0) = v.masked 0 := heq
    refine ⟨v, hv, happly, ?_⟩
    intro hgaps table htable
    rw [happly]
    exact LiteralTable.restore_masked (htable.trans hv.items.symm) hgaps
  · intro strategy source
    have hminifier : Minifier.withRenames { strategy } map accepts =
        { strategy, renamer } := by
      rw [Minifier.withRenames, hmap]
    rw [hminifier]
    intro m
    have hcompressed : m.compressed =
        ((weave strategy source).mapGaps compress).masked 0 := by
      show compress (prepare strategy source).text = _
      rw [text_prepare, compress_masked]
    obtain ⟨v, hv, heq⟩ := hlists.replaceFrom_masked hnames
      ((weave strategy source).mapGaps compress) 0 none
    have hrenamed : m.renamed = v.masked 0 := by
      show renamer.apply m.compressed = _
      rw [hcompressed]
      exact heq
    have hitems : v.items = (weave strategy source).items := by
      rw [hv.items, Woven.items_mapGaps]
    have hliterals : v.items = m.prepared.literals.toList :=
      hitems.trans (literals_prepare strategy source).symm
    refine ⟨v, hv, hcompressed, hrenamed, hliterals, ?_⟩
    intro hgaps
    have houtput : m.output = trim v.text := by
      show trim (m.prepared.literals.restore m.renamed) = _
      rw [hrenamed, LiteralTable.restore_masked hliterals.symm hgaps]
    rw [houtput]
    exact exists_trim_weave hitems

/-- Names with a dot or a space in them, and new names that look like literals
and like placeholders. -/
def oddNames : RenameMap :=
  .ofList [("a.b".toList, "'c'".toList), ("foo".toList, "f".toList),
    ("x".toList, "__STRING".toList), ("new x".toList, "n".toList)]

/-- A tag touches its template, and the names are also inside of literals. -/
def oddSource : Text := "foo`x`+ a.b('foo' , x)/ new x".toList

theorem literals_survive_renaming_oddSource :
    Renamer.ofMap oddNames = .ok ⟨[("new x".toList, "n".toList),
      ("a.b".toList, "'c'".toList), ("foo".toList, "f".toList),
      ("x".toList, "__STRING".toList)]⟩ ∧
    (∀ b, oddNames.Usable b → HasNoOpening b.1) ∧
    (∃ v, oddNames.GapsReplaced
        ((weave .lexical oddSource).mapGaps compress) v ∧
      v.masked 0 = "foo__STRING_0__+'c'(__STRING_1__,__STRING)/n".toList ∧
      v.items = ["`x`".toList, "'foo'".toList]) ∧
    (Minifier.minify (.withRenames { strategy := .lexical } oddNames)
      oddSource).output = "foo`x`+'c'('foo',__STRING)/n".toList := by
  have hmap : Renamer.ofMap oddNames = .ok ⟨[("new x".toList, "n".toList),
      ("a.b".toList, "'c'".toList), ("foo".toList, "f".toList),
      ("x".toList, "__STRING".toList)]⟩ := by decide +kernel
  have hnames : ∀ b, oddNames.Usable b → HasNoOpening b.1 := by
    have hall : ∀ b ∈ oddNames.bindings, HasNoOpening b.1 := by decide +kernel
    exact fun b hb => hall b hb.bound
  obtain ⟨v, hv, -, hrenamed, hitems, -⟩ :=
    (literals_survive_renaming hmap hnames).2 .lexical oddSource
  exact ⟨hmap, hnames, ⟨v, hv, hrenamed.symm.trans (by decide +kernel),
    hitems.trans (by decide +kernel)⟩, by decide +kernel⟩

/-- A string that is not closed ends with the source. Trimming takes the space
at its end, so the literal that was set aside is not in the output. -/
theorem literals_survive_renaming_unclosed :
    Renamer.ofMap (.ofList [("b".toList, "c".toList)]) =
      .ok ⟨[("b".toList, "c".toList)]⟩ ∧
    (∀ gap ∈ (weave .lexical "b='a ".toList).gaps, HasNoOpening gap) ∧
    (Minifier.minify (.withRenames { strategy := .lexical }
      (.ofList [("b".toList, "c".toList)])) "b='a ".toList).renamed =
      "c=".toList ++ placeholder 0 ∧
    (Minifier.minify (.withRenames { strategy := .lexical }
      (.ofList [("b".toList, "c".toList)]))
      "b='a ".toList).prepared.literals.toList = ["'a ".toList] ∧
    (Minifier.minify (.withRenames { strategy := .lexical }
      (.ofList [("b".toList, "c".toList)])) "b='a ".toList).output =
      "c='a".toList ∧
    ¬ "'a ".toList <:+: "c='a".toList := by
  decide +kernel

end ScriptMinifier
