import ScriptMinifier.Proofs.Paths

/-!
# Where the minified script goes

The path of the minified script has the components of the script's directory
and one more, the minified name. A path without a file name keeps its components
and gets `.min.js` behind them. Either way the two paths differ.
-/

namespace ScriptMinifier.Path

variable {p : Path} {name stem extension : Text}

/-! ## Pieces that say nothing -/

/-- Only the start of a relative path stands for the directory it is read in. -/
theorem first_of_component?_eq_here {first : Bool} {piece : Text}
    (h : component? first piece = some .here) : first = true := by
  unfold component? innerComponent? at h
  grind

theorem component?_ne_root {first : Bool} {piece : Text} :
    component? first piece ≠ some .root := by
  unfold component? innerComponent?
  grind

theorem isVoid_iff (first : Bool) (piece : Text) :
    isVoid first piece = true ↔ component? first piece = none := by
  unfold isVoid component? innerComponent?
  grind

theorem componentsOf_dropVoid (absolute : Bool) (last : List Text) :
    componentsOf absolute (dropVoid (!absolute) last).reverse =
      componentsOf absolute last.reverse := by
  induction last with
  | nil => rfl
  | cons piece before ih =>
      rw [dropVoid]
      split
      · next hvoid =>
          rw [ih, List.reverse_cons, componentsOf_concat, List.isEmpty_reverse,
            (isVoid_iff _ _).mp hvoid]
          simp
      · rfl

theorem dropVoid_suffix (relative : Bool) (last : List Text) :
    dropVoid relative last <:+ last := by
  induction last with
  | nil => exact List.suffix_rfl
  | cons piece before ih =>
      rw [dropVoid]
      split
      · exact ih.trans (List.suffix_cons piece before)
      · exact List.suffix_rfl

/-- What is left after dropping ends with a piece that says something. -/
theorem exists_component_of_dropVoid {relative : Bool} {last before : List Text}
    {piece : Text} (h : dropVoid relative last = piece :: before) :
    ∃ c, component? (relative && before.isEmpty) piece = some c := by
  induction last with
  | nil => cases h
  | cons first rest ih =>
      rw [dropVoid] at h
      split at h
      · exact ih h
      · next hvoid =>
          cases h
          rw [isVoid_iff] at hvoid
          exact Option.ne_none_iff_exists'.mp hvoid

/-! ## The directory of a file -/

theorem pieces_ne_nil (p : Path) : p.pieces ≠ [] := by
  unfold pieces
  split <;> exact List.splitOn_ne_nil _ _

theorem pieces_of_relative (h : p.isAbsolute = false) :
    p.pieces = p.text.splitOn '/' := by
  unfold pieces
  split
  · next htext => simp [isAbsolute, htext] at h
  · rfl

theorem head?_pieces_ne (h : p.isAbsolute = false) (htext : p.text ≠ []) :
    p.pieces.head? ≠ some [] := by
  rw [pieces_of_relative h]
  obtain ⟨c, rest, hrest⟩ := List.exists_cons_of_ne_nil htext
  have hc : c ≠ '/' := by
    rintro rfl
    simp [isAbsolute, hrest] at h
  obtain ⟨first, more, hsplit⟩ :=
    List.exists_cons_of_ne_nil (List.splitOnP_ne_nil (· == '/') rest)
  rw [hrest, List.splitOn, List.splitOnP_cons_eq_if_modifyHead,
    if_neg (by simpa using hc), hsplit]
  simp

/-- Pieces with slashes between them make up a path with these pieces. -/
theorem components_mk_intercalate {absolute : Bool} {pieces : List Text}
    (hslash : ∀ piece ∈ pieces, '/' ∉ piece)
    (hfirst : absolute = false → pieces.head? ≠ some []) :
    components ⟨if absolute then '/' :: List.intercalate ['/'] pieces
      else List.intercalate ['/'] pieces⟩ = componentsOf absolute pieces := by
  by_cases hnil : pieces = []
  · rw [hnil]
    cases absolute <;> rfl
  · have hsplit := List.splitOn_intercalate '/' hslash hnil
    cases absolute with
    | true =>
        rw [components_eq]
        show componentsOf true ((List.intercalate ['/'] pieces).splitOn '/') = _
        rw [hsplit]
    | false =>
        rw [if_neg Bool.false_ne_true, components_eq]
        have hrelative :
            isAbsolute ⟨List.intercalate ['/'] pieces⟩ = false := by
          obtain ⟨first, rest, rfl⟩ := List.exists_cons_of_ne_nil hnil
          obtain ⟨c, more, rfl⟩ : ∃ c more, first = c :: more :=
            List.exists_cons_of_ne_nil (by simpa using hfirst rfl)
          have hc : c ≠ '/' := by
            rintro rfl
            exact hslash _ List.mem_cons_self List.mem_cons_self
          cases rest <;> simp [isAbsolute, List.intercalate_cons_cons, hc]
        rw [pieces_of_relative hrelative, hrelative, hsplit]

/-- The components of a path are those of what stands in front of the last
piece that says something, and what that piece says. -/
theorem components_eq_or (p : Path) :
    p.components = componentsOf p.isAbsolute [] ∨
    ∃ piece before c,
      dropVoid (!p.isAbsolute) p.pieces.reverse = piece :: before ∧
      component? (!p.isAbsolute && before.isEmpty) piece = some c ∧
      p.components = componentsOf p.isAbsolute before.reverse ++ [c] := by
  have hdrop := componentsOf_dropVoid p.isAbsolute p.pieces.reverse
  rw [List.reverse_reverse, ← components_eq] at hdrop
  cases hkept : dropVoid (!p.isAbsolute) p.pieces.reverse with
  | nil =>
      rw [hkept] at hdrop
      exact Or.inl hdrop.symm
  | cons piece before =>
      obtain ⟨c, hc⟩ := exists_component_of_dropVoid hkept
      rw [hkept, List.reverse_cons, componentsOf_concat, List.isEmpty_reverse,
        hc] at hdrop
      exact Or.inr ⟨piece, before, c, rfl, hc, hdrop.symm⟩

/-- The parent of a path has the components in front of the last piece that
says something. -/
theorem components_parentText {piece : Text} {before : List Text}
    (h : dropVoid (!p.isAbsolute) p.pieces.reverse = piece :: before) :
    components ⟨p.parentText⟩ = componentsOf p.isAbsolute before.reverse := by
  have htext : p.text ≠ [] := by
    obtain ⟨text⟩ := p
    rintro rfl
    cases (show [] = piece :: before from h)
  have hkept : dropVoid (!p.isAbsolute) before <:+ p.pieces.reverse := by
    refine (dropVoid_suffix _ before).trans ?_
    refine (List.suffix_cons piece before).trans ?_
    rw [← h]
    exact dropVoid_suffix _ _
  obtain ⟨back, hback⟩ : (dropVoid (!p.isAbsolute) before).reverse <+:
      p.pieces := by
    rwa [← List.reverse_suffix, List.reverse_reverse]
  rw [← componentsOf_dropVoid, parentText, h, List.drop_one, List.tail_cons]
  apply components_mk_intercalate
  · intro q hq
    apply slash_notMem_of_mem_pieces (p := p)
    rw [← hback]
    exact List.mem_append_left back hq
  · intro hrelative hhead
    apply head?_pieces_ne hrelative htext
    rw [← hback, List.head?_append, hhead]
    rfl

/-- A file name is the last component, and the parent has the others. -/
theorem components_of_fileName? (h : p.fileName? = some name) :
    p.components = components ⟨p.parentText⟩ ++ [.name name] ∧
      IsName name ∧ '/' ∉ name := by
  rw [fileName?_eq_some_iff] at h
  rcases components_eq_or p with
    hnone | ⟨piece, before, c, hkept, hc, hcomponents⟩
  · rw [hnone] at h
    cases hroot : p.isAbsolute <;> simp [hroot, componentsOf] at h
  · rw [hcomponents, List.getLast?_concat, Option.some_inj] at h
    rw [h] at hc hcomponents
    obtain ⟨rfl, hname⟩ := component?_eq_name_iff.mp hc
    refine ⟨by rw [components_parentText hkept, hcomponents], hname, ?_⟩
    have hmem : piece ∈ dropVoid (!p.isAbsolute) p.pieces.reverse := by
      rw [hkept]
      exact List.mem_cons_self
    exact slash_notMem_of_mem_pieces
      (List.mem_reverse.mp ((dropVoid_suffix _ _).subset hmem))

/-! ## A name behind a path -/

theorem components_append_slash {s piece : Text} (hs : s ≠ [])
    (hslash : '/' ∉ piece) :
    components ⟨s ++ '/' :: piece⟩ =
      components ⟨s⟩ ++ (innerComponent? piece).toList := by
  have hpieces : pieces ⟨s ++ '/' :: piece⟩ = pieces ⟨s⟩ ++ [piece] := by
    rw [← List.splitOn_eq_singleton hslash]
    obtain ⟨c, rest, rfl⟩ := List.exists_cons_of_ne_nil hs
    by_cases hc : c = '/'
    · rw [hc]
      exact splitOn_append_slash rest piece
    · rw [pieces_of_relative (by simp [isAbsolute, hc]),
        pieces_of_relative (by simp [isAbsolute, hc])]
      exact splitOn_append_slash (c :: rest) piece
  have habsolute : isAbsolute ⟨s ++ '/' :: piece⟩ = isAbsolute ⟨s⟩ := by
    obtain ⟨c, rest, rfl⟩ := List.exists_cons_of_ne_nil hs
    rfl
  rw [components_eq, components_eq, hpieces, habsolute, componentsOf_concat,
    List.isEmpty_eq_false_iff.mpr (pieces_ne_nil _), Bool.and_false,
    component?_false]

theorem isAbsolute_of_slash_notMem {s : Text} (h : '/' ∉ s) :
    isAbsolute ⟨s⟩ = false := by
  rw [isAbsolute, beq_eq_false_iff_ne]
  exact fun hhead => h (List.mem_of_head? hhead)

theorem components_join (hname : IsName name) (hslash : '/' ∉ name) :
    (p.join ⟨name⟩).components = p.components ++ [.name name] := by
  have hrelative := isAbsolute_of_slash_notMem hslash
  have hinner : innerComponent? name = some (.name name) := by
    rw [← component?_false, component?_of_isName false hname]
  have hsingle (absolute : Bool) : componentsOf absolute [name] =
      componentsOf absolute [] ++ [.name name] := by
    rw [← List.nil_append [name], componentsOf_concat,
      component?_of_isName _ hname]
    rfl
  rw [join, if_neg (by simp [hrelative])]
  split
  · next h =>
      obtain ⟨text⟩ := p
      rcases h with rfl | hlast
      · rw [List.nil_append, components_eq, hrelative,
          pieces_of_relative hrelative, List.splitOn_eq_singleton hslash]
        exact hsingle false
      · obtain ⟨s, rfl⟩ := List.getLast?_eq_some_iff.mp hlast
        rw [List.append_assoc, List.singleton_append]
        by_cases hs : s = []
        · rw [hs, components_eq]
          show componentsOf true (name.splitOn '/') = _
          rw [List.splitOn_eq_singleton hslash]
          exact hsingle true
        · rw [components_append_slash hs hslash,
            components_append_slash hs (by simp), hinner]
          simp [innerComponent?]
  · next h =>
      rw [not_or] at h
      rw [components_append_slash h.1 hslash, hinner]
      rfl

/-! ## The extension -/

/-- The stem of a name and the extension behind its last dot. A dot at the start
of the name gives it no extension. -/
structure SplitsInto (name stem extension : Text) : Prop where
  eq : name = stem ++ '.' :: extension
  stem_ne : stem ≠ []
  last : '.' ∉ extension

theorem splitsInto_of_splitExtension
    (h : splitExtension name = (stem, some extension)) :
    SplitsInto name stem extension := by
  have heq := eq_of_splitExtension h
  unfold splitExtension at h
  dsimp only at h
  split at h
  · cases h
  · next hstem =>
      split at h
      · cases h
      · obtain ⟨hs, he⟩ := Prod.mk.inj h
        refine ⟨heq, ?_, ?_⟩
        · rw [← hs, Ne, List.reverse_eq_nil_iff]
          exact hstem
        · rw [← Option.some.inj he, List.mem_reverse]
          intro hdot
          simpa using List.all_eq_true.mp List.all_takeWhile _ hdot

theorem splitExtension_of_splitsInto (hname : IsName name)
    (h : SplitsInto name stem extension) :
    splitExtension name = (stem, some extension) := by
  have hreverse : name.reverse = extension.reverse ++ '.' :: stem.reverse := by
    simp [h.eq]
  have hno : ∀ c ∈ extension.reverse, (c != '.') = true := by
    intro c hc
    rw [bne_iff_ne]
    rintro rfl
    exact h.last (List.mem_reverse.mp hc)
  have htake : name.reverse.takeWhile (· != '.') = extension.reverse := by
    rw [hreverse, List.takeWhile_append_of_pos hno]
    simp
  have hdrop : name.reverse.dropWhile (· != '.') = '.' :: stem.reverse := by
    rw [hreverse, List.dropWhile_append_of_pos hno]
    simp
  unfold splitExtension
  dsimp only
  rw [htake, hdrop, List.drop_one, List.tail_cons]
  split
  · next hnil => exact absurd (List.reverse_eq_nil_iff.mp hnil) h.stem_ne
  · rw [if_neg hname.2.2, List.reverse_reverse, List.reverse_reverse]

theorem minifiedName_of_splitsInto (hname : IsName name)
    (h : SplitsInto name stem extension) :
    minifiedName name = stem ++ ".min.".toList ++ extension ∧
      SplitsInto (minifiedName name) (stem ++ ".min".toList) extension := by
  have hminified : minifiedName name = stem ++ ".min.".toList ++ extension := by
    rw [minifiedName, splitExtension_of_splitsInto hname h]
  refine ⟨hminified, ?_, by simp, h.last⟩
  simp [hminified]

theorem minifiedName_of_not_splitsInto
    (h : ∀ stem extension, ¬ SplitsInto name stem extension) :
    minifiedName name = name ++ ".min.js".toList ∧
      SplitsInto (minifiedName name) (name ++ ".min".toList) "js".toList := by
  have hminified : minifiedName name = name ++ ".min.js".toList := by
    unfold minifiedName
    split
    · next stem extension hsplit =>
        exact absurd (splitsInto_of_splitExtension hsplit) (h stem extension)
    · next stem hsplit => rw [eq_of_splitExtension_none hsplit]
  refine ⟨hminified, ?_, by simp, by decide⟩
  simp [hminified]

theorem isName_minifiedName (name : Text) : IsName (minifiedName name) := by
  have hmem : 'm' ∈ minifiedName name := by
    unfold minifiedName
    split <;> simp
  refine ⟨?_, ?_, ?_⟩ <;>
    · intro h
      rw [h] at hmem
      revert hmem
      decide

/-! ## The path of the minified script -/

theorem components_minified_of_some (h : p.fileName? = some name) :
    p.minified.components =
      components ⟨p.parentText⟩ ++ [.name (minifiedName name)] := by
  obtain ⟨-, -, hslash⟩ := components_of_fileName? h
  rw [minified, withFileName, h, if_pos Option.isSome_some, Option.getD_some]
  exact components_join (isName_minifiedName name)
    (slash_notMem_minifiedName hslash)

theorem components_minified_of_none (h : p.fileName? = none) :
    p.minified.components = p.components ++ [.name ".min.js".toList] := by
  rw [minified, withFileName, h, if_neg (by simp), Option.getD_none]
  exact components_join (isName_minifiedName [])
    (slash_notMem_minifiedName List.not_mem_nil)

theorem components_minified_ne (p : Path) :
    p.minified.components ≠ p.components := by
  cases h : p.fileName? with
  | none =>
      rw [components_minified_of_none h, Ne, List.append_right_eq_self]
      simp
  | some name =>
      rw [components_minified_of_some h, (components_of_fileName? h).1, Ne,
        List.append_right_inj]
      simpa using minifiedName_ne name

theorem fileName?_eq_none_iff (p : Path) : p.fileName? = none ↔
    p.components = [] ∨ p.components = [.root] ∨ p.components = [.here] ∨
      p.components.getLast? = some .up := by
  constructor
  · intro h
    rcases components_eq_or p with
      hnone | ⟨piece, before, c, -, hc, hcomponents⟩
    · rw [hnone]
      cases p.isAbsolute <;> simp [componentsOf]
    · cases c with
      | root => exact absurd hc component?_ne_root
      | here =>
          obtain ⟨hrelative, hbefore⟩ : p.isAbsolute = false ∧ before = [] := by
            simpa using first_of_component?_eq_here hc
          rw [hcomponents, hrelative, hbefore]
          simp [componentsOf]
      | up => simp [hcomponents]
      | name text =>
          have hname : p.fileName? = some text := by
            rw [fileName?_eq_some_iff, hcomponents, List.getLast?_concat]
          rw [h] at hname
          cases hname
  · intro h
    rw [Option.eq_none_iff_forall_ne_some]
    intro name hname
    rw [fileName?_eq_some_iff] at hname
    rcases h with h | h | h | h <;> simp [h] at hname

/-- **The minified script goes beside the script.** Its path is never that of
the script. A file name gives way to one new name in the same directory, which
keeps the extension or gets `js` as its extension. Without a file name, at the
root, at a starting dot or behind two dots, `.min.js` follows the path. -/
theorem components_minified (p : Path) :
    p.minified.components ≠ p.components ∧
    (∀ name, p.fileName? = some name →
      p.components = components ⟨p.parentText⟩ ++ [.name name] ∧
      ∃ new, p.minified.fileName? = some new ∧
        p.minified.components = components ⟨p.parentText⟩ ++ [.name new] ∧
        (∀ stem extension, SplitsInto name stem extension →
          new = stem ++ ".min.".toList ++ extension ∧
          SplitsInto new (stem ++ ".min".toList) extension) ∧
        ((∀ stem extension, ¬ SplitsInto name stem extension) →
          new = name ++ ".min.js".toList ∧
          SplitsInto new (name ++ ".min".toList) "js".toList)) ∧
    (p.fileName? = none →
      p.minified.components = p.components ++ [.name ".min.js".toList]) ∧
    (p.fileName? = none ↔
      p.components = [] ∨ p.components = [.root] ∨ p.components = [.here] ∨
      p.components.getLast? = some .up) := by
  refine ⟨components_minified_ne p, ?_, components_minified_of_none,
    fileName?_eq_none_iff p⟩
  intro name h
  obtain ⟨hcomponents, hname, -⟩ := components_of_fileName? h
  have hminified := components_minified_of_some h
  refine ⟨hcomponents, minifiedName name, ?_, hminified, ?_, ?_⟩
  · rw [fileName?_eq_some_iff, hminified, List.getLast?_concat]
  · exact fun stem extension => minifiedName_of_splitsInto hname
  · exact minifiedName_of_not_splitsInto

theorem components_minified_samples :
    SplitsInto "app.v2.js".toList "app.v2".toList "js".toList ∧
    (ofString "./lib//app.v2.js/.").minified.components =
      [.here, .name "lib".toList, .name "app.v2.min.js".toList] ∧
    (∀ stem extension, ¬ SplitsInto ".profile".toList stem extension) ∧
    (ofString "//etc/.profile").minified.components =
      [.root, .name "etc".toList, .name ".profile.min.js".toList] ∧
    (ofString "a/..").minified.components =
      [.name ['a'], .up, .name ".min.js".toList] := by
  have happ : SplitsInto "app.v2.js".toList "app.v2".toList "js".toList :=
    ⟨by decide, by decide, by decide⟩
  have hprofile (stem extension : Text) :
      ¬ SplitsInto ".profile".toList stem extension := by
    intro h
    have hsplit := splitExtension_of_splitsInto (by unfold IsName; decide) h
    cases hsplit
  obtain ⟨-, new, -, hnew, hextension, -⟩ :=
    (components_minified (ofString "./lib//app.v2.js/.")).2.1 _ rfl
  obtain ⟨-, other, -, hother, -, hnone⟩ :=
    (components_minified (ofString "//etc/.profile")).2.1 _ rfl
  refine ⟨happ, ?_, hprofile, ?_, ?_⟩
  · rw [hnew, (hextension _ _ happ).1]
    decide
  · rw [hother, (hnone hprofile).1]
    decide
  · exact (components_minified (ofString "a/..")).2.2.1 rfl

end ScriptMinifier.Path
