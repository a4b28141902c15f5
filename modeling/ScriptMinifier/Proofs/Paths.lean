import Mathlib.Data.List.Basic
import ScriptMinifier.Path

/-!
# The pieces of a path

A path with another one behind it ends as that one does. Its components are read
off the pieces from left to right. A path that ends with a name has it as its
file name, and the path of the minified script then ends with the minified name:
one piece, longer than the name it was made from.
-/

namespace ScriptMinifier

/-- A piece that names an entry of a directory. -/
def IsName (piece : Text) : Prop :=
  piece ≠ [] ∧ piece ≠ ['.'] ∧ piece ≠ ['.', '.']

namespace Path

variable {p q : Path} {name : Text}

/-! ## Slashes -/

theorem splitOn_append_slash (s t : Text) :
    (s ++ '/' :: t).splitOn '/' = s.splitOn '/' ++ t.splitOn '/' :=
  List.splitOnP_append_cons s t rfl

theorem slash_notMem_of_mem_splitOn {s piece : Text}
    (h : piece ∈ s.splitOn '/') : '/' ∉ piece := by
  induction s generalizing piece with
  | nil =>
      rw [List.splitOn_nil, List.mem_singleton] at h
      simp [h]
  | cons c s ih =>
      rw [List.splitOn, List.splitOnP_cons_eq_if_modifyHead] at h
      change _ ∈ if (c == '/') = true then [] :: s.splitOn '/'
        else (s.splitOn '/').modifyHead (c :: ·) at h
      by_cases hc : c = '/'
      · rw [if_pos (by simpa using hc), List.mem_cons] at h
        rcases h with rfl | h
        · exact List.not_mem_nil
        · exact ih h
      · obtain ⟨first, more, hsplit⟩ :=
          List.exists_cons_of_ne_nil (List.splitOn_ne_nil '/' s)
        rw [hsplit] at h ih
        rw [if_neg (by simpa using hc), List.modifyHead_cons,
          List.mem_cons] at h
        rcases h with rfl | h
        · rw [List.mem_cons, not_or]
          exact ⟨Ne.symm hc, ih List.mem_cons_self⟩
        · exact ih (List.mem_cons_of_mem _ h)

theorem slash_notMem_of_mem_pieces (h : name ∈ p.pieces) : '/' ∉ name := by
  unfold pieces at h
  split at h <;> exact slash_notMem_of_mem_splitOn h

/-! ## The last piece -/

theorem getLast?_pieces (p : Path) :
    p.pieces.getLast? = (p.text.splitOn '/').getLast? := by
  unfold pieces
  split
  · next rest htext =>
      have hsplit := splitOn_append_slash [] rest
      rw [List.nil_append] at hsplit
      rw [htext, hsplit,
        List.getLast?_append_of_ne_nil _ (List.splitOn_ne_nil _ _)]
  · rfl

theorem getLast?_pieces_join (p q : Path) :
    (p.join q).pieces.getLast? = q.pieces.getLast? := by
  have hslash (s : Text) : ((s ++ '/' :: q.text).splitOn '/').getLast? =
      (q.text.splitOn '/').getLast? := by
    rw [splitOn_append_slash,
      List.getLast?_append_of_ne_nil _ (List.splitOn_ne_nil _ _)]
  rw [getLast?_pieces, getLast?_pieces]
  unfold join
  split
  · rfl
  · split
    · next h =>
        rcases h with hnil | hlast
        · rw [hnil, List.nil_append]
        · obtain ⟨s, hs⟩ := List.getLast?_eq_some_iff.mp hlast
          show ((p.text ++ q.text).splitOn '/').getLast? = _
          rw [hs, List.append_assoc, List.singleton_append, hslash]
    · exact hslash p.text

/-! ## Components of pieces -/

/-- What a piece stands for, given whether a relative path starts with it. -/
def component? (first : Bool) (piece : Text) : Option Component :=
  if first ∧ piece = ['.'] then some .here else innerComponent? piece

/-- The components of a path with these pieces. -/
def componentsOf : Bool → List Text → List Component
  | true, pieces => .root :: pieces.filterMap innerComponent?
  | false, [] => []
  | false, first :: rest =>
      (component? true first).toList ++ rest.filterMap innerComponent?

@[simp] theorem component?_false (piece : Text) :
    component? false piece = innerComponent? piece := by
  simp [component?]

theorem filterMap_innerComponent?_cons (piece : Text) (rest : List Text) :
    (piece :: rest).filterMap innerComponent? =
      (innerComponent? piece).toList ++ rest.filterMap innerComponent? := by
  cases hinner : innerComponent? piece with
  | none => rw [List.filterMap_cons_none hinner]; rfl
  | some c => rw [List.filterMap_cons_some hinner]; rfl

theorem components_eq (p : Path) :
    p.components = componentsOf p.isAbsolute p.pieces := by
  unfold components
  cases p.isAbsolute with
  | true => rfl
  | false =>
      rw [if_neg Bool.false_ne_true]
      split
      · next rest hpieces => rw [hpieces]; rfl
      · next hdot =>
          cases hpieces : p.pieces with
          | nil => rfl
          | cons first rest =>
              have hfirst : first ≠ ['.'] := by
                rintro rfl
                exact hdot rest hpieces
              rw [componentsOf, component?, if_neg (by simp [hfirst]),
                filterMap_innerComponent?_cons]

theorem componentsOf_concat (absolute : Bool) (front : List Text)
    (piece : Text) :
    componentsOf absolute (front ++ [piece]) = componentsOf absolute front ++
      (component? (!absolute && front.isEmpty) piece).toList := by
  have hlast : [piece].filterMap innerComponent? =
      (innerComponent? piece).toList := by
    rw [filterMap_innerComponent?_cons, List.filterMap_nil, List.append_nil]
  cases absolute with
  | true => simp [componentsOf, hlast]
  | false =>
      cases front with
      | nil => simp [componentsOf]
      | cons first rest => simp [componentsOf, hlast]

/-- A piece stands for a name only if it is one. -/
theorem component?_eq_name_iff {first : Bool} {piece : Text} :
    component? first piece = some (.name name) ↔
      piece = name ∧ IsName name := by
  unfold component? innerComponent? IsName
  grind

theorem component?_of_isName (first : Bool) (h : IsName name) :
    component? first name = some (.name name) :=
  component?_eq_name_iff.mpr ⟨rfl, h⟩

/-! ## The file name -/

theorem fileName?_eq_some_iff :
    p.fileName? = some name ↔ p.components.getLast? = some (.name name) := by
  unfold fileName?
  split
  · next text htext => simp [htext]
  · next hnone => simpa using hnone name

/-- The file name of a path is its last piece, if that is a name. -/
theorem fileName?_eq (h : p.pieces.getLast? = some name) (hname : IsName name) :
    p.fileName? = some name := by
  obtain ⟨front, hfront⟩ := List.getLast?_eq_some_iff.mp h
  rw [fileName?_eq_some_iff, components_eq, hfront, componentsOf_concat,
    component?_of_isName _ hname]
  exact List.getLast?_concat

/-! ## The minified name -/

/-- The two parts of a name, with the dot between them, make up the name. -/
theorem eq_of_splitExtension {stem extension : Text}
    (h : splitExtension name = (stem, some extension)) :
    name = stem ++ '.' :: extension := by
  unfold splitExtension at h
  dsimp only at h
  split at h
  · cases h
  · next hstem =>
      split at h
      · cases h
      · cases h
        cases hdrop : name.reverse.dropWhile (· != '.') with
        | nil => simp [hdrop] at hstem
        | cons dot rest =>
            have hdot : dot = '.' := by
              have hhead := List.head?_dropWhile_not (· != '.') name.reverse
              rw [hdrop] at hhead
              simpa using hhead
            have hname := List.takeWhile_append_dropWhile
              (p := (· != '.')) (l := name.reverse)
            rw [hdrop, hdot] at hname
            rw [List.drop_one, List.tail_cons, ← List.reverse_inj]
            refine hname.symm.trans ?_
            simp

theorem eq_of_splitExtension_none {stem : Text}
    (h : splitExtension name = (stem, none)) : stem = name := by
  unfold splitExtension at h
  dsimp only at h
  split at h
  · cases h
    rfl
  · split at h
    · cases h
      rfl
    · cases h

/-- A minified name is the name with something put in. -/
theorem exists_minifiedName_eq (name : Text) : ∃ front added back,
    name = front ++ back ∧ minifiedName name = front ++ (added ++ back) ∧
      added ≠ [] ∧ '/' ∉ added := by
  unfold minifiedName
  split
  · next stem extension h =>
      refine ⟨stem, ".min".toList, '.' :: extension, eq_of_splitExtension h,
        ?_, by decide, by decide⟩
      rw [List.append_assoc]
      rfl
  · next stem h =>
      refine ⟨stem, ".min.js".toList, [], ?_, ?_, by decide, by decide⟩
      · rw [List.append_nil, eq_of_splitExtension_none h]
      · rw [List.append_nil]

theorem minifiedName_ne (name : Text) : minifiedName name ≠ name := by
  obtain ⟨front, added, back, hname, hminified, hadded, -⟩ :=
    exists_minifiedName_eq name
  rw [hminified, hname, Ne, List.append_right_inj, List.append_left_eq_self]
  exact hadded

theorem slash_notMem_minifiedName (h : '/' ∉ name) :
    '/' ∉ minifiedName name := by
  obtain ⟨front, added, back, hname, hminified, -, hadded⟩ :=
    exists_minifiedName_eq name
  rw [hname, List.mem_append, not_or] at h
  simp [hminified, hadded, h.1, h.2]

/-- The minified script goes beside the script, under the minified name. -/
theorem getLast?_pieces_minified (h : p.pieces.getLast? = some name)
    (hname : IsName name) :
    p.minified.pieces.getLast? = some (minifiedName name) := by
  have hslash := slash_notMem_minifiedName
    (slash_notMem_of_mem_pieces (List.mem_of_getLast? h))
  rw [minified, withFileName, fileName?_eq h hname, Option.getD_some,
    if_pos Option.isSome_some, getLast?_pieces_join, getLast?_pieces,
    List.splitOn_eq_singleton hslash]
  rfl

end Path

end ScriptMinifier
