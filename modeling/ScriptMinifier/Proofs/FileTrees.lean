import Mathlib.Data.List.Infix
import ScriptMinifier.FileTree
import ScriptMinifier.Proofs.Paths
import ScriptMinifier.Text.Encoded

/-!
# Following paths through a file tree

A path is followed one piece at a time. `Follows` says what one piece can do:
stay, go up or go down. The way to a location leads through directories only,
so a path that ends at a file ends with the name of the file. Writing a file
changes the entry at one location, which no path was passing through, so every
path that could be followed before leads to the same location.
-/

namespace ScriptMinifier

/-- A piece that stays where it is. -/
def Stays (piece : Text) : Prop := piece = [] ∨ piece = ['.']

namespace FileTree

variable {tree : FileTree} {location next : Location} {piece : Text}

/-! ## Entries -/

theorem get?_home (h : location <+: tree.home) :
    tree.get? location = some .directory := by
  rw [get?, if_pos (List.isPrefixOf_iff_prefix.mpr h)]

theorem get?_set_of_ne (tree : FileTree) (entry : Entry) {other : Location}
    (h : other ≠ location) :
    (tree.set location entry).get? other = tree.get? other := by
  have hfind : (tree.set location entry).entries.find? (fun e => e.1 = other) =
      tree.entries.find? fun e => e.1 = other := by
    simp only [set, List.find?_append, List.find?_filter, List.find?_cons,
      List.find?_nil, Ne.symm h, decide_false, Option.or_none]
    congr 1
    funext e
    by_cases he : e.1 = other
    · simp [he, h]
    · simp [he]
  rw [get?, get?, hfind]
  rfl

theorem get?_set_self (entry : Entry) (h : ¬ location <+: tree.home) :
    (tree.set location entry).get? location = some entry := by
  have hnone : (tree.entries.filter fun e => e.1 ≠ location).find?
      (fun e => e.1 = location) = none := by
    rw [List.find?_eq_none]
    intro e he
    simpa using List.of_mem_filter he
  have hhome : ¬ location.isPrefixOf (tree.set location entry).home = true := by
    rw [List.isPrefixOf_iff_prefix]
    exact h
  rw [get?, if_neg hhome, set, List.find?_append, hnone]
  simp

/-! ## One piece of a path -/

/-- What following a piece can do. -/
inductive Follows (tree : FileTree) (location : Location) (piece : Text) :
    Location → Prop
  | stay (hpiece : Stays piece) : Follows tree location piece location
  | up (hpiece : piece = ['.', '.']) :
      Follows tree location piece location.dropLast
  | down (hpiece : IsName piece) (hlength : isTooLong piece = false)
      (hsome : (tree.get? (location ++ [piece])).isSome) :
      Follows tree location piece (location ++ [piece])

theorem step_eq_ok_iff : tree.step location piece = .ok next ↔
    tree.get? location = some .directory ∧
      Follows tree location piece next := by
  constructor
  · intro h
    unfold step at h
    split at h
    · cases h
    · cases h
    rename_i hdirectory
    refine ⟨hdirectory, ?_⟩
    by_cases hstays : piece = [] ∨ piece = ['.']
    · rw [if_pos hstays] at h
      cases h
      exact .stay hstays
    by_cases hup : piece = ['.', '.']
    · rw [if_neg hstays, if_pos hup] at h
      cases h
      exact .up hup
    rw [if_neg hstays, if_neg hup] at h
    split at h
    · cases h
    rename_i hlength
    split at h
    · next hsome =>
        cases h
        rw [not_or] at hstays
        exact .down ⟨hstays.1, hstays.2, hup⟩ (Bool.eq_false_iff.mpr hlength)
          hsome
    · cases h
  · rintro ⟨hdirectory, hfollows⟩
    unfold step
    rw [hdirectory]
    cases hfollows with
    | stay hpiece => exact if_pos hpiece
    | up hpiece => simp [hpiece]
    | down hpiece hlength hsome =>
        obtain ⟨hnil, hdot, hdots⟩ := hpiece
        simp [hnil, hdot, hdots, hlength, hsome]

/-! ## The way to a location -/

/-- All directories on the way to the location are there. -/
def Grounded (tree : FileTree) (location : Location) : Prop :=
  ∀ above, above <+: location → above ≠ location →
    tree.get? above = some .directory

theorem grounded_start (tree : FileTree) (p : Path) :
    tree.Grounded (tree.start p) := by
  intro above hpre hne
  unfold start at hpre hne
  split at hpre
  · exact get?_home ((List.prefix_nil.mp hpre) ▸ List.nil_prefix)
  · exact get?_home hpre

theorem Grounded.step (h : tree.Grounded location)
    (hstep : tree.step location piece = .ok next) : tree.Grounded next := by
  obtain ⟨hdirectory, hfollows⟩ := step_eq_ok_iff.mp hstep
  intro above hpre hne
  cases hfollows with
  | stay => exact h above hpre hne
  | up =>
      by_cases habove : above = location
      · rw [habove, hdirectory]
      · exact h above (hpre.trans (List.dropLast_prefix _)) habove
  | down =>
      rcases List.prefix_concat_iff.mp hpre with heq | hpre
      · exact absurd heq hne
      · by_cases habove : above = location
        · rw [habove, hdirectory]
        · exact h above hpre habove

/-- The location that pieces lead to. -/
def follow (tree : FileTree) (location : Location) (pieces : List Text) :
    Except Fault Location :=
  pieces.foldlM tree.step location

theorem follow_append_eq_ok_iff {pieces more : List Text} :
    tree.follow location (pieces ++ more) = .ok next ↔
      ∃ middle, tree.follow location pieces = .ok middle ∧
        tree.follow middle more = .ok next := by
  rw [follow, List.foldlM_append]
  exact bind_eq_ok_iff

theorem follow_singleton (tree : FileTree) (location : Location)
    (piece : Text) :
    tree.follow location [piece] = tree.step location piece := by
  show (tree.step location piece).bind _ = _
  cases tree.step location piece <;> rfl

theorem Grounded.follow {pieces : List Text} (h : tree.Grounded location)
    (hfollow : tree.follow location pieces = .ok next) :
    tree.Grounded next := by
  induction pieces using List.reverseRecOn generalizing next with
  | nil =>
      cases hfollow
      exact h
  | append_singleton pieces piece ih =>
      obtain ⟨middle, hmiddle, hlast⟩ := follow_append_eq_ok_iff.mp hfollow
      rw [follow_singleton] at hlast
      exact (ih hmiddle).step hlast

/-! ## Reading -/

theorem locate_eq_ok_iff {p : Path} : tree.locate p = .ok location ↔
    checkPath p = .ok () ∧
      tree.follow (tree.start p) p.pieces = .ok location := by
  rw [locate, bind_eq_ok_iff]
  constructor
  · rintro ⟨⟨⟩, hcheck, hfollow⟩
    exact ⟨hcheck, hfollow⟩
  · rintro ⟨hcheck, hfollow⟩
    exact ⟨(), hcheck, hfollow⟩

theorem read_eq_ok_iff {p : Path} {content : ByteArray} :
    tree.read p = .ok content ↔ ∃ location,
      tree.locate p = .ok location ∧
        tree.get? location = some (.file content) := by
  rw [read, bind_eq_ok_iff]
  refine exists_congr fun location => and_congr_right fun _ => ?_
  constructor
  · intro h
    split at h
    · next found =>
        cases h
        exact found
    · cases h
    · cases h
  · intro h
    rw [h]
    rfl

/-- A path that leads to a file ends with the name of the file, and what is in
front of the name leads to the directory of the file. -/
theorem exists_name_of_file {p : Path} {content : ByteArray}
    (hlocate : tree.locate p = .ok location)
    (hfile : tree.get? location = some (.file content)) :
    ∃ pieces name above, p.pieces = pieces ++ [name] ∧ IsName name ∧
      tree.follow (tree.start p) pieces = .ok above ∧
      location = above ++ [name] := by
  obtain ⟨-, hfollow⟩ := locate_eq_ok_iff.mp hlocate
  rcases List.eq_nil_or_concat p.pieces with hnil | ⟨pieces, name, hpieces⟩
  · rw [hnil] at hfollow
    cases hfollow
    have hstart : tree.get? (tree.start p) = some .directory := by
      unfold start
      split
      · exact get?_home List.nil_prefix
      · exact get?_home (List.prefix_refl _)
    rw [hstart] at hfile
    cases hfile
  · rw [List.concat_eq_append] at hpieces
    rw [hpieces] at hfollow
    obtain ⟨above, habove, hlast⟩ := follow_append_eq_ok_iff.mp hfollow
    rw [follow_singleton, step_eq_ok_iff] at hlast
    obtain ⟨hdirectory, hfollows⟩ := hlast
    cases hfollows with
    | stay =>
        rw [hdirectory] at hfile
        cases hfile
    | up =>
        have hgrounded := (tree.grounded_start p).follow habove
        have hup : tree.get? above.dropLast = some .directory := by
          by_cases heq : above.dropLast = above
          · rw [heq, hdirectory]
          · exact hgrounded _ (List.dropLast_prefix _) heq
        rw [hup] at hfile
        cases hfile
    | down hname => exact ⟨pieces, name, above, hpieces, hname, habove, rfl⟩

/-! ## Writing -/

/-- A path that can be written leads through `pieces` to the directory `above`,
where `name` does not name a directory. -/
structure Target (tree : FileTree) (p : Path) (pieces : List Text)
    (name : Text) (above : Location) : Prop where
  check : checkPath p = .ok ()
  pieces_eq : p.pieces = pieces ++ [name]
  isName : IsName name
  short : isTooLong name = false
  follow_eq : tree.follow (tree.start p) pieces = .ok above
  directory : tree.get? above = some .directory
  free : tree.get? (above ++ [name]) ≠ some .directory

theorem any_isDirectory_eq_true_iff {entry : Option Entry} :
    entry.any Entry.isDirectory = true ↔ entry = some .directory := by
  rcases entry with _ | _ | _ <;> simp [Entry.isDirectory]

theorem dropWhile_eq_self_of_head? {pieces : List Text}
    (h : pieces.head? ≠ some []) :
    pieces.dropWhile (fun piece => piece = []) = pieces := by
  cases pieces with
  | nil => rfl
  | cons piece pieces =>
      rw [List.dropWhile_cons_of_neg]
      simpa using h

theorem exists_target {p : Path} (h : tree.target p = .ok location) :
    ∃ pieces name above, tree.Target p pieces name above ∧
      location = above ++ [name] := by
  rw [target, bind_eq_ok_iff] at h
  obtain ⟨⟨⟩, hcheck, h⟩ := h
  dsimp only at h
  split at h
  · cases h
  rename_i name before hdrop
  rw [bind_eq_ok_iff] at h
  obtain ⟨above, hfollow, h⟩ := h
  split at h
  · cases h
  rename_i hdirectory
  split at h
  · cases h
  rename_i hpiece
  split at h
  · cases h
  rename_i hlength
  split at h
  · cases h
  rename_i hfree
  cases h
  simp only [not_or] at hpiece
  obtain ⟨hlast, hdot, hdots⟩ := hpiece
  have hreversed : p.pieces.reverse = name :: before := by
    rw [← hdrop]
    exact (dropWhile_eq_self_of_head? hlast).symm
  have hname : name ≠ [] := by
    rintro rfl
    exact hlast (by rw [hreversed]; rfl)
  refine ⟨before.reverse, name, above, ?_, rfl⟩
  constructor
  · exact hcheck
  · rw [← List.reverse_reverse p.pieces, hreversed, List.reverse_cons]
  · exact ⟨hname, hdot, hdots⟩
  · exact Bool.eq_false_iff.mpr hlength
  · exact hfollow
  · simpa [any_isDirectory_eq_true_iff] using hdirectory
  · rwa [any_isDirectory_eq_true_iff] at hfree

/-- A file that is not there cannot be passed through, nor can the old one: what
could be followed before still can. -/
theorem follow_set {pieces : List Text} {target : Location}
    (hfree : tree.get? target ≠ some .directory) (content : ByteArray)
    (h : tree.follow location pieces = .ok next) :
    (tree.set target (.file content)).follow location pieces = .ok next := by
  have hhome : ¬ target <+: tree.home := fun hpre => hfree (get?_home hpre)
  induction pieces using List.reverseRecOn generalizing next with
  | nil => exact h
  | append_singleton pieces piece ih =>
      obtain ⟨middle, hmiddle, hlast⟩ := follow_append_eq_ok_iff.mp h
      refine follow_append_eq_ok_iff.mpr ⟨middle, ih hmiddle, ?_⟩
      rw [follow_singleton, step_eq_ok_iff] at hlast ⊢
      obtain ⟨hdirectory, hfollows⟩ := hlast
      have hne : middle ≠ target := by
        rintro rfl
        exact hfree hdirectory
      refine ⟨by rw [get?_set_of_ne _ _ hne, hdirectory], ?_⟩
      cases hfollows with
      | stay hpiece => exact .stay hpiece
      | up hpiece => exact .up hpiece
      | down hpiece hlength hsome =>
          refine .down hpiece hlength ?_
          by_cases heq : middle ++ [piece] = target
          · rw [heq, get?_set_self _ hhome]
            rfl
          · rwa [get?_set_of_ne _ _ heq]

variable {p q : Path} {content : ByteArray} {written : FileTree}

theorem exists_set_of_write (h : tree.write p content = .ok written) :
    ∃ location, tree.target p = .ok location ∧
      written = tree.set location (.file content) := by
  rw [write, bind_eq_ok_iff] at h
  obtain ⟨location, htarget, h⟩ := h
  cases h
  exact ⟨location, htarget, rfl⟩

/-- Every other entry is as it was. -/
theorem get?_write (h : tree.write p content = .ok written) {other : Location}
    (hother : tree.target p ≠ .ok other) :
    written.get? other = tree.get? other := by
  obtain ⟨location, htarget, rfl⟩ := exists_set_of_write h
  apply get?_set_of_ne
  rintro rfl
  exact hother htarget

/-- What was written is read back. -/
theorem read_write (h : tree.write p content = .ok written) :
    written.read p = .ok content := by
  obtain ⟨location, htarget, rfl⟩ := exists_set_of_write h
  obtain ⟨pieces, name, above, hp, rfl⟩ := exists_target htarget
  have hhome : ¬ above ++ [name] <+: tree.home :=
    fun hpre => hp.free (get?_home hpre)
  rw [read_eq_ok_iff]
  refine ⟨above ++ [name], ?_, get?_set_self _ hhome⟩
  rw [locate_eq_ok_iff, hp.pieces_eq]
  refine ⟨hp.check, follow_append_eq_ok_iff.mpr
    ⟨above, follow_set hp.free content hp.follow_eq, ?_⟩⟩
  have hne : above ≠ above ++ [name] := by simp
  rw [follow_singleton, step_eq_ok_iff, get?_set_of_ne _ _ hne, hp.directory]
  refine ⟨rfl, .down hp.isName hp.short ?_⟩
  rw [get?_set_self _ hhome]
  rfl

/-- Another file is read as before. -/
theorem read_write_of_ne (h : tree.write p content = .ok written)
    {other : ByteArray} (hread : tree.read q = .ok other)
    (hne : tree.locate q ≠ tree.target p) : written.read q = .ok other := by
  obtain ⟨location, hlocate, hfile⟩ := read_eq_ok_iff.mp hread
  rw [hlocate] at hne
  refine read_eq_ok_iff.mpr ⟨location, ?_, ?_⟩
  · obtain ⟨target, htarget, rfl⟩ := exists_set_of_write h
    obtain ⟨pieces, name, above, hp, rfl⟩ := exists_target htarget
    rw [locate_eq_ok_iff] at hlocate ⊢
    exact ⟨hlocate.1, follow_set hp.free content hlocate.2⟩
  · rw [get?_write h (Ne.symm hne), hfile]

/-- The minified script does not replace the script. -/
theorem locate_ne_target_minified {root input : Path}
    (hread : tree.read (root.join input) = .ok content) :
    tree.locate (root.join input) ≠ tree.target (root.join input.minified) := by
  obtain ⟨location, hlocate, hfile⟩ := read_eq_ok_iff.mp hread
  obtain ⟨pieces, name, above, hpieces, hname, -, rfl⟩ :=
    exists_name_of_file hlocate hfile
  have hlast : input.pieces.getLast? = some name := by
    rw [← Path.getLast?_pieces_join root, hpieces, List.getLast?_concat]
  rw [hlocate]
  intro htarget
  obtain ⟨pieces', name', above', hp, heq⟩ := exists_target htarget.symm
  have hlast' : some name' = some (Path.minifiedName name) := by
    rw [← Path.getLast?_pieces_minified hlast hname,
      ← Path.getLast?_pieces_join root, hp.pieces_eq, List.getLast?_concat]
  have hname' : name = name' := by
    simpa using (List.append_inj' heq rfl).2
  exact Path.minifiedName_ne name
    ((hname'.trans (Option.some.inj hlast')).symm)

end FileTree

end ScriptMinifier
