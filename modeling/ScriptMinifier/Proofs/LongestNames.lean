import Mathlib.Data.List.Nodup
import ScriptMinifier.Proofs.Woven
import ScriptMinifier.Proofs.Words

/-!
# The longest name at each position

Renaming reads the code from left to right. At each position the usable names
that stand there as whole words are the candidates, and the longest of them is
replaced. `Scan` says so about positions of the code alone: it never looks at
what has been put in, nor at the order in which names are tried.
-/

namespace ScriptMinifier

open Text

/-! ## Positions of the code -/

/-- Is there a word character at position `i`? -/
def wordAt (code : Text) (i : Nat) : Bool := code[i]?.any isWordChar

/-- A word begins or ends at position `i`: there is a word character on one of
its sides only. -/
def EdgeAt (code : Text) : Nat → Prop
  | 0 => wordAt code 0 = true
  | i + 1 => wordAt code i ≠ wordAt code (i + 1)

/-- The name stands at position `i` as a whole word. -/
structure StandsAt (code : Text) (i : Nat) (name : Text) : Prop where
  occurs : name <+: code.drop i
  start : EdgeAt code i
  stop : EdgeAt code (i + name.length)

theorem edgeAt_iff {code : Text} {i : Nat} (hi : i ≤ code.length) :
    EdgeAt code i ↔
      isWordEdge (code.take i).getLast? (code.drop i).head? = true := by
  rw [isWordEdge, List.head?_drop, bne_iff_ne]
  cases i with
  | zero => simp [EdgeAt, wordAt]
  | succ i =>
      have hlast : (code.take (i + 1)).getLast? = code[i]? := by
        rw [List.getLast?_take, if_neg (Nat.succ_ne_zero i),
          Nat.add_sub_cancel, List.getElem?_eq_getElem hi]
        rfl
      rw [hlast]
      exact Iff.rfl

theorem take_add_length {code name : Text} {i : Nat}
    (h : name <+: code.drop i) :
    code.take (i + name.length) = code.take i ++ name := by
  rw [List.take_add, ← List.prefix_iff_eq_take.mp h]

theorem occursAt_iff_standsAt {code name : Text} {i : Nat}
    (hname : name ≠ []) :
    Renamer.occursAt (code.take i).getLast? (code.drop i) name = true ↔
      StandsAt code i name := by
  rw [Renamer.occursAt, Bool.and_eq_true, Bool.and_eq_true,
    List.isPrefixOf_iff_prefix]
  have hedges (h : name <+: code.drop i) :
      (isWordEdge (code.take i).getLast? name.head? = true ↔ EdgeAt code i) ∧
      (isWordEdge name.getLast? ((code.drop i).drop name.length).head? = true ↔
        EdgeAt code (i + name.length)) := by
    have hlength := h.length_le
    have hpos := List.length_pos_iff.mpr hname
    rw [List.length_drop] at hlength
    have hhead : name.head? = (code.drop i).head? := by
      obtain ⟨rest, hrest⟩ := h
      rw [← hrest, List.head?_append_of_ne_nil _ hname]
    have hlast : (code.take (i + name.length)).getLast? = name.getLast? := by
      rw [take_add_length h, List.getLast?_append_of_ne_nil _ hname]
    rw [edgeAt_iff (by omega), edgeAt_iff (by omega), hhead, hlast,
      List.drop_drop]
    exact ⟨Iff.rfl, Iff.rfl⟩
  constructor
  · rintro ⟨⟨h, hstart⟩, hstop⟩
    exact ⟨h, (hedges h).1.mp hstart, (hedges h).2.mp hstop⟩
  · rintro ⟨h, hstart, hstop⟩
    exact ⟨⟨h, (hedges h).1.mpr hstart⟩, (hedges h).2.mpr hstop⟩

/-! ## The scan -/

namespace RenameMap

/-- A binding whose name could be replaced at position `i`. -/
structure Candidate (map : RenameMap) (code : Text) (i : Nat)
    (b : Text × Text) : Prop where
  usable : map.Usable b
  stands : StandsAt code i b.1

/-- How the code from position `i` on falls into names to be replaced and what
is between them. The longest candidate is taken and the scan goes on behind it;
where there is none, a character belongs to the gap. -/
inductive Scan (map : RenameMap) (code : Text) :
    Nat → Woven (Text × Text) → Prop
  | stop : Scan map code code.length (.last [])
  | name {i : Nat} {b : Text × Text} {w : Woven (Text × Text)}
      (hb : map.Candidate code i b)
      (longest : ∀ c, map.Candidate code i c → byteSize c.1 ≤ byteSize b.1)
      (rest : Scan map code (i + b.1.length) w) :
      Scan map code i (.cons [] b w)
  | char {i : Nat} {c : Char} {w : Woven (Text × Text)}
      (hc : code[i]? = some c) (none : ∀ b, ¬ map.Candidate code i b)
      (rest : Scan map code (i + 1) w) : Scan map code i (w.prepend [c])

variable {map : RenameMap} {code : Text} {i : Nat} {b c : Text × Text}

/-- At a position there is at most one candidate of each length. -/
theorem Candidate.eq_of_byteSize_eq (hb : map.Candidate code i b)
    (hc : map.Candidate code i c) (h : byteSize b.1 = byteSize c.1) :
    b = c := by
  have hle {u v : Text} (hpre : u <+: v) (hsize : byteSize u = byteSize v) :
      u = v := by
    obtain ⟨more, rfl⟩ := hpre
    by_contra hne
    have hmore : more ≠ [] := by
      rintro rfl
      exact hne (List.append_nil u).symm
    have hpos := byteSize_pos hmore
    rw [byteSize_append] at hsize
    omega
  refine List.inj_on_of_nodup_map map.nodup_names hb.usable.bound
    hc.usable.bound ?_
  rcases List.prefix_or_prefix_of_prefix hb.stands.occurs hc.stands.occurs
    with hpre | hpre
  · exact hle hpre h
  · exact (hle hpre h.symm).symm

theorem Candidate.lt_length (hb : map.Candidate code i b) :
    i < code.length := by
  have hlength := hb.stands.occurs.length_le
  have hpos := List.length_pos_iff.mpr hb.usable.ne_nil
  rw [List.length_drop] at hlength
  omega

namespace Scan

variable {w v : Woven (Text × Text)}

theorem eq_of_scan (hw : map.Scan code i w) (hv : map.Scan code i v) :
    w = v := by
  induction hw generalizing v with
  | stop =>
      cases hv with
      | stop => rfl
      | name hb _ _ => exact absurd hb.lt_length (Nat.lt_irrefl _)
      | char hc _ _ => simp at hc
  | name hb longest _ ih =>
      cases hv with
      | stop => exact absurd hb.lt_length (Nat.lt_irrefl _)
      | name hb' longest' rest' =>
          obtain rfl := hb.eq_of_byteSize_eq hb'
            (Nat.le_antisymm (longest' _ hb) (longest _ hb'))
          rw [ih rest']
      | char _ none _ => exact absurd hb (none _)
  | char hc none _ ih =>
      cases hv with
      | stop => simp at hc
      | name hb _ _ => exact absurd hb (none _)
      | char hc' _ rest' =>
          obtain rfl := Option.some.inj (hc.symm.trans hc')
          rw [ih rest']

/-- The gaps and the names make up the code. -/
theorem render_fst (hw : map.Scan code i w) :
    w.render Prod.fst = code.drop i := by
  induction hw with
  | stop => simp [Woven.render]
  | @name i b w hb _ _ ih =>
      rw [Woven.render, ih, List.nil_append, ← List.drop_drop]
      exact (List.prefix_append_drop hb.stands.occurs).symm
  | @char i c w hc _ _ ih =>
      obtain ⟨hi, rfl⟩ := List.getElem?_eq_some_iff.mp hc
      rw [Woven.render_prepend, ih, List.singleton_append,
        List.cons_getElem_drop_succ]

end Scan

end RenameMap

/-! ## Renaming is the scan -/

namespace Renamer.Lists

variable {map : RenameMap} {renamer : Renamer} {code : Text} {i : Nat}

theorem candidate_iff (h : Lists map renamer) (b : Text × Text) :
    map.Candidate code i b ↔ b ∈ renamer.names ∧
      occursAt (code.take i).getLast? (code.drop i) b.1 = true := by
  constructor
  · rintro ⟨husable, hstands⟩
    exact ⟨(h.mem_iff b).mpr husable,
      (occursAt_iff_standsAt husable.ne_nil).mpr hstands⟩
  · rintro ⟨hmem, hoccurs⟩
    have husable := (h.mem_iff b).mp hmem
    exact ⟨husable, (occursAt_iff_standsAt husable.ne_nil).mp hoccurs⟩

/-- The first name that is found is the longest candidate. -/
theorem candidate_of_find? (h : Lists map renamer) {b : Text × Text}
    (hb : renamer.names.find? (fun c =>
      occursAt (code.take i).getLast? (code.drop i) c.1) = some b) :
    map.Candidate code i b ∧
      ∀ c, map.Candidate code i c → byteSize c.1 ≤ byteSize b.1 := by
  obtain ⟨hoccurs, front, back, hnames, hfront⟩ :=
    List.find?_eq_some_iff_append.mp hb
  have hmem : b ∈ renamer.names := by simp [hnames]
  have hsorted := h.sorted
  refine ⟨(h.candidate_iff b).mpr ⟨hmem, hoccurs⟩, ?_⟩
  intro c hc
  obtain ⟨hcmem, hcoccurs⟩ := (h.candidate_iff c).mp hc
  rw [hnames] at hcmem hsorted
  rcases List.mem_append.mp hcmem with hcmem | hcmem
  · exact absurd (hfront c hcmem) (by simp [hcoccurs])
  · rcases List.mem_cons.mp hcmem with rfl | hcmem
    · exact Nat.le_refl _
    · have hback := (List.pairwise_append.mp hsorted).2.1
      exact (List.pairwise_cons.mp hback).1 c hcmem

theorem rule_eq_none (h : Lists map renamer)
    (none : ∀ b, ¬ map.Candidate code i b) :
    renamer.rule (code.take i).getLast? (code.drop i) = Option.none := by
  rw [rule, Option.map_eq_none_iff, List.find?_eq_none]
  intro b hb hoccurs
  exact none b ((h.candidate_iff b).mpr ⟨hb, hoccurs⟩)

theorem rule_eq_some (h : Lists map renamer) {b : Text × Text}
    (hb : map.Candidate code i b)
    (longest : ∀ c, map.Candidate code i c → byteSize c.1 ≤ byteSize b.1) :
    renamer.rule (code.take i).getLast? (code.drop i) =
      some ⟨b.1.length, b.2⟩ := by
  rw [rule]
  cases hfound : renamer.names.find? (fun c =>
      occursAt (code.take i).getLast? (code.drop i) c.1) with
  | none =>
      obtain ⟨hmem, hoccurs⟩ := (h.candidate_iff b).mp hb
      exact absurd hoccurs (List.find?_eq_none.mp hfound b hmem)
  | some c =>
      obtain ⟨hc, longest'⟩ := h.candidate_of_find? hfound
      rw [hb.eq_of_byteSize_eq hc
        (Nat.le_antisymm (longest' b hb) (longest c hc)), Option.map_some]

/-- The scan comes to an end, from every position. -/
theorem exists_scan (h : Lists map renamer) (hi : i ≤ code.length) :
    ∃ w, map.Scan code i w := by
  induction hn : code.length - i using Nat.strong_induction_on
    generalizing i with
  | _ n ih =>
  subst hn
  rcases Nat.eq_or_lt_of_le hi with rfl | hlt
  · exact ⟨_, .stop⟩
  · cases hfound : renamer.names.find? (fun c =>
        occursAt (code.take i).getLast? (code.drop i) c.1) with
    | none =>
        obtain ⟨w, hw⟩ := ih _ (by omega) (i := i + 1) hlt rfl
        refine ⟨_, .char (List.getElem?_eq_getElem hlt) ?_ hw⟩
        intro b hb
        obtain ⟨hmem, hoccurs⟩ := (h.candidate_iff b).mp hb
        exact List.find?_eq_none.mp hfound b hmem hoccurs
    | some b =>
        obtain ⟨hb, longest⟩ := h.candidate_of_find? hfound
        have hpos := List.length_pos_iff.mpr hb.usable.ne_nil
        have hlength := hb.stands.occurs.length_le
        rw [List.length_drop] at hlength
        obtain ⟨w, hw⟩ := ih _ (by omega) (i := i + b.1.length) (by omega) rfl
        exact ⟨_, .name hb longest hw⟩

/-- Renaming the rest of the code puts the new names between the gaps. -/
theorem replaceFrom_eq (h : Lists map renamer) {w : Woven (Text × Text)}
    (hw : map.Scan code i w) :
    replaceFrom renamer.rule (code.take i).getLast? 0 (code.drop i) =
      w.render Prod.snd := by
  induction hw with
  | stop => rw [List.drop_length, replaceFrom, Woven.render]
  | @name i b w hb longest _ ih =>
      have hrule := h.rule_eq_some hb longest
      have hdrop := List.drop_eq_getElem_cons hb.lt_length
      have hbefore : ((code.drop i).take b.1.length).getLast?.or
          (code.take i).getLast? = (code.take (i + b.1.length)).getLast? := by
        rw [List.take_add, List.getLast?_append]
      rw [← hbefore, ← List.drop_drop] at ih
      rw [hdrop] at hrule ih ⊢
      rw [replaceFrom_of_some hrule (List.length_pos_iff.mpr hb.usable.ne_nil),
        ih, Woven.render, List.nil_append]
  | @char i c w hc none _ ih =>
      obtain ⟨hi, rfl⟩ := List.getElem?_eq_some_iff.mp hc
      have hrule := h.rule_eq_none none
      have hlast : (code.take (i + 1)).getLast? = some code[i] := by
        rw [List.take_add_one, hc, Option.toList_some, List.getLast?_concat]
      rw [hlast] at ih
      rw [List.drop_eq_getElem_cons hi] at hrule ⊢
      rw [replaceFrom_of_none hrule, ih, Woven.render_prepend,
        List.singleton_append]

theorem apply_eq (h : Lists map renamer) {w : Woven (Text × Text)}
    (hw : map.Scan code 0 w) : renamer.apply code = w.render Prod.snd := by
  have heq := h.replaceFrom_eq hw
  rwa [List.take_zero, List.drop_zero, List.getLast?_nil] at heq

end Renamer.Lists

/-- **The longest name at each position is replaced.** There is one way to scan
the code: at each position the longest candidate is taken. Its gaps and names
make up the code, and renaming puts the new names in place of the names. No two
candidates at a position have the same length, so the names may be tried in any
order that has long ones first. -/
theorem Renamer.apply_eq_scan {map : RenameMap} {accepts : Renamer → Bool}
    {renamer : Renamer} (hmap : Renamer.ofMap map accepts = .ok renamer)
    (code : Text) :
    (∃ w, map.Scan code 0 w ∧ (∀ v, map.Scan code 0 v → v = w) ∧
      w.render Prod.fst = code ∧ renamer.apply code = w.render Prod.snd) ∧
    (∀ i b c, map.Candidate code i b → map.Candidate code i c →
      byteSize b.1 = byteSize c.1 → b = c) ∧
    ∀ names : List (Text × Text), names.Perm renamer.names →
      (names.Pairwise fun b c => byteSize c.1 ≤ byteSize b.1) →
      Renamer.apply ⟨names⟩ code = renamer.apply code := by
  have hlists := Renamer.lists_of_ofMap hmap
  obtain ⟨w, hw⟩ := hlists.exists_scan (Nat.zero_le code.length)
  refine ⟨⟨w, hw, fun v hv => hv.eq_of_scan hw, hw.render_fst,
    hlists.apply_eq hw⟩, fun i b c hb hc => hb.eq_of_byteSize_eq hc, ?_⟩
  intro names hperm hsorted
  have hother : Renamer.Lists map ⟨names⟩ :=
    ⟨fun b => hperm.mem_iff.trans (hlists.mem_iff b), hsorted⟩
  rw [hother.apply_eq hw, hlists.apply_eq hw]

/-- One name goes on from another, and two swap. -/
def growingNames : RenameMap :=
  .ofList [("a".toList, "b".toList), ("b".toList, "a".toList),
    ("a+".toList, "x".toList)]

/-- The longer name is taken where a word follows it. Elsewhere no word ends
behind it, and the shorter one is taken. -/
theorem Renamer.apply_eq_scan_growingNames :
    Renamer.ofMap growingNames = .ok ⟨[("a+".toList, "x".toList),
      ("a".toList, "b".toList), ("b".toList, "a".toList)]⟩ ∧
    ∃ w, growingNames.Scan "a+b a+ b".toList 0 w ∧
      w.render Prod.fst = "a+b a+ b".toList ∧
      w.render Prod.snd = "xa b+ a".toList := by
  have hmap : Renamer.ofMap growingNames = .ok ⟨[("a+".toList, "x".toList),
      ("a".toList, "b".toList), ("b".toList, "a".toList)]⟩ := by decide +kernel
  obtain ⟨⟨w, hw, -, hcode, happly⟩, -⟩ :=
    Renamer.apply_eq_scan hmap "a+b a+ b".toList
  exact ⟨hmap, w, hw, hcode, happly.symm.trans (by decide +kernel)⟩

end ScriptMinifier
