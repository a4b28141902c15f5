import Mathlib.Algebra.Ring.Parity
import ScriptMinifier.Proofs.CanonicalSpacing

/-!
# Operators made of signs

Two equal signs in a row are one operator, and a sign that is left over is
another. With the blanks between them gone, a sign that was left over and an
equal one behind it become one operator. Compressing keeps the operators of a
text exactly if this happens nowhere.
-/

namespace ScriptMinifier.Spacing

open Text

def isSign (c : Char) : Bool := c == '+' || c == '-'

/-- The operators `+`, `++`, `-` and `--` of a text. Equal signs in a row are
paired from the left. -/
def operators : Text → List Text
  | [] => []
  | [c] => if isSign c then [[c]] else []
  | c :: d :: s =>
      if isSign c then
        if d = c then [c, d] :: operators s else [c] :: operators (d :: s)
      else operators (d :: s)

theorem isSign_iff {c : Char} : isSign c = true ↔ c = '+' ∨ c = '-' := by
  simp [isSign]

theorem isPunctuation_of_isSign {c : Char} (h : isSign c = true) :
    isPunctuation c = true := by
  rcases isSign_iff.mp h with rfl | rfl <;> decide

theorem not_isBlank_of_isSign {c : Char} (h : isSign c = true) :
    isBlank c = false := by
  rcases isSign_iff.mp h with rfl | rfl <;> decide

theorem not_isSign_of_isBlank {c : Char} (h : isBlank c = true) :
    isSign c = false := by
  rw [Bool.eq_false_iff]
  intro hsign
  rw [not_isBlank_of_isSign hsign] at h
  exact absurd h (by decide)

/-! ## One character at a time -/

/-- The sign that waits for its double behind the character `c`, if `held` did
so in front of it. -/
def hold (held : Option Char) (c : Char) : Option Char :=
  if held = some c then none else if isSign c then some c else none

/-- The operator of a sign that does not find its double. -/
def release (held : Option Char) : List Text := held.toList.map ([·])

/-- The operator that ends where the character `c` comes. -/
def emit (held : Option Char) (c : Char) : List Text :=
  if held = some c then [[c, c]] else release held

/-- The operators of the rest of a text. -/
def operatorsFrom (held : Option Char) : Text → List Text
  | [] => release held
  | c :: s => emit held c ++ operatorsFrom (hold held c) s

theorem emit_none (c : Char) : emit none c = [] := rfl

theorem isSign_of_hold {held : Option Char} {c d : Char}
    (h : hold held d = some c) : d = c ∧ isSign c = true := by
  unfold hold at h
  split at h
  · simp at h
  · split at h
    · next hsign =>
        obtain rfl : d = c := by simpa using h
        exact ⟨rfl, hsign⟩
    · simp at h

theorem operators_of_not_isSign {c : Char} (h : isSign c = false) (s : Text) :
    operators (c :: s) = operators s := by
  cases s <;> simp [operators, h]

theorem operators_eq (s : Text) : operators s = operatorsFrom none s ∧
    ∀ c, isSign c = true → operators (c :: s) = operatorsFrom (some c) s := by
  induction s with
  | nil =>
      refine ⟨rfl, fun c hc => ?_⟩
      rw [operators, if_pos hc]
      rfl
  | cons d s ih =>
      have hnone : operators (d :: s) = operatorsFrom none (d :: s) := by
        rw [operatorsFrom, emit_none, List.nil_append, hold,
          if_neg (by simp)]
        cases hd : isSign d with
        | true => exact ih.2 d hd
        | false => exact (operators_of_not_isSign hd s).trans ih.1
      refine ⟨hnone, fun c hc => ?_⟩
      rw [operators, if_pos hc, operatorsFrom, emit, hold]
      by_cases hdc : d = c
      · rw [if_pos hdc, if_pos (by rw [hdc]), if_pos (by rw [hdc]), ih.1, hdc]
        rfl
      · have hne : ¬ some c = some d := fun h => hdc (by simpa using h.symm)
        rw [if_neg hdc, if_neg hne, if_neg hne, hnone]
        rfl

/-! ## Signs that come together -/

/-- The text ends in an odd number of signs `c` exactly if the last of them
waits for its double. -/
theorem foldl_hold_eq_some_iff {c : Char} (front : Text) :
    front.foldl hold none = some c ↔
      isSign c = true ∧ Odd (front.rtakeWhile (· == c)).length := by
  induction front using List.reverseRecOn with
  | nil => simp
  | append_singleton front d ih =>
      rw [List.foldl_append, List.foldl_cons, List.foldl_nil]
      by_cases hd : d = c
      · subst hd
        rw [List.rtakeWhile_concat_pos _ _ _ (by simp), List.length_append,
          List.length_singleton, Nat.odd_add_one, hold]
        by_cases hheld : front.foldl hold none = some d
        · obtain ⟨hsign, hodd⟩ := ih.mp hheld
          simp [hheld, hodd]
        · rw [if_neg hheld]
          cases hsign : isSign d with
          | false => simp
          | true =>
              have hodd : ¬ Odd (front.rtakeWhile (· == d)).length :=
                fun hodd => hheld (ih.mpr ⟨hsign, hodd⟩)
              simp [hodd]
      · rw [List.rtakeWhile_concat_neg _ _ _ (by simpa using hd)]
        constructor
        · exact fun h => absurd (isSign_of_hold h).1 hd
        · rintro ⟨-, hodd⟩
          exact absurd hodd (by simp)

/-- A sign that waits is punctuation, so a scan drops the blanks behind it. -/
def Waits (held : Option Char) (glued : Bool) : Prop :=
  ∀ c, held = some c → isSign c = true ∧ glued = true

/-- The next character other than a blank is the double of the sign that
waits. -/
def Meets (held : Option Char) (s : Text) : Prop :=
  ∃ c, held = some c ∧ (s.dropWhile isBlank).head? = some c

/-- Somewhere ahead a sign waits in front of blanks with its double behind
them. -/
def FusesFrom (held : Option Char) (s : Text) : Prop :=
  ∃ front blanks back c, s = front ++ (blanks ++ c :: back) ∧
    front.foldl hold held = some c ∧ blanks ≠ [] ∧ AreBlank blanks

section Steps

variable {held : Option Char} {glued : Bool} {d : Char} {s : Text}

theorem waits_none (glued : Bool) : Waits none glued :=
  fun _ h => absurd h (by simp)

theorem waits_hold (held : Option Char) (d : Char) :
    Waits (hold held d) (isPunctuation d) := by
  intro c h
  obtain ⟨rfl, hsign⟩ := isSign_of_hold h
  exact ⟨hsign, isPunctuation_of_isSign hsign⟩

theorem Waits.ne_of_isBlank (h : Waits held glued) (hd : isBlank d = true) :
    held ≠ some d := by
  intro hheld
  rw [not_isBlank_of_isSign (h d hheld).1] at hd
  exact absurd hd (by decide)

theorem hold_of_isBlank (h : Waits held glued) (hd : isBlank d = true) :
    hold held d = none := by
  rw [hold, if_neg (h.ne_of_isBlank hd), not_isSign_of_isBlank hd]
  rfl

theorem operatorsFrom_blank (h : Waits held glued) (hd : isBlank d = true) :
    operatorsFrom held (d :: s) = release held ++ operatorsFrom none s := by
  rw [operatorsFrom, hold_of_isBlank h hd, emit,
    if_neg (h.ne_of_isBlank hd)]

theorem fusesFrom_cons (h : Waits held glued) : FusesFrom held (d :: s) ↔
    (isBlank d = true ∧ Meets held s) ∨ FusesFrom (hold held d) s := by
  constructor
  · rintro ⟨front, blanks, back, c, heq, hfold, hne, hblanks⟩
    cases front with
    | nil =>
        obtain ⟨b, blanks, rfl⟩ := List.exists_cons_of_ne_nil hne
        rw [AreBlank, List.forall_mem_cons] at hblanks
        rw [List.nil_append, List.cons_append, List.cons.injEq] at heq
        obtain ⟨rfl, rfl⟩ := heq
        refine Or.inl ⟨hblanks.1, c, hfold, ?_⟩
        rw [List.dropWhile_append_of_pos hblanks.2, List.dropWhile_cons_of_neg
          (by simp [not_isBlank_of_isSign (h c hfold).1])]
        rfl
    | cons e front =>
        obtain ⟨rfl, rfl⟩ := List.cons.inj heq
        exact Or.inr ⟨front, blanks, back, c, rfl, hfold, hne, hblanks⟩
  · rintro (⟨hd, c, hheld, hhead⟩ | ⟨front, blanks, back, c, rfl, hfold, hb⟩)
    · obtain ⟨back, hback⟩ := List.head?_eq_some_iff.mp hhead
      refine ⟨[], d :: s.takeWhile isBlank, back, c, ?_, hheld, by simp, ?_⟩
      · rw [← hback, List.nil_append, List.cons_append,
          List.takeWhile_append_dropWhile]
      · rw [AreBlank, List.forall_mem_cons]
        exact ⟨hd, areBlank_takeWhile s⟩
    · exact ⟨d :: front, blanks, back, c, rfl, hfold, hb⟩

theorem fusesFrom_blank (h : Waits held glued) (hd : isBlank d = true) :
    FusesFrom held (d :: s) ↔ Meets held s ∨ FusesFrom none s := by
  rw [fusesFrom_cons h, hold_of_isBlank h hd, hd]
  simp

theorem fusesFrom_of_not_blank (h : Waits held glued)
    (hd : isBlank d = false) :
    FusesFrom held (d :: s) ↔ FusesFrom (hold held d) s := by
  rw [fusesFrom_cons h, hd]
  simp

theorem not_meets_none : ¬ Meets none s := by
  rintro ⟨c, hnone, -⟩
  exact absurd hnone (by simp)

theorem meets_of_not_blank (hd : isBlank d = false) :
    Meets held (d :: s) ↔ held = some d := by
  rw [Meets, List.dropWhile_cons_of_neg (by simp [hd])]
  simp

theorem not_fusesFrom_nil : ¬ FusesFrom held [] := by
  rintro ⟨front, blanks, back, c, heq, -⟩
  simp at heq

end Steps

/-! ## Operators of compressed text -/

/-- A sign in front of an open run of blanks is an operator of its own unless
its double comes next. -/
theorem operatorsFrom_pending {held : Option Char} {glued : Bool}
    (h : Waits held glued) {d : Char} (hd : isBlank d = false) (s : Text) :
    operatorsFrom held (tighten glued true (d :: s)) =
      emit held d ++
        operatorsFrom (hold held d) (tighten (isPunctuation d) false s) := by
  cases held with
  | some c =>
      rw [tighten_of_not_blank hd, (h c rfl).2]
      rfl
  | none =>
      rw [tighten_of_not_blank hd]
      split
      · rw [List.singleton_append,
          operatorsFrom_blank (waits_none glued) isBlank_space]
        rfl
      · rfl

/-- Compressing the rest of a text keeps its operators exactly if no signs come
together in it. With a run of blanks open, the sign in front of the run may also
meet its double. -/
theorem operatorsFrom_tighten_iff (s : Text) {held : Option Char}
    {glued : Bool} (h : Waits held glued) :
    (operatorsFrom held (tighten glued false s) = operatorsFrom held s ↔
      ¬ FusesFrom held s) ∧
    (operatorsFrom held (tighten glued true s) =
      release held ++ operatorsFrom none s ↔
      ¬ (Meets held s ∨ FusesFrom none s)) := by
  induction s generalizing held glued with
  | nil =>
      refine ⟨iff_of_true rfl not_fusesFrom_nil, iff_of_true ?_ ?_⟩
      · cases held with
        | some c =>
            rw [(h c rfl).2]
            rfl
        | none => cases glued <;> decide
      · rintro (⟨c, -, hhead⟩ | hfuses)
        · simp at hhead
        · exact not_fusesFrom_nil hfuses
  | cons d s ih =>
      have hnone : Waits none glued := waits_none glued
      cases hd : isBlank d with
      | true =>
          have hmeets : Meets held (d :: s) ↔ Meets held s := by
            rw [Meets, Meets, List.dropWhile_cons_of_pos hd]
          rw [tighten_blank hd, tighten_blank hd, operatorsFrom_blank h hd,
            operatorsFrom_blank hnone hd, fusesFrom_blank h hd,
            fusesFrom_blank hnone hd, hmeets, or_iff_right not_meets_none]
          exact ⟨(ih h).2, (ih h).2⟩
      | false =>
          have hrest := (ih (waits_hold held d)).1
          constructor
          · rw [tighten_of_not_blank hd, fusesFrom_of_not_blank h hd, ← hrest]
            exact List.append_right_inj (emit held d)
          · rw [operatorsFrom_pending h hd, fusesFrom_of_not_blank hnone hd,
              meets_of_not_blank hd]
            by_cases hheld : held = some d
            · refine iff_of_false ?_ (fun hno => hno (Or.inl hheld))
              rw [emit, if_pos hheld, hheld]
              simp [release]
            · have hhold : hold none d = hold held d := by
                rw [hold, hold, if_neg hheld, if_neg (by simp)]
              rw [or_iff_right hheld, hhold, ← hrest, operatorsFrom, hhold,
                emit, if_neg hheld]
              exact List.append_right_inj (release held)

/-- An odd number of equal signs, then blanks, then the same sign again. -/
def HasLooseSigns (s : Text) : Prop :=
  ∃ front blanks back c, s = front ++ (blanks ++ c :: back) ∧
    isSign c = true ∧ Odd (front.rtakeWhile (· == c)).length ∧
    blanks ≠ [] ∧ AreBlank blanks

theorem fusesFrom_none_iff {s : Text} :
    FusesFrom none s ↔ HasLooseSigns s := by
  simp only [FusesFrom, HasLooseSigns, foldl_hold_eq_some_iff, and_assoc]

/-- **Compressing keeps the operators unless it fuses two of them.** The
operators of the compressed text are those of the text exactly if no sign that
is left over has blanks and the same sign behind it. -/
theorem operators_compress_iff (s : Text) :
    operators (compress s) = operators s ↔ ¬ HasLooseSigns s := by
  rw [compress_eq_tighten, (operators_eq _).1, (operators_eq _).1,
    (operatorsFrom_tighten_iff s (waits_none false)).1, fusesFrom_none_iff]

/-- Adding a positive number becomes an increment. -/
theorem operators_compress_plusPlus :
    operators "a + +b".toList = ["+".toList, "+".toList] ∧
    compress "a + +b".toList = "a++b".toList ∧
    operators (compress "a + +b".toList) = ["++".toList] := by
  decide +kernel

end ScriptMinifier.Spacing
