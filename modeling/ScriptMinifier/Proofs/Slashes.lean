import ScriptMinifier.Proofs.Classes
import ScriptMinifier.Proofs.Spacing
import ScriptMinifier.Script.Slash

/-!
# Slashes in compressed code

Compressing white space does not change what a slash means, with one exception.
Two equal signs with blanks between them are two operators, and an operand is
still to come; with the blanks gone they are one, and a slash behind it divides.
-/

namespace ScriptMinifier.Script

open Text Spacing

/-! ## What is in front of a slash -/

/-- The code ends in two equal signs with blanks between them. It is given with
its last character first. -/
def looseSign (recent : Text) : Bool :=
  match recent.dropWhile isBlank with
  | [] => false
  | c :: cs =>
      (c == '+' || c == '-') && cs.head?.any isBlank &&
        (cs.dropWhile isBlank).head? == some c

theorem slashOpensRegex_blank {b : Char} (hb : isBlank b = true) (r : Text) :
    slashOpensRegex (b :: r) = slashOpensRegex r := by
  unfold slashOpensRegex
  rw [List.dropWhile_cons_of_pos hb]

theorem looseSign_blank {b : Char} (hb : isBlank b = true) (r : Text) :
    looseSign (b :: r) = looseSign r := by
  unfold looseSign
  rw [List.dropWhile_cons_of_pos hb]

theorem slashOpensRegex_cons {c : Char} (hc : isBlank c = false) (r : Text) :
    slashOpensRegex (c :: r) =
      if (c = '+' ∨ c = '-') ∧ r.head? = some c then false
      else if c = ')' ∨ c = ']' then false
      else if isIdentifierChar c then
        operandKeywords.contains ((c :: r).takeWhile isIdentifierChar).reverse
      else true := by
  rw [slashOpensRegex, List.dropWhile_cons_of_neg (by simp [hc])]

theorem looseSign_cons {c : Char} (hc : isBlank c = false) (r : Text) :
    looseSign (c :: r) = ((c == '+' || c == '-') && r.head?.any isBlank &&
      (r.dropWhile isBlank).head? == some c) := by
  rw [looseSign, List.dropWhile_cons_of_neg (by simp [hc])]

/-- Whether signs are loose is seen from what is behind the last operand. -/
theorem looseSign_append (s : Text) {r : Text}
    (hr : r.head?.any (fun c => isBlank c || c == '+' || c == '-') = false) :
    looseSign (s ++ r) = looseSign s := by
  cases r with
  | nil => rw [List.append_nil]
  | cons d r =>
      obtain ⟨⟨hblank, hplus⟩, hminus⟩ :
          (isBlank d = false ∧ d ≠ '+') ∧ d ≠ '-' := by simpa using hr
      induction s with
      | nil =>
          rw [List.nil_append, looseSign_cons hblank]
          simp [hplus, hminus, looseSign]
      | cons c s ih =>
          rw [List.cons_append]
          cases hc : isBlank c with
          | true => rw [looseSign_blank hc, looseSign_blank hc, ih]
          | false =>
              rw [looseSign_cons hc, looseSign_cons hc, List.dropWhile_append,
                List.dropWhile_cons_of_neg (by simp [hblank])]
              cases s with
              | nil => simp [hblank]
              | cons e s =>
                  cases (e :: s).dropWhile isBlank with
                  | nil =>
                      by_cases hsign : c = '+' ∨ c = '-'
                      · rcases hsign with rfl | rfl
                        · simp [hplus]
                        · simp [hminus]
                      · rw [not_or] at hsign
                        simp [hsign.1, hsign.2]
                  | cons f t => simp

theorem not_isIdentifierChar_of_isPunctuation {c : Char}
    (h : isPunctuation c = true) : isIdentifierChar c = false := by
  have hall : punctuation.all (!isIdentifierChar ·) = true := by
    decide +kernel
  have hmem : c ∈ punctuation := by simpa [isPunctuation] using h
  simpa using List.all_eq_true.mp hall c hmem

theorem isPlain_of_isIdentifierChar {c : Char}
    (h : isIdentifierChar c = true) : isPlain c = true := by
  rw [isPlain_iff, Bool.eq_false_iff, Bool.eq_false_iff]
  constructor
  · intro hblank
    rw [not_isIdentifierChar_of_isBlank hblank] at h
    exact absurd h (by decide)
  · intro hpunct
    rw [not_isIdentifierChar_of_isPunctuation hpunct] at h
    exact absurd h (by decide)

/-! ## Code and compressed code side by side -/

/-- The code `r` and the compressed code `r'`, last characters first, in the
course of `tighten`: `glued` and `pending` are its state. -/
structure Sync (glued pending : Bool) (r r' : Text) : Prop where
  opens : slashOpensRegex r' = (slashOpensRegex r && !looseSign r)
  last : r'.head? = (r.dropWhile isBlank).head?
  blank : r.head?.any isBlank = pending
  run : pending = false →
    r'.takeWhile isIdentifierChar = r.takeWhile isIdentifierChar
  edge : glued = true → r'.head?.any isIdentifierChar = false

namespace Sync

variable {glued pending : Bool} {r r' : Text}

theorem start : Sync true false [] [] :=
  ⟨rfl, rfl, rfl, fun _ => rfl, fun _ => rfl⟩

theorem push_blank (h : Sync glued pending r r') {b : Char}
    (hb : isBlank b = true) : Sync glued true (b :: r) r' where
  opens := by rw [slashOpensRegex_blank hb, looseSign_blank hb, h.opens]
  last := by rw [List.dropWhile_cons_of_pos hb, h.last]
  blank := by simpa using hb
  run hpending := absurd hpending (by decide)
  edge := h.edge

/-- Before an identifier character the open run of blanks becomes a space, or
punctuation is in its place. -/
theorem takeWhile_eq (h : Sync glued pending r r') :
    ((if pending && !glued then [' '] else []) ++ r').takeWhile
      isIdentifierChar = r.takeWhile isIdentifierChar := by
  cases hpending : pending with
  | false =>
      simpa using h.run hpending
  | true =>
      have hblank := h.blank
      have hr : r.takeWhile isIdentifierChar = [] := by
        apply takeWhile_eq_nil
        cases r with
        | nil => rfl
        | cons d r =>
            rw [hpending] at hblank
            exact not_isIdentifierChar_of_isBlank (by simpa using hblank)
      rw [hr]
      apply takeWhile_eq_nil
      cases hglued : glued with
      | false => exact not_isIdentifierChar_of_isBlank isBlank_space
      | true => exact h.edge hglued

/-- A sign has its double right in front of it in the compressed code if it has
it there, perhaps behind blanks, in the code. -/
theorem opens_sign (h : Sync glued pending r r') {c : Char}
    (hc : c = '+' ∨ c = '-') : slashOpensRegex (c :: r') =
      (slashOpensRegex (c :: r) && !looseSign (c :: r)) := by
  have hblank : isBlank c = false := by rcases hc with rfl | rfl <;> decide
  have hpar : ¬ (c = ')' ∨ c = ']') := by rcases hc with rfl | rfl <;> decide
  have hident : isIdentifierChar c = false := by
    rcases hc with rfl | rfl <;> decide +kernel
  have hsign : (c == '+' || c == '-') = true := by simpa using hc
  have hopens : ∀ s : Text, slashOpensRegex (c :: s) =
      !decide (s.head? = some c) := by
    intro s
    rw [slashOpensRegex_cons hblank, if_neg hpar, hident]
    by_cases hs : s.head? = some c <;> simp [hc, hs]
  rw [hopens, hopens, h.last, looseSign_cons hblank, hsign, Bool.true_and]
  cases r with
  | nil => rfl
  | cons d r =>
      cases hd : isBlank d with
      | true =>
          have hne : d ≠ c := by
            rintro rfl
            rw [hblank] at hd
            exact absurd hd (by decide)
          simp [hd, hne, Bool.beq_eq_decide_eq]
      | false => simp [hd]

/-- Identifiers are neither cut nor joined. -/
theorem takeWhile_char (h : Sync glued pending r r') (c : Char) :
    (c :: ((if pending && !glued && !isPunctuation c then [' '] else []) ++
      r')).takeWhile isIdentifierChar =
      (c :: r).takeWhile isIdentifierChar := by
  cases hident : isIdentifierChar c with
  | false =>
      rw [List.takeWhile_cons_of_neg (by simp [hident]),
        List.takeWhile_cons_of_neg (by simp [hident])]
  | true =>
      have hpunct : isPunctuation c = false :=
        (isPlain_iff.mp (isPlain_of_isIdentifierChar hident)).2
      rw [List.takeWhile_cons_of_pos hident, List.takeWhile_cons_of_pos hident,
        hpunct, Bool.not_false, Bool.and_true, h.takeWhile_eq]

theorem opens_char (h : Sync glued pending r r') {c : Char}
    (hc : isBlank c = false) :
    slashOpensRegex (c :: ((if pending && !glued && !isPunctuation c then [' ']
      else []) ++ r')) = (slashOpensRegex (c :: r) && !looseSign (c :: r)) := by
  by_cases hsign : c = '+' ∨ c = '-'
  · have hpunct : isPunctuation c = true := by
      rcases hsign with rfl | rfl <;> decide
    rw [hpunct]
    simpa using h.opens_sign hsign
  · have hloose : looseSign (c :: r) = false := by
      rw [looseSign_cons hc]
      rw [not_or] at hsign
      simp [hsign.1, hsign.2]
    have hother : ∀ s : Text, ¬ ((c = '+' ∨ c = '-') ∧ s.head? = some c) :=
      fun s hand => hsign hand.1
    rw [hloose, Bool.not_false, Bool.and_true, slashOpensRegex_cons hc,
      slashOpensRegex_cons hc, if_neg (hother _), if_neg (hother _),
      h.takeWhile_char]

theorem push_char (h : Sync glued pending r r') {c : Char}
    (hc : isBlank c = false) :
    Sync (isPunctuation c) false (c :: r)
      (c :: ((if pending && !glued && !isPunctuation c then [' '] else []) ++
        r')) where
  opens := h.opens_char hc
  last := by rw [List.dropWhile_cons_of_neg (by simp [hc])]; rfl
  blank := by simpa using hc
  run _ := h.takeWhile_char c
  edge := not_isIdentifierChar_of_isPunctuation

theorem push_plain (h : Sync glued pending r r') {c : Char}
    (hc : isPlain c = true) : Sync false false (c :: r)
      (c :: ((if pending && !glued then [' '] else []) ++ r')) := by
  obtain ⟨hblank, hpunct⟩ := isPlain_iff.mp hc
  have hpush := h.push_char hblank
  rwa [hpunct, Bool.not_false, Bool.and_true] at hpush

theorem push_word (h : Sync false false r r') {word : Text}
    (hword : ∀ c ∈ word, isPlain c = true) :
    Sync false false (word.reverse ++ r) (word.reverse ++ r') := by
  induction word generalizing r r' with
  | nil => exact h
  | cons c word ih =>
      rw [List.forall_mem_cons] at hword
      rw [List.reverse_cons, List.append_assoc, List.append_assoc]
      exact ih (h.push_plain hword.1) hword.2

end Sync

/-- The code `r` and the compressed code `r'` at the end of a gap, where the
blanks that are still open become a space or nothing. -/
inductive Settled : Text → Text → Prop
  | mk {glued pending : Bool} {r r' : Text} (h : Sync glued pending r r') :
      Settled r ((if pending && !glued then [' '] else []) ++ r')

theorem Settled.opens {r r' : Text} (h : Settled r r') :
    slashOpensRegex r' = (slashOpensRegex r && !looseSign r) := by
  cases h with
  | mk h =>
      split
      · rw [List.singleton_append, slashOpensRegex_blank isBlank_space, h.opens]
      · exact h.opens

theorem Settled.push_word {r r' word : Text} (h : Settled r r')
    (hne : word ≠ []) (hword : ∀ c ∈ word, isPlain c = true) :
    Sync false false (word.reverse ++ r) (word.reverse ++ r') := by
  cases h with
  | mk h =>
      obtain ⟨c, word, rfl⟩ := List.exists_cons_of_ne_nil hne
      rw [List.forall_mem_cons] at hword
      rw [List.reverse_cons, List.append_assoc, List.append_assoc]
      exact (h.push_plain hword.1).push_word hword.2

end ScriptMinifier.Script
