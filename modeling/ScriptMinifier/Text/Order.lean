import ScriptMinifier.Text.Basic

/-!
# The order of texts

Texts are ordered by their first differing characters, which is also the order
of their UTF-8 bytes.
-/

namespace ScriptMinifier.Text

/-- Does `s` come before `t`? A text comes before those that continue it. -/
def precedes : (s t : Text) → Bool
  | _, [] => false
  | [], _ :: _ => true
  | c :: s, d :: t => c.toNat < d.toNat || c == d && precedes s t

theorem precedes_irrefl (s : Text) : precedes s s = false := by
  induction s with
  | nil => rfl
  | cons c s ih => simp [precedes, ih]

theorem precedes_trans {s t u : Text} (hst : precedes s t)
    (htu : precedes t u) : precedes s u := by
  induction s generalizing t u with
  | nil =>
      cases u with
      | nil => cases t <;> simp [precedes] at htu
      | cons => rfl
  | cons c s ih =>
      cases t with
      | nil => simp [precedes] at hst
      | cons d t =>
          cases u with
          | nil => simp [precedes] at htu
          | cons e u =>
              simp only [precedes, Bool.or_eq_true, Bool.and_eq_true,
                decide_eq_true_eq, beq_iff_eq] at hst htu ⊢
              rcases hst with hcd | ⟨rfl, hst⟩
              · rcases htu with hde | ⟨rfl, _⟩
                · exact Or.inl (Nat.lt_trans hcd hde)
                · exact Or.inl hcd
              · rcases htu with hde | ⟨rfl, htu⟩
                · exact Or.inl hde
                · exact Or.inr ⟨rfl, ih hst htu⟩

theorem precedes_of_not_precedes {s t : Text} (h : precedes s t = false)
    (hne : s ≠ t) : precedes t s := by
  induction s generalizing t with
  | nil =>
      cases t with
      | nil => exact absurd rfl hne
      | cons => simp [precedes] at h
  | cons c s ih =>
      cases t with
      | nil => rfl
      | cons d t =>
          simp only [precedes, Bool.or_eq_false_iff, decide_eq_false_iff_not,
            Bool.and_eq_false_iff, beq_eq_false_iff_ne] at h
          simp only [precedes, Bool.or_eq_true, Bool.and_eq_true,
            decide_eq_true_eq, beq_iff_eq]
          by_cases hcd : c = d
          · subst hcd
            have hst : s ≠ t := fun e => hne (by rw [e])
            exact Or.inr ⟨rfl, ih (h.2.resolve_left (fun n => n rfl)) hst⟩
          · have hne' : c.toNat ≠ d.toNat := fun e => hcd (Char.toNat_inj.1 e)
            exact Or.inl (by omega)

end ScriptMinifier.Text
