import ScriptMinifier.Proofs.Placeholder
import ScriptMinifier.Report.Size

/-!
# Numbers in groups of three digits

Commas are set from the front, by how many digits are still to come, and groups
are counted from the back. The two views meet in the length of the first group:
`splitOn_groupDigits` gives it for every number of digits, and the groups behind
it are full.
-/

namespace ScriptMinifier

/-! ## Rows of digits -/

theorem groupDigits_cons (c : Char) {digits : Text} (h : digits ≠ []) :
    groupDigits (c :: digits) =
      c :: ((if digits.length % 3 = 0 then [','] else []) ++
        groupDigits digits) := by
  rw [groupDigits]
  by_cases hthree : digits.length % 3 = 0 <;> simp [h, hthree]

/-- Only commas are added. -/
theorem filter_groupDigits {digits : Text} (h : ',' ∉ digits) :
    (groupDigits digits).filter (· != ',') = digits := by
  induction digits with
  | nil => rfl
  | cons c digits ih =>
      rw [List.mem_cons, not_or] at h
      have hc : (c != ',') = true := by simpa using Ne.symm h.1
      rw [groupDigits]
      split <;> simp [hc, ih h.2]

theorem head?_groupDigits (digits : Text) :
    (groupDigits digits).head? = digits.head? := by
  cases digits with
  | nil => rfl
  | cons c digits =>
      rw [groupDigits]
      split <;> rfl

theorem getLast?_groupDigits (digits : Text) :
    (groupDigits digits).getLast? = digits.getLast? := by
  induction digits with
  | nil => rfl
  | cons c digits ih =>
      by_cases hnil : digits = []
      · rw [hnil]
        rfl
      · obtain ⟨last, hlast⟩ :=
          Option.ne_none_iff_exists'.mp (mt List.getLast?_eq_none_iff.mp hnil)
        rw [groupDigits_cons c hnil, List.getLast?_cons, List.getLast?_append,
          ih, List.getLast?_cons, hlast]
        rfl

/-- A character other than a comma joins the first group. -/
theorem splitOn_comma_cons {c : Char} {s first : Text} {rest : List Text}
    (hc : c ≠ ',') (hs : s.splitOn ',' = first :: rest) :
    (c :: s).splitOn ',' = (c :: first) :: rest := by
  rw [List.splitOn] at hs ⊢
  rw [List.splitOnP_cons_eq_if_modifyHead, if_neg (by simpa using hc), hs]
  rfl

/-- The groups make up the digits. All but the first have three digits, and the
first has what is left, a full group if nothing is. -/
theorem splitOn_groupDigits {digits : Text} (hcomma : ',' ∉ digits)
    (hne : digits ≠ []) : ∃ first rest,
      (groupDigits digits).splitOn ',' = first :: rest ∧
      first ++ rest.flatten = digits ∧
      first.length = (digits.length - 1) % 3 + 1 ∧
      ∀ group ∈ rest, group.length = 3 := by
  induction digits with
  | nil => exact absurd rfl hne
  | cons c digits ih =>
      rw [List.mem_cons, not_or] at hcomma
      by_cases hnil : digits = []
      · subst hnil
        refine ⟨[c], [], ?_, by simp, by simp, by simp⟩
        have hone : groupDigits [c] = [c] := rfl
        rw [hone]
        exact List.splitOn_eq_singleton (by simpa using hcomma.1)
      · obtain ⟨first, rest, hsplit, hdigits, hlength, hfull⟩ :=
          ih hcomma.2 hnil
        have hpos := List.length_pos_of_ne_nil hnil
        rw [groupDigits_cons c hnil]
        by_cases hthree : digits.length % 3 = 0
        · refine ⟨[c], first :: rest, ?_, by simp [hdigits], ?_, ?_⟩
          · rw [if_pos hthree, List.cons_append, List.nil_append]
            refine splitOn_comma_cons (Ne.symm hcomma.1) ?_
            rw [← List.nil_append (',' :: _), List.splitOn_append_cons_self,
              List.splitOn_nil, hsplit]
            rfl
          · simp [hthree]
          · have hfirst : first.length = 3 := by omega
            exact List.forall_mem_cons.mpr ⟨hfirst, hfull⟩
        · refine ⟨c :: first, rest, ?_, by simp [hdigits], ?_, hfull⟩
          · rw [if_neg hthree, List.nil_append]
            exact splitOn_comma_cons (Ne.symm hcomma.1) hsplit
          · simp only [List.length_cons, Nat.add_sub_cancel]
            omega

/-! ## Numbers -/

theorem comma_not_mem_toDigits (n : Nat) : ',' ∉ Nat.toDigits 10 n :=
  fun h => absurd (isDigit_of_mem_toDigits h) (by decide)

theorem grouped_inj {m n : Nat} (h : grouped m = grouped n) : m = n := by
  have hdigits : Nat.toDigits 10 m = Nat.toDigits 10 n := by
    rw [← filter_groupDigits (comma_not_mem_toDigits m),
      ← filter_groupDigits (comma_not_mem_toDigits n)]
    exact congrArg (List.filter (· != ',')) h
  calc m = Nat.ofDigitChars 10 (Nat.toDigits 10 m) 0 :=
        Nat.ofDigitChars_ten_toDigits.symm
    _ = Nat.ofDigitChars 10 (Nat.toDigits 10 n) 0 := by rw [hdigits]
    _ = n := Nat.ofDigitChars_ten_toDigits

theorem head?_grouped_ne (n : Nat) : (grouped n).head? ≠ some ',' := by
  intro h
  rw [grouped, head?_groupDigits] at h
  exact comma_not_mem_toDigits n (List.mem_of_head? h)

theorem getLast?_grouped_ne (n : Nat) : (grouped n).getLast? ≠ some ',' := by
  intro h
  rw [grouped, getLast?_groupDigits] at h
  exact comma_not_mem_toDigits n (List.mem_of_getLast? h)

/-- **A number in groups.** Without its commas it is the number in decimal
digits. Between the commas stand groups of digits: three in each group, and one
to three in the first. So different numbers are written differently, and no
comma stands at either end. -/
theorem grouped_decimal (n : Nat) :
    (grouped n).filter (· != ',') = (toString n).toList ∧
    (∃ first rest, (grouped n).splitOn ',' = first :: rest ∧
      1 ≤ first.length ∧ first.length ≤ 3 ∧
      (∀ group ∈ rest, group.length = 3) ∧
      ∀ group ∈ first :: rest, ∀ c ∈ group, c.isDigit = true) ∧
    (∀ m, grouped m = grouped n → m = n) ∧
    (grouped n).head? ≠ some ',' ∧ (grouped n).getLast? ≠ some ',' := by
  have hcomma := comma_not_mem_toDigits n
  refine ⟨?_, ?_, fun m h => grouped_inj h, head?_grouped_ne n,
    getLast?_grouped_ne n⟩
  · rw [grouped, filter_groupDigits hcomma, Nat.toString_eq_repr,
      Nat.toList_repr]
  · obtain ⟨first, rest, hsplit, hdigits, hlength, hfull⟩ :=
      splitOn_groupDigits hcomma Nat.toDigits_ne_nil
    refine ⟨first, rest, hsplit, by omega, by omega, hfull, ?_⟩
    intro group hgroup c hc
    have hmem : c ∈ (first :: rest).flatten :=
      List.mem_flatten.mpr ⟨group, hgroup, hc⟩
    rw [List.flatten_cons, hdigits] at hmem
    exact isDigit_of_mem_toDigits hmem

end ScriptMinifier
