import ScriptMinifier.Text.Encoded

/-!
# Characters and their bytes

A character below 128 is its own byte, and all bytes of any other character are
at or above 128. So a byte below 128 is a character wherever it stands, and a
pass over the bytes that looks for such characters only can go through all the
others blindly: `eq_of_skips` takes it from a place inside of a character to the
end of that character.
-/

namespace ScriptMinifier

open Text

/-! ## The bytes of a character -/

theorem toNat_toUInt8 {c : Char} (hc : c.utf8Size = 1) :
    c.toUInt8.toNat = c.toNat ∧ c.toNat < 128 := by
  have hlt : c.toNat < 128 := by
    have hle := UInt32.le_iff_toNat_le.mp (Char.utf8Size_eq_one_iff.mp hc)
    exact Nat.lt_succ_of_le hle
  refine ⟨?_, hlt⟩
  rw [Char.toUInt8, UInt32.toNat_toUInt8]
  exact Nat.mod_eq_of_lt (Nat.lt_trans hlt (by decide))

theorem utf8Size_eq_one {c : Char} (hc : c.toNat < 128) : c.utf8Size = 1 :=
  Char.utf8Size_eq_one_iff.mpr
    (UInt32.le_iff_toNat_le.mpr (Nat.le_of_lt_succ hc))

theorem toUInt8_inj {c d : Char} (hc : c.utf8Size = 1) (hd : d.utf8Size = 1) :
    c.toUInt8 = d.toUInt8 ↔ c = d := by
  refine ⟨fun h => ?_, fun h => congrArg Char.toUInt8 h⟩
  apply Char.toNat_inj.mp
  rw [← (toNat_toUInt8 hc).1, ← (toNat_toUInt8 hd).1, h]

theorem ne_toUInt8 {b : UInt8} (hb : 128 ≤ b.toNat) {d : Char}
    (hd : d.utf8Size = 1) : b ≠ d.toUInt8 := by
  rintro rfl
  have hlt := toNat_toUInt8 hd
  omega

theorem le_of_mem_utf8EncodeChar {c : Char} (hc : c.utf8Size ≠ 1) {b : UInt8}
    (hb : b ∈ String.utf8EncodeChar c) : 128 ≤ b.toNat := by
  have hlt : ¬ c.val.toNat ≤ 127 := fun hle =>
    hc (Char.utf8Size_eq_one_iff.mpr (UInt32.le_iff_toNat_le.mpr hle))
  have hbyte : ∀ n, 128 ≤ n → n < 256 → 128 ≤ (UInt8.ofNat n).toNat := by
    intro n hlow hhigh
    rwa [UInt8.toNat_ofNat', Nat.mod_eq_of_lt hhigh]
  unfold String.utf8EncodeChar at hb
  simp only [hlt, if_false] at hb
  split at hb
  · simp only [List.mem_cons, List.not_mem_nil, or_false] at hb
    rcases hb with rfl | rfl <;> exact hbyte _ (by omega) (by omega)
  · split at hb
    · simp only [List.mem_cons, List.not_mem_nil, or_false] at hb
      rcases hb with rfl | rfl | rfl <;> exact hbyte _ (by omega) (by omega)
    · simp only [List.mem_cons, List.not_mem_nil, or_false] at hb
      rcases hb with rfl | rfl | rfl | rfl <;>
        exact hbyte _ (by omega) (by omega)

/-! ## Bytes in a text -/

namespace Encoded

variable {src : Encoded} {front back : Text} {c d : Char} {k : Nat}

theorem byteSize_concat (front : Text) (hc : c.utf8Size = 1) :
    byteSize (front ++ [c]) = byteSize front + 1 := by
  rw [byteSize_append, byteSize_cons, hc, byteSize_nil]

theorem getElem?_of_single (h : src.text = front ++ c :: back)
    (hc : c.utf8Size = 1) : src.bytes[byteSize front]? = some c.toUInt8 := by
  have hbyte := getElem?_bytes h (k := 0) c.utf8Size_pos
  rwa [String.utf8EncodeChar_eq_singleton hc] at hbyte

theorem exists_getElem?_of_multiple (h : src.text = front ++ c :: back)
    (hc : c.utf8Size ≠ 1) (hk : k < c.utf8Size) :
    ∃ b, src.bytes[byteSize front + k]? = some b ∧ 128 ≤ b.toNat := by
  have hlen : k < (String.utf8EncodeChar c).length := by
    rwa [String.length_utf8EncodeChar]
  rw [getElem?_bytes h hk, List.getElem?_eq_getElem hlen]
  exact ⟨_, rfl, le_of_mem_utf8EncodeChar hc (List.getElem_mem hlen)⟩

/-- Where a character begins, the byte tells whether it is a given character
below 128. -/
theorem exists_first (h : src.text = front ++ c :: back) :
    ∃ b, src.bytes[byteSize front]? = some b ∧
      ∀ d : Char, d.utf8Size = 1 → (b = d.toUInt8 ↔ c = d) := by
  by_cases hc : c.utf8Size = 1
  · exact ⟨_, getElem?_of_single h hc, fun d hd => toUInt8_inj hc hd⟩
  · obtain ⟨b, hb, hle⟩ := exists_getElem?_of_multiple h hc c.utf8Size_pos
    refine ⟨b, hb, fun d hd => ⟨fun hbd => ?_, fun hcd => ?_⟩⟩
    · exact absurd hbd (ne_toUInt8 hle hd)
    · exact absurd (hcd ▸ hd) hc

/-- The byte behind a character below 128 belongs to the next character. -/
theorem getElem?_next_iff (h : src.text = front ++ c :: back)
    (hc : c.utf8Size = 1) (hd : d.utf8Size = 1) :
    src.bytes[byteSize front + 1]? = some d.toUInt8 ↔ back.head? = some d := by
  have hsize := byteSize_concat front hc
  cases back with
  | nil =>
      have hend : src.bytes[byteSize front + 1]? = none :=
        Array.getElem?_eq_none (Nat.le_of_eq (src.size_eq.trans (h ▸ hsize)))
      simp [hend]
  | cons e back =>
      obtain ⟨b, hb, heq⟩ := exists_first
        (show src.text = (front ++ [c]) ++ e :: back by simp [h])
      rw [← hsize, hb, Option.some.injEq, heq d hd, List.head?_cons,
        Option.some.injEq]

theorem cut_suffix (h : src.text = front ++ back) :
    src.cut (byteSize front) src.size = .ok back :=
  cut_eq_ok_iff.mpr ⟨front, [], by simp [h], rfl, by simp [size_eq, h]⟩

/-- Every offset in a text lies in some character. -/
theorem exists_char_at {s : Text} {i : Nat} (hi : i < byteSize s) :
    ∃ front c back k, s = front ++ c :: back ∧ i = byteSize front + k ∧
      k < c.utf8Size := by
  induction s generalizing i with
  | nil => exact absurd hi (Nat.not_lt_zero i)
  | cons c s ih =>
      by_cases hc : i < c.utf8Size
      · exact ⟨[], c, s, i, rfl, by simp, hc⟩
      · rw [byteSize_cons] at hi
        obtain ⟨front, d, back, k, rfl, hk, hlt⟩ := @ih (i - c.utf8Size)
          (by omega)
        refine ⟨c :: front, d, back, k, rfl, ?_, hlt⟩
        rw [byteSize_cons]
        omega

/-- What depends on an offset, but not on bytes from 128 on, stays the same up
to the end of a character. -/
theorem eq_of_skips {α : Type} {f : Nat → α}
    (hf : ∀ j b, src.bytes[j]? = some b → 128 ≤ b.toNat → f j = f (j + 1))
    (h : src.text = front ++ c :: back) (hk : k ≤ c.utf8Size)
    (hinside : 0 < k ∨ c.utf8Size ≠ 1) :
    f (byteSize front + k) = f (byteSize front + c.utf8Size) := by
  obtain ⟨n, hn⟩ := Nat.exists_eq_add_of_le hk
  induction n generalizing k with
  | zero => rw [hn, Nat.add_zero]
  | succ n ih =>
      obtain ⟨b, hb, hle⟩ := exists_getElem?_of_multiple h
        (by omega) (show k < c.utf8Size by omega)
      rw [hf _ b hb hle, Nat.add_assoc]
      exact ih (by omega) (Or.inl (Nat.succ_pos k)) (by omega)

/-! ## Cuts -/

/-- A character begins at the offset, or the text ends there. -/
def IsBoundary (src : Encoded) (i : Nat) : Prop :=
  ∃ front back, src.text = front ++ back ∧ byteSize front = i

/-- The offsets are in order and in the text, and both lie on boundaries of
characters. -/
structure IsCut (src : Encoded) (start stop : Nat) : Prop where
  le : start ≤ stop
  le_size : stop ≤ src.size
  start : src.IsBoundary start
  stop : src.IsBoundary stop

/-- These are the cuts that succeed. -/
theorem isCut_iff {start stop : Nat} :
    src.IsCut start stop ↔ ∃ middle, src.cut start stop = .ok middle := by
  constructor
  · rintro ⟨hle, -, ⟨front, back, htext, rfl⟩, front', back', htext', rfl⟩
    have hfront : front <+: front' := by
      rcases List.prefix_or_prefix_of_prefix ⟨back, htext.symm⟩
        ⟨back', htext'.symm⟩ with hfront | ⟨more, rfl⟩
      · exact hfront
      · rw [byteSize_append] at hle
        cases more with
        | nil => simp
        | cons c more =>
            have hpos := byteSize_pos (List.cons_ne_nil c more)
            omega
    obtain ⟨middle, rfl⟩ := hfront
    refine ⟨middle, cut_eq_ok_iff.mpr ⟨front, back', ?_, rfl, ?_⟩⟩
    · rw [htext', List.append_assoc]
    · rw [byteSize_append]
  · rintro ⟨middle, hcut⟩
    obtain ⟨front, back, htext, rfl, rfl⟩ := cut_eq_ok_iff.mp hcut
    refine ⟨Nat.le_add_right _ _, ?_, ⟨front, _, htext, rfl⟩,
      front ++ middle, back, by simp [htext], by rw [byteSize_append]⟩
    rw [size_eq, htext, byteSize_append, byteSize_append]
    omega

end Encoded

end ScriptMinifier
