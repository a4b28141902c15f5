import ScriptMinifier.Text.Basic

/-!
# Encoded text

A text together with its UTF-8 bytes. Places in it are byte offsets, and the
part between two offsets can be cut out only if neither of them lies inside of a
character.
-/

namespace ScriptMinifier

structure Encoded where
  text : Text
  bytes : Array UInt8
  encodes : bytes.toList = text.flatMap String.utf8EncodeChar

/-- Two offsets between which there is nothing to cut out. -/
structure BadCut where
  start : Nat
  stop : Nat
  deriving Repr, DecidableEq

theorem bind_eq_ok_iff {ε α β : Type} {x : Except ε α} {f : α → Except ε β}
    {b : β} :
    x >>= f = .ok b ↔ ∃ a, x = .ok a ∧ f a = .ok b := by
  cases x <;> simp [bind, Except.bind]

theorem ok_bind {ε α β : Type} (a : α) (f : α → Except ε β) :
    (.ok a >>= f) = f a := rfl

namespace Text

/-- The text in front of a byte offset and the text behind it, unless the offset
lies inside of a character or outside of the text. -/
def splitAtByte? : Text → Nat → Option (Text × Text)
  | s, 0 => some ([], s)
  | [], _ + 1 => none
  | c :: cs, n + 1 =>
      if c.utf8Size ≤ n + 1 then
        (splitAtByte? cs (n + 1 - c.utf8Size)).map
          fun (front, back) => (c :: front, back)
      else none

def offset? : Text → Text → Option Nat
  | [], pattern => if pattern.isEmpty then some 0 else none
  | c :: cs, pattern =>
      if pattern.isPrefixOf (c :: cs) then some 0
      else (offset? cs pattern).map (· + c.utf8Size)

theorem splitAtByte?_eq_some_iff {s front back : Text} {i : Nat} :
    s.splitAtByte? i = some (front, back) ↔
      s = front ++ back ∧ byteSize front = i := by
  fun_induction splitAtByte? s i generalizing front with
  | case1 s =>
      constructor
      · rintro ⟨⟩
        exact ⟨rfl, rfl⟩
      · rintro ⟨rfl, hfront⟩
        cases front with
        | nil => rfl
        | cons c front =>
            have hpos := byteSize_pos (List.cons_ne_nil c front)
            exact absurd hfront (Nat.ne_of_gt hpos)
  | case2 n =>
      simp only [reduceCtorEq, List.nil_eq, List.append_eq_nil_iff, false_iff,
        not_and, and_imp]
      rintro rfl -
      simp
  | case3 c cs n hc ih =>
      simp only [Option.map_eq_some_iff, Prod.exists, Prod.mk.injEq]
      constructor
      · rintro ⟨front, back, hsplit, rfl, rfl⟩
        obtain ⟨rfl, hfront⟩ := ih.mp hsplit
        exact ⟨rfl, by rw [byteSize_cons]; omega⟩
      · rintro ⟨hs, hfront⟩
        cases front with
        | nil => simp at hfront
        | cons d front =>
            rw [List.cons_append, List.cons.injEq] at hs
            obtain ⟨rfl, rfl⟩ := hs
            rw [byteSize_cons] at hfront
            exact ⟨front, back, ih.mpr ⟨rfl, by omega⟩, rfl, rfl⟩
  | case4 c cs n hc =>
      simp only [reduceCtorEq, false_iff, not_and]
      intro hs hfront
      cases front with
      | nil => simp at hfront
      | cons d front =>
          rw [List.cons_append, List.cons.injEq] at hs
          rw [byteSize_cons, ← hs.1] at hfront
          omega

end Text

open Text

namespace Encoded

def ofText (text : Text) : Encoded :=
  ⟨text, (text.flatMap String.utf8EncodeChar).toArray, rfl⟩

abbrev size (src : Encoded) : Nat := src.bytes.size

/-- The text from one byte offset to another. -/
def cut (src : Encoded) (start stop : Nat) : Except BadCut Text :=
  match src.text.splitAtByte? stop with
  | none => .error ⟨start, stop⟩
  | some (front, _) =>
      match front.splitAtByte? start with
      | none => .error ⟨start, stop⟩
      | some (_, middle) => .ok middle

variable {src : Encoded}

theorem cut_eq_ok_iff {start stop : Nat} {middle : Text} :
    src.cut start stop = .ok middle ↔
      ∃ front back, src.text = front ++ (middle ++ back) ∧
        byteSize front = start ∧
        byteSize front + byteSize middle = stop := by
  unfold cut
  constructor
  · intro h
    split at h
    · cases h
    · next whole back hwhole =>
        split at h
        · cases h
        · next front middle hmiddle =>
            cases h
            obtain ⟨htext, hstop⟩ := splitAtByte?_eq_some_iff.mp hwhole
            obtain ⟨rfl, hstart⟩ := splitAtByte?_eq_some_iff.mp hmiddle
            rw [byteSize_append] at hstop
            exact ⟨front, back, by rw [htext, List.append_assoc], hstart, hstop⟩
  · rintro ⟨front, back, htext, hstart, hstop⟩
    have hwhole : src.text.splitAtByte? stop = some (front ++ middle, back) :=
      splitAtByte?_eq_some_iff.mpr
        ⟨by rw [htext, List.append_assoc], by rw [byteSize_append, hstop]⟩
    have hmiddle :
        (front ++ middle).splitAtByte? start = some (front, middle) :=
      splitAtByte?_eq_some_iff.mpr ⟨rfl, hstart⟩
    rw [hwhole]
    dsimp only
    rw [hmiddle]

theorem length_flatMap_utf8EncodeChar (s : Text) :
    (s.flatMap String.utf8EncodeChar).length = byteSize s := by
  induction s with
  | nil => rfl
  | cons c s ih =>
      rw [List.flatMap_cons, List.length_append, String.length_utf8EncodeChar,
        ih, byteSize_cons]

theorem size_eq (src : Encoded) : src.size = byteSize src.text := by
  rw [size, ← Array.length_toList, src.encodes, length_flatMap_utf8EncodeChar]

/-- The bytes of a character stand where the text in front of it ends. -/
theorem getElem?_bytes {front back : Text} {c : Char}
    (h : src.text = front ++ c :: back) {k : Nat} (hk : k < c.utf8Size) :
    src.bytes[byteSize front + k]? = (String.utf8EncodeChar c)[k]? := by
  rw [← Array.getElem?_toList, src.encodes, h, List.flatMap_append,
    List.flatMap_cons, ← length_flatMap_utf8EncodeChar,
    List.getElem?_append_right (Nat.le_add_right _ _), Nat.add_sub_cancel_left,
    List.getElem?_append_left (by rwa [String.length_utf8EncodeChar])]

end Encoded

end ScriptMinifier
