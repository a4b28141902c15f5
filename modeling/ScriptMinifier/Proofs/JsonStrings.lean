import Mathlib.Data.List.Basic
import ScriptMinifier.Json.Skip
import ScriptMinifier.Json.Writer

/-!
# Strings in JSON

`Spells` lists the spellings that a written string uses for a character: a
backslash with a letter, a code point in four digits, or the character itself.
Each is read as that character, so a written string is read back, and it is
passed over where nobody asks for it.
-/

namespace ScriptMinifier.Json

variable {checked : Bool} {s : Text} {c : Char}

/-- How a written string spells a character. -/
inductive Spells (c : Char) : Text → Prop
  | letter {e : Char} (he : simpleEscape? e = some c) : Spells c ['\\', e]
  | control (hc : c.toNat < 0x20) : Spells c (controlEscape c)
  | plain (hquote : c ≠ '"') (hslash : c ≠ '\\') (hc : ¬ c.toNat < 0x20) :
      Spells c [c]

theorem spells_escapeChar (c : Char) : Spells c (escapeChar c) := by
  by_cases hquote : c = '"'
  · subst hquote
    exact .letter rfl
  by_cases hslash : c = '\\'
  · subst hslash
    exact .letter rfl
  by_cases hback : c = '\x08'
  · subst hback
    exact .letter rfl
  by_cases hfeed : c = '\x0c'
  · subst hfeed
    exact .letter rfl
  by_cases hline : c = '\n'
  · subst hline
    exact .letter rfl
  by_cases hreturn : c = '\r'
  · subst hreturn
    exact .letter rfl
  by_cases htab : c = '\t'
  · subst htab
    exact .letter rfl
  rw [escapeChar, if_neg hquote, if_neg hslash, if_neg hback, if_neg hfeed,
    if_neg hline, if_neg hreturn, if_neg htab]
  by_cases hc : c.toNat < 0x20
  · rw [if_pos hc]
    exact .control hc
  · rw [if_neg hc]
    exact .plain hquote hslash hc

/-! ## One character -/

theorem stringFrom_cons {state next : StringState} {add : Option Char}
    (read : Text) (h : stringStep checked state c s = .ok (add, some next)) :
    stringFrom checked state read (c :: s) =
      stringFrom checked next (add.toList ++ read) s := by
  rw [stringFrom, h]

theorem hexValue?_digitChar {n : Nat} (h : n < 16) :
    hexValue? n.digitChar = some n := by
  have hall : ∀ n < 16, hexValue? n.digitChar = some n := by decide
  exact hall n h

/-- A control has two zeros in front of its two digits. -/
theorem controlEscape_eq (h : c.toNat < 0x20) : controlEscape c =
    ['\\', 'u', '0', '0', (c.toNat / 16).digitChar,
      (c.toNat % 16).digitChar] := by
  have hall : ∀ n < 0x20, List.replicate (4 - (Nat.toDigits 16 n).length) '0' ++
      Nat.toDigits 16 n =
        ['0', '0', (n / 16).digitChar, (n % 16).digitChar] := by
    decide
  rw [controlEscape, List.append_assoc, hall c.toNat h]
  rfl

/-- Behind `\u` a digit that is not the last one is kept. -/
theorem stringStep_hex {count value n : Nat} (hcount : count < 3) (hn : n < 16)
    (s : Text) : stringStep checked (.hex none count value) n.digitChar s =
      .ok (none, some (.hex none (count + 1) (value * 16 + n))) := by
  simp [stringStep, hexValue?_digitChar hn, hcount]

/-- The last of the digits of a control. -/
theorem stringStep_hex_last (checked : Bool) {value n : Nat} (hn : n < 16)
    (hvalue : value * 16 + n < 0x20) (s : Text) :
    stringStep checked (.hex none 3 value) n.digitChar s =
      .ok (if checked then some (Char.ofNat (value * 16 + n)) else none,
        some .plain) := by
  have hlow : isLowSurrogate (value * 16 + n) = false := by
    simp [isLowSurrogate]
    omega
  have hhigh : isHighSurrogate (value * 16 + n) = false := by
    simp [isHighSurrogate]
    omega
  cases checked <;>
    simp [stringStep, hexValue?_digitChar hn, hexComplete, hlow, hhigh,
      Except.map]

theorem stringFrom_controlEscape (checked : Bool) (read s : Text)
    (h : c.toNat < 0x20) :
    stringFrom checked .plain read (controlEscape c ++ s) =
      stringFrom checked .plain
        ((if checked then some c else none).toList ++ read) s := by
  have hchar : ((0 * 16 + 0) * 16 + c.toNat / 16) * 16 + c.toNat % 16 =
      c.toNat := by omega
  rw [controlEscape_eq h]
  show stringFrom checked .plain read ('\\' :: 'u' :: Nat.digitChar 0 ::
    Nat.digitChar 0 :: (c.toNat / 16).digitChar ::
    (c.toNat % 16).digitChar :: s) = _
  have hescape (t : Text) : stringStep checked .plain '\\' t =
      .ok (none, some .escape) := rfl
  have hcode (t : Text) : stringStep checked .escape 'u' t =
      .ok (none, some (.hex none 0 0)) := rfl
  rw [stringFrom_cons read (hescape _), stringFrom_cons _ (hcode _),
    stringFrom_cons _ (stringStep_hex (by decide) (by decide) _),
    stringFrom_cons _ (stringStep_hex (by decide) (by decide) _),
    stringFrom_cons _ (stringStep_hex (by decide) (by omega) _),
    stringFrom_cons _ (stringStep_hex_last checked (by omega) (by omega) _),
    hchar, Char.ofNat_toNat]
  rfl

/-- A spelling is read as the character, or passed over where nobody asks. -/
theorem exists_stringFrom_spelling (checked : Bool) (read s : Text) {t : Text}
    (h : Spells c t) : ∃ add : Option Char,
      stringFrom checked .plain read (t ++ s) =
        stringFrom checked .plain (add.toList ++ read) s ∧
      (checked = true → add = some c) := by
  cases h with
  | @letter e he =>
      have hu : e ≠ 'u' := by
        rintro rfl
        cases he
      have hescape : stringStep checked .plain '\\' (e :: s) =
          .ok (none, some .escape) := rfl
      have hletter : stringStep checked .escape e s =
          .ok (some c, some .plain) := by
        simp [stringStep, hu, he]
      refine ⟨some c, ?_, fun _ => rfl⟩
      exact (stringFrom_cons read hescape).trans (stringFrom_cons _ hletter)
  | control hc =>
      refine ⟨_, stringFrom_controlEscape checked read s hc, ?_⟩
      rintro rfl
      rfl
  | plain hquote hslash hc =>
      have hplain : stringStep checked .plain c s =
          .ok (some c, some .plain) := by
        simp [stringStep, hquote, hslash, hc]
      exact ⟨some c, stringFrom_cons read hplain, fun _ => rfl⟩

/-! ## Strings -/

/-- A string is read to its closing quote. -/
theorem exists_stringFrom_eq (checked : Bool) (text read rest : Text) :
    ∃ found, stringFrom checked .plain read
      (text.flatMap escapeChar ++ '"' :: rest) = .ok (found, rest) ∧
      (checked = true → found = read.reverse ++ text) := by
  induction text generalizing read with
  | nil => exact ⟨read.reverse, rfl, fun _ => (List.append_nil _).symm⟩
  | cons c text ih =>
      obtain ⟨add, hadd, hc⟩ := exists_stringFrom_spelling checked read
        (text.flatMap escapeChar ++ '"' :: rest) (spells_escapeChar c)
      obtain ⟨found, hfound, htext⟩ := ih (add.toList ++ read)
      refine ⟨found, ?_, ?_⟩
      · rw [List.flatMap_cons, List.append_assoc, hadd, hfound]
      · intro h
        rw [htext h, hc h]
        simp

theorem run_stringBody (text rest : Text) :
    stringBody.run (text.flatMap escapeChar ++ '"' :: rest) =
      .ok (text, rest) := by
  obtain ⟨found, hfound, htext⟩ := exists_stringFrom_eq true text [] rest
  rw [htext rfl] at hfound
  exact hfound

theorem run_skipString (text rest : Text) :
    skipString.run (text.flatMap escapeChar ++ '"' :: rest) =
      .ok ((), rest) := by
  obtain ⟨found, hfound, -⟩ := exists_stringFrom_eq false text [] rest
  show (stringFrom false .plain [] _).map _ = _
  rw [hfound]
  rfl

end ScriptMinifier.Json
