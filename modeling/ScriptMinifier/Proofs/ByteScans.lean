import ScriptMinifier.Proofs.Classes
import ScriptMinifier.Proofs.Encoding
import ScriptMinifier.Proofs.Grammar
import ScriptMinifier.Script.Lexer

/-!
# Ends by bytes and by characters

The searches for the end of a stretch go over bytes and may stand inside of a
character, where an escape has put them. Here each of them is compared with the
length that is counted in characters: from the beginning of a character it comes
to the same place.
-/

namespace ScriptMinifier.Script

open Text Encoded

variable {src : Encoded} {front s : Text} {c : Char}

/-! ## Literals in quotes -/

section Quoted

variable {q : Char} {inLine : Bool}

/-- What ends a literal in quotes besides the quote. -/
def lineStops (inLine : Bool) : List Char := if inLine then ['\n'] else []

theorem quotedEnd_of_size_le {quote : UInt8} {j : Nat} (h : src.size ≤ j) :
    quotedEnd src quote inLine j = src.size := by
  rw [quotedEnd, dif_neg (Nat.not_lt.mpr h)]

theorem quotedEnd_of_getElem? {quote b : UInt8} {j : Nat}
    (hb : src.bytes[j]? = some b) : quotedEnd src quote inLine j =
      if b = '\\'.toUInt8 then quotedEnd src quote inLine (j + 2)
      else if inLine = true ∧ b = '\n'.toUInt8 then j
      else if b = quote then j + 1
      else quotedEnd src quote inLine (j + 1) := by
  obtain ⟨hj, rfl⟩ := Array.getElem?_eq_some_iff.mp hb
  rw [quotedEnd, dif_pos hj]

variable (hq : q.utf8Size = 1)

include hq

theorem quotedEnd_skips (j : Nat) (b : UInt8) (hb : src.bytes[j]? = some b)
    (hle : 128 ≤ b.toNat) : quotedEnd src q.toUInt8 inLine j =
      quotedEnd src q.toUInt8 inLine (j + 1) := by
  rw [quotedEnd_of_getElem? hb, if_neg (ne_toUInt8 hle (by decide)),
    if_neg (fun h => ne_toUInt8 hle (by decide) h.2),
    if_neg (ne_toUInt8 hle hq)]

theorem quotedEnd_escape {e : Char} (h : src.text = front ++ '\\' :: e :: s) :
    quotedEnd src q.toUInt8 inLine (byteSize front) =
      quotedEnd src q.toUInt8 inLine (byteSize (front ++ ['\\', e])) := by
  have hnext : src.text = (front ++ ['\\']) ++ e :: s := by simp [h]
  have hskip : quotedEnd src q.toUInt8 inLine (byteSize (front ++ ['\\']) + 1) =
      quotedEnd src q.toUInt8 inLine
        (byteSize (front ++ ['\\']) + e.utf8Size) :=
    eq_of_skips (quotedEnd_skips hq) hnext e.utf8Size_pos (Or.inl Nat.one_pos)
  rw [byteSize_append, Nat.add_assoc, Nat.add_assoc] at hskip
  rw [quotedEnd_of_getElem? (getElem?_of_single h (by decide)), if_pos rfl,
    byteSize_append]
  exact hskip

theorem quotedEnd_plain (h : src.text = front ++ c :: s) (hescape : c ≠ '\\')
    (hstop : c ∉ q :: lineStops inLine) :
    quotedEnd src q.toUInt8 inLine (byteSize front) =
      quotedEnd src q.toUInt8 inLine (byteSize (front ++ [c])) := by
  rw [List.mem_cons, not_or] at hstop
  rw [byteSize_append, byteSize_cons, byteSize_nil, Nat.add_zero]
  by_cases hc : c.utf8Size = 1
  · obtain ⟨b, hb, heq⟩ := exists_first h
    have hline : ¬ (inLine = true ∧ b = '\n'.toUInt8) := by
      rintro ⟨rfl, hb⟩
      exact hstop.2 (by simp [lineStops, (heq '\n' (by decide)).mp hb])
    rw [quotedEnd_of_getElem? hb, if_neg (mt (heq _ (by decide)).mp hescape),
      if_neg hline, if_neg (mt (heq q hq).mp hstop.1), hc]
  · exact eq_of_skips (quotedEnd_skips hq) h (Nat.zero_le _) (Or.inr hc)

theorem quotedEnd_inside {body : Text}
    (hbody : Inside (q :: lineStops inLine) body)
    (h : src.text = front ++ (body ++ s)) :
    quotedEnd src q.toUInt8 inLine (byteSize front) =
      quotedEnd src q.toUInt8 inLine (byteSize (front ++ body)) := by
  induction hbody generalizing front with
  | nil => rw [List.append_nil]
  | @escape e body _ ih =>
      have hrest := @ih (front ++ ['\\', e]) (by simp [h])
      rw [quotedEnd_escape hq h, hrest, List.append_assoc]
      rfl
  | @plain c body hescape hstop _ ih =>
      have hrest := @ih (front ++ [c]) (by simp [h])
      rw [quotedEnd_plain hq h hescape hstop, hrest, List.append_assoc]
      rfl

/-- The end of a literal in quotes, by bytes and by characters. -/
theorem quotedEnd_eq (hescape : q ≠ '\\') (hline : q ≠ '\n') {n : Nat}
    (hs : Scanned q (lineStops inLine) s n) (h : src.text = front ++ s) :
    quotedEnd src q.toUInt8 inLine (byteSize front) =
      byteSize (front ++ s.take n) := by
  cases hs with
  | @closed body rest hbody =>
      obtain ⟨b, hb, heq⟩ := exists_first
        (show src.text = (front ++ body) ++ q :: rest by simp [h])
      have hbreak : ¬ (inLine = true ∧ b = '\n'.toUInt8) :=
        fun hb => hline ((heq _ (by decide)).mp hb.2)
      rw [quotedEnd_inside hq hbody h, quotedEnd_of_getElem? hb,
        if_neg (mt (heq _ (by decide)).mp hescape), if_neg hbreak,
        if_pos ((heq q hq).mpr rfl)]
      rw [List.take_length_add_append]
      simp [hq, Nat.add_assoc]
  | @broken body rest d hbody hd =>
      obtain ⟨rfl, rfl⟩ : inLine = true ∧ d = '\n' := by
        cases inLine <;> simp_all [lineStops]
      have hbreak := getElem?_of_single
        (show src.text = (front ++ body) ++ '\n' :: rest by simp [h])
        (by decide)
      rw [quotedEnd_inside hq hbody h, quotedEnd_of_getElem? hbreak,
        if_neg (by decide), if_pos ⟨rfl, rfl⟩, List.take_left]
  | @opened body tail hbody htail =>
      have hsize : src.size = byteSize (front ++ (body ++ tail)) := by
        rw [size_eq, h]
      rw [quotedEnd_inside hq hbody h, List.take_length, ← hsize]
      rcases htail with rfl | rfl
      · exact quotedEnd_of_size_le (by simp [hsize])
      · have hlast := getElem?_of_single
          (show src.text = (front ++ body) ++ '\\' :: [] by simp [h])
          (by decide)
        rw [quotedEnd_of_getElem? hlast, if_pos rfl]
        refine quotedEnd_of_size_le ?_
        rw [hsize, ← List.append_assoc, byteSize_append]
        exact Nat.add_le_add_left (by decide) _

end Quoted

/-! ## Regular expressions -/

section Regex

theorem isFlagByte_toUInt8 (hc : c.utf8Size = 1) :
    isFlagByte c.toUInt8 = isFlagChar c := by
  have hbyte : Char.ofUInt8 c.toUInt8 = c :=
    Char.toNat_inj.mp (toNat_toUInt8 hc).1
  rw [isFlagByte, hbyte]

theorem isFlagByte_of_le {b : UInt8} (hb : 128 ≤ b.toNat) :
    isFlagByte b = false := by
  rw [Bool.eq_false_iff]
  intro h
  have hlt : b.toNat < 128 := toNat_lt_of_isFlagChar h
  omega

/-- Where a character begins, the byte tells whether it is a flag. -/
theorem exists_isFlagByte (h : src.text = front ++ c :: s) :
    ∃ b, src.bytes[byteSize front]? = some b ∧
      isFlagByte b = isFlagChar c := by
  by_cases hc : c.utf8Size = 1
  · exact ⟨_, getElem?_of_single h hc, isFlagByte_toUInt8 hc⟩
  · obtain ⟨b, hb, hle⟩ := exists_getElem?_of_multiple h hc c.utf8Size_pos
    refine ⟨b, hb, ?_⟩
    rw [isFlagByte_of_le hle, eq_comm, Bool.eq_false_iff]
    intro hflag
    exact hc (utf8Size_eq_one (toNat_lt_of_isFlagChar hflag))

theorem flagsEnd_eq (h : src.text = front ++ s) :
    flagsEnd src (byteSize front) =
      byteSize (front ++ s.takeWhile isFlagChar) := by
  induction s generalizing front with
  | nil =>
      rw [flagsEnd, dif_neg (by simp [size_eq, h]), List.takeWhile_nil,
        List.append_nil]
  | cons c s ih =>
      have hrest := @ih (front ++ [c]) (by simp [h])
      obtain ⟨b, hb, hflag⟩ := exists_isFlagByte h
      obtain ⟨hlt, rfl⟩ := Array.getElem?_eq_some_iff.mp hb
      rw [flagsEnd, dif_pos hlt, hflag]
      cases hc : isFlagChar c with
      | false => simp [hc]
      | true =>
          have hsize := utf8Size_eq_one (toNat_lt_of_isFlagChar hc)
          simp only [byteSize_append, byteSize_cons, byteSize_nil, hsize,
            Nat.add_zero] at hrest
          simp [hc, hrest, hsize, Nat.add_assoc]

theorem regexEnd?_of_getElem? {inClass : Bool} {b : UInt8} {j : Nat}
    (hb : src.bytes[j]? = some b) : regexEnd? src inClass j =
      if b = '\\'.toUInt8 then
        if src.bytes[j + 1]?.all isLineBreakByte then none
        else regexEnd? src inClass (j + 2)
      else if isLineBreakByte b then none
      else if b = '['.toUInt8 then regexEnd? src true (j + 1)
      else if b = ']'.toUInt8 then regexEnd? src false (j + 1)
      else if b = '/'.toUInt8 ∧ inClass = false then
        some (flagsEnd src (j + 1))
      else regexEnd? src inClass (j + 1) := by
  obtain ⟨hj, rfl⟩ := Array.getElem?_eq_some_iff.mp hb
  rw [regexEnd?, dif_pos hj]

theorem isLineBreakByte_eq {b : UInt8}
    (hb : ∀ d : Char, d.utf8Size = 1 → (b = d.toUInt8 ↔ c = d)) :
    isLineBreakByte b = isLineBreak c := by
  rw [isLineBreakByte, isLineBreak, Bool.eq_iff_iff, Bool.or_eq_true,
    Bool.or_eq_true, beq_iff_eq, beq_iff_eq, beq_iff_eq, beq_iff_eq,
    hb _ (by decide), hb _ (by decide)]

theorem regexEnd?_skips (inClass : Bool) (j : Nat) (b : UInt8)
    (hb : src.bytes[j]? = some b) (hle : 128 ≤ b.toNat) :
    regexEnd? src inClass j = regexEnd? src inClass (j + 1) := by
  have hne : ∀ d : Char, d.utf8Size = 1 → b ≠ d.toUInt8 :=
    fun d hd => ne_toUInt8 hle hd
  have hline : isLineBreakByte b = false := by
    simp [isLineBreakByte, hne '\n' (by decide), hne '\r' (by decide)]
  rw [regexEnd?_of_getElem? hb, if_neg (hne _ (by decide)), hline,
    if_neg Bool.false_ne_true, if_neg (hne _ (by decide)),
    if_neg (hne _ (by decide)), if_neg (fun h => hne _ (by decide) h.1)]

theorem regexEnd?_escape (inClass : Bool) {e : Char}
    (h : src.text = front ++ '\\' :: e :: s) :
    regexEnd? src inClass (byteSize front) = if isLineBreak e then none
      else regexEnd? src inClass (byteSize (front ++ ['\\', e])) := by
  have hnext : src.text = (front ++ ['\\']) ++ e :: s := by simp [h]
  obtain ⟨b, hb, heq⟩ := exists_first hnext
  have hskip : regexEnd? src inClass (byteSize (front ++ ['\\']) + 1) =
      regexEnd? src inClass (byteSize (front ++ ['\\']) + e.utf8Size) :=
    eq_of_skips (regexEnd?_skips inClass) hnext e.utf8Size_pos
      (Or.inl Nat.one_pos)
  rw [byteSize_append, Nat.add_assoc, Nat.add_assoc] at hskip
  rw [byteSize_append] at hb
  rw [regexEnd?_of_getElem? (getElem?_of_single h (by decide)), if_pos rfl]
  show (if (src.bytes[byteSize front + byteSize ['\\']]?).all _ then _ else
    regexEnd? src inClass (byteSize front + (byteSize ['\\'] + 1))) = _
  rw [hb, Option.all_some, isLineBreakByte_eq heq, hskip, byteSize_append]
  rfl

theorem regexEnd?_plain (inClass : Bool) (h : src.text = front ++ c :: s)
    (hc : c ≠ '\\') (hline : isLineBreak c = false)
    (hopen : ¬ (c = '/' ∧ inClass = false)) :
    regexEnd? src inClass (byteSize front) =
      regexEnd? src (c = '[' || inClass && c != ']')
        (byteSize (front ++ [c])) := by
  have hsame : c ≠ '[' → c ≠ ']' →
      (c = '[' || inClass && c != ']') = inClass := by
    intro hbegin hend
    rw [bne_iff_ne.mpr hend, Bool.and_true, decide_eq_false hbegin,
      Bool.false_or]
  rw [byteSize_append, byteSize_cons, byteSize_nil, Nat.add_zero]
  by_cases hsize : c.utf8Size = 1
  · obtain ⟨b, hb, heq⟩ := exists_first h
    rw [regexEnd?_of_getElem? hb, if_neg (mt (heq _ (by decide)).mp hc),
      isLineBreakByte_eq heq, hline, if_neg Bool.false_ne_true]
    simp only [heq '[' (by decide), heq ']' (by decide), heq '/' (by decide),
      if_neg hopen, hsize]
    by_cases hbegin : c = '['
    · simp [hbegin]
    · by_cases hend : c = ']'
      · simp [hend]
      · rw [if_neg hbegin, if_neg hend, hsame hbegin hend]
  · have hne : ∀ d : Char, d.utf8Size = 1 → c ≠ d :=
      fun d hd hcd => hsize (hcd ▸ hd)
    rw [hsame (hne _ (by decide)) (hne _ (by decide))]
    exact eq_of_skips (regexEnd?_skips inClass) h (Nat.zero_le _)
      (Or.inr hsize)

/-- The end of a regular expression, by bytes and by characters. -/
theorem regexEnd?_eq {inClass : Bool} (h : src.text = front ++ s) :
    regexEnd? src inClass (byteSize front) =
      (regexLength? inClass s).map fun n => byteSize (front ++ s.take n) := by
  fun_induction regexLength? inClass s generalizing front with
  | case1 inClass =>
      rw [regexEnd?, dif_neg (by simp [size_eq, h])]
      rfl
  | case2 inClass =>
      have hsize : src.size = byteSize front + 1 := by
        rw [size_eq, h, byteSize_append]
        rfl
      have hend : src.bytes[byteSize front + 1]? = none :=
        Array.getElem?_eq_none (Nat.le_of_eq hsize)
      rw [regexEnd?_of_getElem? (getElem?_of_single h (by decide)), if_pos rfl,
        hend]
      rfl
  | case3 inClass e s he =>
      rw [regexEnd?_escape inClass h, if_pos he]
      rfl
  | case4 inClass e s he ih =>
      rw [regexEnd?_escape inClass h, if_neg he, ih (by simp [h]),
        Option.map_map]
      simp [Function.comp_def]
  | case5 inClass c s hc hline =>
      obtain ⟨b, hb, heq⟩ := exists_first h
      rw [regexEnd?_of_getElem? hb, if_neg (mt (heq _ (by decide)).mp hc),
        isLineBreakByte_eq heq, hline, if_pos rfl]
      rfl
  | case6 inClass c s hc hline hclose =>
      obtain ⟨rfl, rfl⟩ := hclose
      have hflags := flagsEnd_eq
        (show src.text = (front ++ ['/']) ++ s by simp [h])
      rw [byteSize_append] at hflags
      rw [regexEnd?_of_getElem? (getElem?_of_single h (by decide)),
        if_neg (by decide), if_neg (by decide), if_neg (by decide),
        if_neg (by decide), if_pos ⟨rfl, rfl⟩]
      refine congrArg some (hflags.trans ?_)
      dsimp only
      rw [List.append_assoc, List.take_succ_cons,
        ← List.prefix_iff_eq_take.mp (List.takeWhile_prefix _)]
      rfl
  | case7 inClass c s hc hline hopen ih =>
      rw [regexEnd?_plain inClass h hc (Bool.eq_false_iff.mpr hline) hopen,
        ih (by simp [h]), Option.map_map]
      simp [Function.comp_def]

end Regex

/-! ## Comments -/

theorem offset?_lineFeed (s : Text) : s.offset? ['\n'] =
    if '\n' ∈ s then some (byteSize (s.takeWhile (· != '\n'))) else none := by
  induction s with
  | nil => rfl
  | cons c s ih =>
      rw [offset?, ih]
      by_cases hc : c = '\n'
      · simp [hc]
      · have hstarts : ['\n'].isPrefixOf (c :: s) = false := by
          simp [List.isPrefixOf, Ne.symm hc]
        simp only [hstarts, Bool.false_eq_true, if_false, List.mem_cons,
          Ne.symm hc, false_or, List.takeWhile_cons, bne_iff_ne.mpr hc, if_true,
          byteSize_cons]
        split <;> simp [Nat.add_comm]

theorem offset?_closeMark (s : Text) : (s.offset? closeMark).map (· + 2) =
    (blockCommentLength? s).map fun n => byteSize (s.take n) := by
  induction s with
  | nil => rfl
  | cons c s ih =>
      have hstarts : closeMark.isPrefixOf (c :: s) = true ↔
          c = '*' ∧ s.head? = some '/' := by
        rw [List.isPrefixOf_iff_prefix, closeMark, pair_isPrefix_iff]
        simp
      rw [offset?, blockCommentLength?]
      simp only [hstarts]
      split
      · next hclose =>
          obtain ⟨rfl, hhead⟩ := hclose
          obtain ⟨t, rfl⟩ := List.head?_eq_some_iff.mp hhead
          rfl
      · calc ((offset? s closeMark).map (· + c.utf8Size)).map (· + 2)
            = ((offset? s closeMark).map (· + 2)).map (c.utf8Size + ·) := by
              rw [Option.map_map, Option.map_map]
              congr 1
              funext n
              simp only [Function.comp_apply]
              omega
          _ = ((blockCommentLength? s).map (· + 1)).map
                fun n => byteSize ((c :: s).take n) := by
              rw [ih, Option.map_map, Option.map_map]
              rfl

theorem scan_lineComment (h : src.text = front ++ s) :
    scan src (byteSize front) .lineComment =
      .ok (some (byteSize (front ++ s.take (lineCommentLength s)))) := by
  have htake : s.take (lineCommentLength s) = s.takeWhile (· != '\n') :=
    (List.prefix_iff_eq_take.mp (List.takeWhile_prefix _)).symm
  rw [scan, cut_suffix h, htake]
  show Except.ok (some _) = _
  rw [offset?_lineFeed]
  by_cases hmem : '\n' ∈ s
  · rw [if_pos hmem, byteSize_append]
  · have hall : s.takeWhile (· != '\n') = s :=
      List.takeWhile_eq_self_iff.mpr fun c hc =>
        bne_iff_ne.mpr fun heq => hmem (heq ▸ hc)
    rw [if_neg hmem, hall, ← h, ← size_eq]

theorem scan_blockComment (h : src.text = front ++ '/' :: '*' :: s) :
    scan src (byteSize front) .blockComment =
      .ok ((blockCommentLength? s).map fun n =>
        byteSize (front ++ ('/' :: '*' :: s).take (n + 2))) := by
  have hcut : src.cut (byteSize front + 2) src.size = .ok s := by
    have hrest := cut_suffix
      (show src.text = (front ++ openMark) ++ s by simp [h, openMark])
    rwa [byteSize_append] at hrest
  rw [scan, hcut]
  show Except.ok ((s.offset? closeMark).map (byteSize front + 2 + · + 2)) = _
  have hends : (s.offset? closeMark).map (byteSize front + 2 + · + 2) =
      ((s.offset? closeMark).map (· + 2)).map (byteSize front + 2 + ·) := by
    rw [Option.map_map]
    rfl
  rw [hends, offset?_closeMark, Option.map_map]
  congr 2
  funext n
  rw [List.take_succ_cons, List.take_succ_cons, byteSize_append,
    byteSize_cons, byteSize_cons]
  show byteSize front + 2 + byteSize (s.take n) =
    byteSize front + (1 + (1 + byteSize (s.take n)))
  omega

/-! ## Literals -/

theorem scan_string {q : Char} (hq : q = '\'' ∨ q = '"')
    (h : src.text = front ++ q :: s) :
    scan src (byteSize front) (.string q.toUInt8) = .ok (some
      (byteSize (front ++ (q :: s).take (stringLength q s + 1)))) := by
  have hnext : src.text = (front ++ [q]) ++ s := by simp [h]
  have hsize : q.utf8Size = 1 := by rcases hq with rfl | rfl <;> decide
  have hescape : q ≠ '\\' := by rcases hq with rfl | rfl <;> decide
  have hline : q ≠ '\n' := by rcases hq with rfl | rfl <;> decide
  have hend : quotedEnd src q.toUInt8 true (byteSize (front ++ [q])) = _ :=
    quotedEnd_eq hsize hescape hline (scanned_stringLength q s) hnext
  rw [scan, ← byteSize_concat front hsize, hend, List.append_assoc]
  rfl

theorem scan_template (h : src.text = front ++ '`' :: s) :
    scan src (byteSize front) .template = .ok (some
      (byteSize (front ++ ('`' :: s).take (templateLength s + 1)))) := by
  have hnext : src.text = (front ++ ['`']) ++ s := by simp [h]
  have hend : quotedEnd src '`'.toUInt8 false (byteSize (front ++ ['`'])) = _ :=
    quotedEnd_eq (by decide) (by decide) (by decide)
      (scanned_templateLength s) hnext
  have hquote : '`'.utf8Size = 1 := by decide
  rw [scan, ← byteSize_concat front hquote, hend, List.append_assoc]
  rfl

theorem scan_regex (h : src.text = front ++ '/' :: s) :
    scan src (byteSize front) .regex = .ok ((regexLength? false s).map fun n =>
      byteSize (front ++ ('/' :: s).take (n + 1))) := by
  have hnext : src.text = (front ++ ['/']) ++ s := by simp [h]
  have hslash : '/'.utf8Size = 1 := by decide
  rw [scan, ← byteSize_concat front hslash, regexEnd?_eq hnext]
  simp

/-! ## Stretches -/

/-- The stretch that `c` opens in front of `s`, and its number of characters if
it has an end. -/
inductive Opens : Char → Text → Stretch → Option Nat → Prop
  | string {q : Char} {s : Text} (hq : q = '\'' ∨ q = '"') :
      Opens q s (.string q.toUInt8) (some (stringLength q s + 1))
  | template {s : Text} : Opens '`' s .template (some (templateLength s + 1))
  | line {s : Text} : Opens '/' ('/' :: s) .lineComment
      (some (lineCommentLength s + 2))
  | block {s : Text} : Opens '/' ('*' :: s) .blockComment
      ((blockCommentLength? s).map (· + 2))
  | regex {s : Text} (hs : s.head? ≠ some '/') (hs' : s.head? ≠ some '*') :
      Opens '/' s .regex ((regexLength? false s).map (· + 1))

theorem exists_opens_or_other (c : Char) (s : Text) :
    (∃ stretch length?, Opens c s stretch length?) ∨
      (c ≠ '\'' ∧ c ≠ '"') ∧ c ≠ '`' ∧ c ≠ '/' := by
  by_cases hq : c = '\'' ∨ c = '"'
  · exact Or.inl ⟨_, _, .string hq⟩
  · by_cases ht : c = '`'
    · subst ht
      exact Or.inl ⟨_, _, .template⟩
    · by_cases hslash : c = '/'
      · subst hslash
        by_cases hline : s.head? = some '/'
        · obtain ⟨t, rfl⟩ := List.head?_eq_some_iff.mp hline
          exact Or.inl ⟨_, _, .line⟩
        · by_cases hblock : s.head? = some '*'
          · obtain ⟨t, rfl⟩ := List.head?_eq_some_iff.mp hblock
            exact Or.inl ⟨_, _, .block⟩
          · exact Or.inl ⟨_, _, .regex hline hblock⟩
      · exact Or.inr ⟨not_or.mp hq, ht, hslash⟩

theorem stretchAt?_eq_none {j : Nat} {b : UInt8} (hb : src.bytes[j]? = some b)
    (hne : ∀ d ∈ ['\'', '"', '`', '/'], b ≠ d.toUInt8) :
    stretchAt? src j = none := by
  simp only [List.forall_mem_cons] at hne
  rw [stretchAt?, hb, Option.bind_some, if_neg (not_or.mpr ⟨hne.1, hne.2.1⟩),
    if_neg hne.2.2.1, if_neg hne.2.2.2.1]

section Opens

variable {stretch : Stretch} {length? : Option Nat}
  (h : src.text = front ++ c :: s)

include h

theorem stretchAt?_of_opens (hopens : Opens c s stretch length?) :
    stretchAt? src (byteSize front) = some stretch := by
  cases hopens with
  | string hq =>
      have hsize : c.utf8Size = 1 := by rcases hq with rfl | rfl <;> decide
      rw [stretchAt?, getElem?_of_single h hsize, Option.bind_some, if_pos]
      rcases hq with rfl | rfl <;> decide
  | template =>
      rw [stretchAt?, getElem?_of_single h (by decide)]
      rfl
  | line =>
      have hnext := (getElem?_next_iff h (by decide)
        (show '/'.utf8Size = 1 by decide)).mpr rfl
      rw [stretchAt?, getElem?_of_single h (by decide), hnext]
      rfl
  | block =>
      have hnext := (getElem?_next_iff h (by decide)
        (show '*'.utf8Size = 1 by decide)).mpr rfl
      rw [stretchAt?, getElem?_of_single h (by decide), hnext]
      rfl
  | regex hs hs' =>
      have hnext := mt (getElem?_next_iff h (by decide)
        (show '/'.utf8Size = 1 by decide)).mp hs
      have hnext' := mt (getElem?_next_iff h (by decide)
        (show '*'.utf8Size = 1 by decide)).mp hs'
      rw [stretchAt?, getElem?_of_single h (by decide), Option.bind_some,
        if_neg (by decide), if_neg (by decide), if_pos rfl, if_neg hnext,
        if_neg hnext']

theorem stretchAt?_of_other (hquote : c ≠ '\'' ∧ c ≠ '"')
    (htemplate : c ≠ '`') (hslash : c ≠ '/') :
    stretchAt? src (byteSize front) = none := by
  obtain ⟨b, hb, heq⟩ := exists_first h
  refine stretchAt?_eq_none hb ?_
  simp only [List.forall_mem_cons]
  exact ⟨mt (heq _ (by decide)).mp hquote.1, mt (heq _ (by decide)).mp hquote.2,
    mt (heq _ (by decide)).mp htemplate, mt (heq _ (by decide)).mp hslash,
    by simp⟩

theorem exists_opens_of_stretchAt?
    (hat : stretchAt? src (byteSize front) = some stretch) :
    ∃ length?, Opens c s stretch length? := by
  rcases exists_opens_or_other c s with ⟨found, length?, hopens⟩ | hother
  · rw [stretchAt?_of_opens h hopens, Option.some.injEq] at hat
    exact ⟨length?, hat ▸ hopens⟩
  · rw [stretchAt?_of_other h hother.1 hother.2.1 hother.2.2] at hat
    cases hat

/-- **The end of a stretch, by bytes and by characters.** -/
theorem scan_of_opens (hopens : Opens c s stretch length?) :
    scan src (byteSize front) stretch = .ok (length?.map fun n =>
      byteSize (front ++ (c :: s).take n)) := by
  cases hopens with
  | string hq => exact scan_string hq h
  | template => exact scan_template h
  | @line s =>
      have hlength : lineCommentLength ('/' :: '/' :: s) =
          lineCommentLength s + 2 := by
        simp [lineCommentLength]
      rw [scan_lineComment h, hlength]
      rfl
  | block =>
      rw [scan_blockComment h, Option.map_map]
      rfl
  | regex =>
      rw [scan_regex h, Option.map_map]
      rfl

end Opens

/-- Inside of a character nothing opens. -/
theorem stretchAt?_of_inside {k : Nat} (h : src.text = front ++ c :: s)
    (hpos : 0 < k) (hk : k < c.utf8Size) :
    stretchAt? src (byteSize front + k) = none := by
  obtain ⟨b, hb, hle⟩ := exists_getElem?_of_multiple h (by omega) hk
  have hsingle : ['\'', '"', '`', '/'].all (·.utf8Size = 1) = true := by decide
  refine stretchAt?_eq_none hb fun d hd => ne_toUInt8 hle ?_
  simpa using List.all_eq_true.mp hsingle d hd

end ScriptMinifier.Script
