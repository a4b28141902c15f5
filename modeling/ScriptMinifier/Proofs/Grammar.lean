import Mathlib.Computability.Language
import ScriptMinifier.Proofs.Relexing

/-!
# The grammars of literals

The scans for the ends of literals go from character to character. Here they
meet the grammars of what they look for, written as regular languages. A string
or a template ends with the shortest text of its grammar. If there is none, a
string ends in front of the first line feed that is not escaped, and either one
ends with the text if nothing stops it before. A regular expression ends where a
text of its grammar ends and no flag follows, and there is one such place at
most.
-/

namespace ScriptMinifier.Script

open scoped Computability

/-! ## Regular languages -/

namespace Grammar

/-- One character with the property `p`. -/
def char (p : Char → Prop) : Language Char := {s | ∃ c, p c ∧ s = [c]}

/-- A backslash and a character with the property `p`. -/
def escape (p : Char → Prop) : Language Char := {s | ∃ c, p c ∧ s = ['\\', c]}

/-- Escaped characters, and characters other than `stops`. -/
def inside (stops : List Char) : Language Char :=
  (escape (fun _ => True) + char fun c => c ≠ '\\' ∧ c ∉ stops)∗

/-- Text between two quotes `q` without an open character of `stops`. -/
def quoted (q : Char) (stops : List Char) : Language Char :=
  {[q]} * inside (q :: stops) * {[q]}

def string (q : Char) : Language Char := quoted q ['\n']

def template : Language Char := quoted '`' []

/-- What stands between the brackets of a class. -/
def regexClassBody : Language Char :=
  (escape (isLineBreak · = false) +
    char fun c => c ≠ ']' ∧ c ≠ '\\' ∧ isLineBreak c = false)∗

def regexClass : Language Char := {['[']} * regexClassBody * {[']']}

def regexBody : Language Char :=
  (escape (isLineBreak · = false) + regexClass +
    char fun c => c ≠ '/' ∧ c ≠ '[' ∧ c ≠ '\\' ∧ isLineBreak c = false)∗

def regex : Language Char :=
  {['/']} * regexBody * {['/']} * (char (isFlagChar · = true))∗

/-! ## Membership -/

variable {L : Language Char} {s t : Text}

theorem append_mem_kstar (ht : t ∈ L) (hs : s ∈ L∗) : t ++ s ∈ L∗ :=
  mul_kstar_le_kstar (a := L) (Language.append_mem_mul ht hs)

/-- Texts of `L` one after the other, taken from the front. -/
theorem kstar_induction {P : Text → Prop} (hnil : P [])
    (happend : ∀ t ∈ L, ∀ s, P s → P (t ++ s)) (hs : s ∈ L∗) : P s := by
  obtain ⟨parts, rfl, hparts⟩ := hs
  induction parts with
  | nil => exact hnil
  | cons t parts ih =>
      rw [List.forall_mem_cons] at hparts
      rw [List.flatten_cons]
      exact happend t hparts.1 _ (ih hparts.2)

theorem mem_delimited_iff {a b : Char} :
    t ∈ ({[a]} * L * {[b]} : Language Char) ↔
      ∃ body ∈ L, t = a :: (body ++ [b]) := by
  constructor
  · rintro ⟨front, ⟨_, rfl, body, hbody, rfl⟩, _, rfl, rfl⟩
    exact ⟨body, hbody, by simp⟩
  · rintro ⟨body, hbody, rfl⟩
    exact ⟨a :: body, ⟨[a], rfl, body, hbody, rfl⟩, [b], rfl, by simp⟩

theorem mem_kstar_char_iff {p : Char → Prop} :
    s ∈ (char p)∗ ↔ ∀ c ∈ s, p c := by
  constructor
  · intro hs
    refine kstar_induction (P := fun s => ∀ c ∈ s, p c) (by simp) ?_ hs
    rintro _ ⟨c, hc, rfl⟩ s ih
    exact List.forall_mem_cons.mpr ⟨hc, ih⟩
  · intro hs
    induction s with
    | nil => exact Language.nil_mem_kstar _
    | cons c s ih =>
        rw [List.forall_mem_cons] at hs
        have hc : [c] ∈ char p := ⟨c, hs.1, rfl⟩
        exact append_mem_kstar hc (ih hs.2)

theorem mem_inside_iff {stops : List Char} :
    s ∈ inside stops ↔ Inside stops s := by
  constructor
  · intro hs
    refine kstar_induction .nil ?_ hs
    rintro _ (⟨c, -, rfl⟩ | ⟨c, ⟨hescape, hstop⟩, rfl⟩) s ih
    · exact .escape ih
    · exact .plain hescape hstop ih
  · intro hs
    induction hs with
    | nil => exact Language.nil_mem_kstar _
    | @escape c s _ ih =>
        exact append_mem_kstar (Or.inl ⟨c, trivial, rfl⟩) ih
    | @plain c s hescape hstop _ ih =>
        exact append_mem_kstar (Or.inr ⟨c, ⟨hescape, hstop⟩, rfl⟩) ih

end Grammar

/-! ## Where strings and templates end -/

/-- The places where a text of the grammar at the start of `s` ends. -/
def ends (grammar : Language Char) (s : Text) : Set Nat :=
  {n | ∃ t ∈ grammar, t <+: s ∧ t.length = n}

/-- The places of the characters of `stops` in a literal that `q` opens, unless
they are escaped. -/
def breaks (q : Char) (stops : List Char) (s : Text) : Set Nat :=
  {n | ∃ t ∈ ({[q]} * Grammar.inside [] : Language Char), ∃ d ∈ stops,
    t ++ [d] <+: s ∧ t.length = n}

/-- A literal ends where it is closed first; if it is not closed, at the first
break; and if there is no break either, with the text. -/
inductive EndsAt (closings breaks : Set Nat) (size : Nat) : Nat → Prop
  | closed {n : Nat} (hn : IsLeast closings n) : EndsAt closings breaks size n
  | broken {n : Nat} (hclosings : closings = ∅) (hn : IsLeast breaks n) :
      EndsAt closings breaks size n
  | opened (hclosings : closings = ∅) (hbreaks : breaks = ∅) :
      EndsAt closings breaks size size

theorem EndsAt.unique {closings breaks : Set Nat} {size m n : Nat}
    (hm : EndsAt closings breaks size m) (hn : EndsAt closings breaks size n) :
    m = n := by
  cases hm with
  | closed hm =>
      cases hn with
      | closed hn => exact hm.unique hn
      | broken hclosings => exact absurd hm.1 (by simp [hclosings])
      | opened hclosings => exact absurd hm.1 (by simp [hclosings])
  | broken hclosings hm =>
      cases hn with
      | closed hn => exact absurd hn.1 (by simp [hclosings])
      | broken _ hn => exact hm.unique hn
      | opened _ hbreaks => exact absurd hm.1 (by simp [hbreaks])
  | opened hclosings hbreaks =>
      cases hn with
      | closed hn => exact absurd hn.1 (by simp [hclosings])
      | broken _ hn => exact absurd hn.1 (by simp [hbreaks])
      | opened => rfl

theorem mem_ends_quoted_iff {q : Char} {stops : List Char} {s : Text}
    {n : Nat} : n ∈ ends (Grammar.quoted q stops) (q :: s) ↔
      ∃ body rest, Inside (q :: stops) body ∧ s = body ++ q :: rest ∧
        n = body.length + 2 := by
  constructor
  · rintro ⟨t, ht, ⟨rest, hs⟩, rfl⟩
    obtain ⟨body, hbody, rfl⟩ := Grammar.mem_delimited_iff.mp ht
    refine ⟨body, rest, Grammar.mem_inside_iff.mp hbody, ?_, by simp⟩
    simpa using hs.symm
  · rintro ⟨body, rest, hbody, rfl, rfl⟩
    refine ⟨q :: (body ++ [q]), ?_, ⟨rest, by simp⟩, by simp⟩
    exact Grammar.mem_delimited_iff.mpr
      ⟨body, Grammar.mem_inside_iff.mpr hbody, rfl⟩

theorem mem_breaks_iff {q : Char} {stops : List Char} {s : Text} {n : Nat} :
    n ∈ breaks q stops (q :: s) ↔ ∃ body d rest, Inside [] body ∧
      d ∈ stops ∧ s = body ++ d :: rest ∧ n = body.length + 1 := by
  constructor
  · rintro ⟨_, ⟨_, rfl, body, hbody, rfl⟩, d, hd, ⟨rest, hs⟩, rfl⟩
    refine ⟨body, d, rest, Grammar.mem_inside_iff.mp hbody, hd, ?_, by simp⟩
    simpa using hs.symm
  · rintro ⟨body, d, rest, hbody, hd, rfl, rfl⟩
    exact ⟨q :: body, ⟨[q], rfl, body, Grammar.mem_inside_iff.mpr hbody, rfl⟩,
      d, hd, ⟨rest, by simp⟩, by simp⟩

/-! ## The scans -/

/-- What a scan for the end of a literal can find, behind the quote `q`. -/
inductive Scanned (q : Char) (stops : List Char) : Text → Nat → Prop
  | closed {body rest : Text} (hbody : Inside (q :: stops) body) :
      Scanned q stops (body ++ q :: rest) (body.length + 1)
  | broken {body rest : Text} {d : Char} (hbody : Inside (q :: stops) body)
      (hd : d ∈ stops) : Scanned q stops (body ++ d :: rest) body.length
  | opened {body tail : Text} (hbody : Inside (q :: stops) body)
      (htail : tail = [] ∨ tail = ['\\']) :
      Scanned q stops (body ++ tail) (body ++ tail).length

/-- More text of the literal in front. -/
theorem Scanned.append {q : Char} {stops : List Char} {s : Text} {n : Nat}
    (h : Scanned q stops s n) {t : Text}
    (ht : ∀ body, Inside (q :: stops) body → Inside (q :: stops) (t ++ body)) :
    Scanned q stops (t ++ s) (n + t.length) := by
  cases h with
  | @closed body rest hbody =>
      have hclosed : Scanned q stops (t ++ body ++ q :: rest)
          ((t ++ body).length + 1) := .closed (ht body hbody)
      rw [List.append_assoc, List.length_append] at hclosed
      convert hclosed using 1
      omega
  | @broken body rest d hbody hd =>
      have hbroken : Scanned q stops (t ++ body ++ d :: rest)
          (t ++ body).length := .broken (ht body hbody) hd
      rw [List.append_assoc, List.length_append] at hbroken
      rwa [Nat.add_comm]
  | @opened body tail hbody htail =>
      have hopened : Scanned q stops (t ++ body ++ tail)
          (t ++ body ++ tail).length := .opened (ht body hbody) htail
      rw [List.append_assoc, List.length_append] at hopened
      rwa [Nat.add_comm]

theorem scanned_stringLength (q : Char) (s : Text) :
    Scanned q ['\n'] s (stringLength q s) := by
  fun_induction stringLength q s with
  | case1 => exact .opened .nil (Or.inl rfl)
  | case2 => exact .opened .nil (Or.inr rfl)
  | case3 e s ih => exact ih.append (t := ['\\', e]) fun _ => .escape
  | case4 s => exact .broken .nil (by simp)
  | case5 s => exact .closed .nil
  | case6 c s hc hline hq ih =>
      exact ih.append (t := [c]) fun _ => .plain hc (by simp [hline, hq])

theorem scanned_templateLength (s : Text) :
    Scanned '`' [] s (templateLength s) := by
  fun_induction templateLength s with
  | case1 => exact .opened .nil (Or.inl rfl)
  | case2 => exact .opened .nil (Or.inr rfl)
  | case3 e s ih => exact ih.append (t := ['\\', e]) fun _ => .escape
  | case4 s => exact .closed .nil
  | case5 c s hc hq ih =>
      exact ih.append (t := [c]) fun _ => .plain hc (by simp [hq])

/-! ## The first place is the right one -/

/-- An open character that stops a literal is not inside of it, whatever the
text in front of that character may hold. -/
theorem Inside.length_le {stops others : List Char} {body front t rest : Text}
    {d : Char} (hbody : Inside stops body) (hfront : Inside others front)
    (hd : d ∈ stops) (hescape : d ≠ '\\') (h : body ++ t = front ++ d :: rest) :
    body.length ≤ front.length := by
  induction hbody generalizing front with
  | nil => exact Nat.zero_le _
  | @escape c body _ ih =>
      cases hfront with
      | nil => exact absurd (List.cons.inj h).1.symm hescape
      | escape hfront =>
          simp only [List.cons_append, List.cons.injEq] at h
          exact Nat.add_le_add_right (ih hfront h.2.2) 2
      | plain hplain => exact absurd (List.cons.inj h).1.symm hplain
  | @plain c body hplain hstop _ ih =>
      cases hfront with
      | nil =>
          obtain rfl : c = d := (List.cons.inj h).1
          exact absurd hd hstop
      | escape => exact absurd (List.cons.inj h).1 hplain
      | plain _ _ hfront =>
          simp only [List.cons_append, List.cons.injEq] at h
          exact Nat.succ_le_succ (ih hfront h.2)

theorem Inside.mono {stops others : List Char} {s : Text}
    (h : Inside stops s) (hsub : others ⊆ stops) : Inside others s := by
  induction h with
  | nil => exact .nil
  | escape _ ih => exact .escape ih
  | plain hescape hstop _ ih =>
      exact .plain hescape (fun hmem => hstop (hsub hmem)) ih

section Scans

variable {q : Char} {stops : List Char} {s : Text} {n : Nat}
  (hescape : '\\' ∉ q :: stops) (hq : q ∉ stops)

include hescape

theorem ne_backslash {d : Char} (hd : d ∈ q :: stops) : d ≠ '\\' := by
  rintro rfl
  exact hescape hd

/-- Nothing stops a literal that runs to the end of the text. -/
theorem not_stop_of_opened {body tail : Text} (hbody : Inside (q :: stops) body)
    (htail : tail = [] ∨ tail = ['\\']) {others : List Char} {front rest : Text}
    {d : Char} (hfront : Inside others front) (hd : d ∈ q :: stops) :
    body ++ tail ≠ front ++ d :: rest := by
  intro h
  have hdne := ne_backslash hescape hd
  have hle := hbody.length_le hfront hd hdne h
  have hlen := congrArg List.length h
  rw [List.length_append, List.length_append, List.length_cons] at hlen
  rcases htail with rfl | rfl
  · rw [List.length_nil] at hlen
    omega
  · rw [List.length_singleton] at hlen
    have heq : body.length = front.length := by omega
    have hlast := (List.append_inj h heq).2
    exact hdne (List.cons.inj hlast).1.symm

include hq

/-- A literal that breaks off is closed nowhere. -/
theorem not_closed_of_broken {body rest front back : Text} {d : Char}
    (hbody : Inside (q :: stops) body) (hd : d ∈ stops)
    (hfront : Inside (q :: stops) front) :
    body ++ d :: rest ≠ front ++ q :: back := by
  intro h
  have hmem : d ∈ q :: stops := List.mem_cons_of_mem q hd
  have hle := hbody.length_le hfront List.mem_cons_self
    (ne_backslash hescape List.mem_cons_self) h
  have hge := hfront.length_le hbody hmem (ne_backslash hescape hmem) h.symm
  have htail := (List.append_inj h (Nat.le_antisymm hle hge)).2
  obtain rfl : d = q := (List.cons.inj htail).1
  exact hq hd

/-- A scan finds where the literal ends. -/
theorem Scanned.endsAt (h : Scanned q stops s n) :
    EndsAt (ends (Grammar.quoted q stops) (q :: s)) (breaks q stops (q :: s))
      (q :: s).length (n + 1) := by
  have hself : q ∈ q :: stops := List.mem_cons_self
  cases h with
  | @closed body rest hbody =>
      refine .closed ⟨mem_ends_quoted_iff.mpr ⟨body, rest, hbody, rfl, rfl⟩, ?_⟩
      intro m hm
      obtain ⟨front, back, hfront, heq, rfl⟩ := mem_ends_quoted_iff.mp hm
      have hle := hbody.length_le hfront hself (ne_backslash hescape hself) heq
      omega
  | @broken body rest d hbody hd =>
      have hmem : d ∈ q :: stops := List.mem_cons_of_mem q hd
      refine .broken ?_ ⟨mem_breaks_iff.mpr ⟨body, d, rest,
        hbody.mono (List.nil_subset _), hd, rfl, rfl⟩, ?_⟩
      · rw [Set.eq_empty_iff_forall_notMem]
        intro m hm
        obtain ⟨front, back, hfront, heq, -⟩ := mem_ends_quoted_iff.mp hm
        exact not_closed_of_broken hescape hq hbody hd hfront heq
      · intro m hm
        obtain ⟨front, e, back, hfront, he, heq, rfl⟩ := mem_breaks_iff.mp hm
        have hemem : e ∈ q :: stops := List.mem_cons_of_mem q he
        have hle :=
          hbody.length_le hfront hemem (ne_backslash hescape hemem) heq
        omega
  | @opened body tail hbody htail =>
      refine .opened ?_ ?_
      · rw [Set.eq_empty_iff_forall_notMem]
        intro m hm
        obtain ⟨front, back, hfront, heq, -⟩ := mem_ends_quoted_iff.mp hm
        exact not_stop_of_opened hescape hbody htail hfront hself heq
      · rw [Set.eq_empty_iff_forall_notMem]
        intro m hm
        obtain ⟨front, e, back, hfront, he, heq, -⟩ := mem_breaks_iff.mp hm
        exact not_stop_of_opened hescape hbody htail hfront
          (List.mem_cons_of_mem q he) heq

theorem Scanned.endsAt_iff (h : Scanned q stops s n) (m : Nat) :
    EndsAt (ends (Grammar.quoted q stops) (q :: s)) (breaks q stops (q :: s))
      (q :: s).length m ↔ m = n + 1 := by
  have hends := h.endsAt hescape hq
  constructor
  · exact fun hm => hm.unique hends
  · rintro rfl
    exact hends

end Scans

/-! ## Regular expressions -/

namespace Grammar

/-- Inside a class the text goes on to the bracket that closes it. -/
theorem mem_of_regexBody {inClass : Bool} {s : Text} (h : RegexBody inClass s) :
    (inClass = false → s ∈ regexBody) ∧
    (inClass = true → ∃ body ∈ regexClassBody, ∃ rest ∈ regexBody,
      s = body ++ ']' :: rest) := by
  induction h with
  | nil =>
      exact ⟨fun _ => Language.nil_mem_kstar _, fun h => absurd h (by decide)⟩
  | @escape inClass e s he _ ih =>
      constructor
      · intro hout
        exact append_mem_kstar (Or.inl (Or.inl ⟨e, he, rfl⟩)) (ih.1 hout)
      · intro hin
        obtain ⟨body, hbody, rest, hrest, rfl⟩ := ih.2 hin
        exact ⟨['\\', e] ++ body, append_mem_kstar (Or.inl ⟨e, he, rfl⟩) hbody,
          rest, hrest, rfl⟩
  | @plain inClass c s hc hline hopen _ ih =>
      constructor
      · intro hout
        by_cases hbracket : c = '['
        · obtain ⟨body, hbody, rest, hrest, rfl⟩ := ih.2 (by simp [hbracket])
          have hclass : '[' :: (body ++ [']']) ∈ regexClass :=
            mem_delimited_iff.mpr ⟨body, hbody, rfl⟩
          have hmem : '[' :: (body ++ [']']) ++ rest ∈ regexBody :=
            append_mem_kstar (Or.inl (Or.inr hclass)) hrest
          rwa [List.cons_append, List.append_assoc, List.singleton_append,
            ← hbracket] at hmem
        · have hslash : c ≠ '/' := fun hslash => hopen ⟨hslash, hout⟩
          exact append_mem_kstar
            (Or.inr ⟨c, ⟨hslash, hbracket, hc, hline⟩, rfl⟩)
            (ih.1 (by simp [hbracket, hout]))
      · intro hin
        by_cases hbracket : c = ']'
        · exact ⟨[], Language.nil_mem_kstar _, s,
            ih.1 (by simp [hbracket, hin]), by simp [hbracket]⟩
        · obtain ⟨body, hbody, rest, hrest, rfl⟩ :=
            ih.2 (by simp [hbracket, hin])
          exact ⟨[c] ++ body,
            append_mem_kstar (Or.inr ⟨c, ⟨hbracket, hc, hline⟩, rfl⟩) hbody,
            rest, hrest, rfl⟩

theorem regexBody_of_mem_classBody {body s : Text}
    (hbody : body ∈ regexClassBody) (hs : RegexBody false s) :
    RegexBody true (body ++ ']' :: s) := by
  refine kstar_induction (P := fun body => RegexBody true (body ++ ']' :: s))
    ?_ ?_ hbody
  · exact .plain (by decide) (by decide) (by decide) hs
  · rintro _ (⟨e, he, rfl⟩ | ⟨c, ⟨hbracket, hc, hline⟩, rfl⟩) body ih
    · exact .escape he ih
    · have hstays : (decide (c = '[') || true && c != ']') = true := by
        simp [hbracket]
      refine .plain hc hline (by simp) ?_
      rwa [hstays]

theorem regexBody_of_mem {s : Text} (hs : s ∈ regexBody) :
    RegexBody false s := by
  refine kstar_induction .nil ?_ hs
  rintro _ ((⟨e, he, rfl⟩ | hclass) |
    ⟨c, ⟨hslash, hbracket, hc, hline⟩, rfl⟩) s ih
  · exact .escape he ih
  · obtain ⟨body, hbody, rfl⟩ := mem_delimited_iff.mp hclass
    have hclass := regexBody_of_mem_classBody hbody ih
    rw [List.cons_append, List.append_assoc, List.singleton_append]
    exact .plain (by decide) (by decide) (by decide) hclass
  · exact .plain hc hline (fun h => hslash h.1) (by simpa [hbracket] using ih)

theorem mem_regex_iff {t : Text} : t ∈ regex ↔ ∃ body flags,
    RegexBody false body ∧ (∀ c ∈ flags, isFlagChar c = true) ∧
      t = '/' :: (body ++ '/' :: flags) := by
  constructor
  · rintro ⟨front, hfront, flags, hflags, rfl⟩
    obtain ⟨body, hbody, rfl⟩ := mem_delimited_iff.mp hfront
    exact ⟨body, flags, regexBody_of_mem hbody, mem_kstar_char_iff.mp hflags,
      by simp⟩
  · rintro ⟨body, flags, hbody, hflags, rfl⟩
    have hmem := (mem_of_regexBody hbody).1 rfl
    exact ⟨'/' :: (body ++ ['/']), mem_delimited_iff.mpr ⟨body, hmem, rfl⟩,
      flags, mem_kstar_char_iff.mpr hflags, by simp⟩

end Grammar

/-- The places where a text of the grammar of regular expressions at the start
of `s` ends with all of its flags. -/
def regexEnds (s : Text) : Set Nat :=
  {n | ∃ t ∈ Grammar.regex, ∃ rest, s = t ++ rest ∧
    rest.head?.any isFlagChar = false ∧ t.length = n}

theorem mem_regexEnds_iff {s : Text} {m : Nat} : m ∈ regexEnds ('/' :: s) ↔
    (regexLength? false s).map (· + 1) = some m := by
  rw [Option.map_eq_some_iff]
  constructor
  · rintro ⟨t, ht, rest, hs, hrest, rfl⟩
    obtain ⟨body, flags, hbody, hflags, rfl⟩ := Grammar.mem_regex_iff.mp ht
    obtain rfl : s = body ++ '/' :: (flags ++ rest) := by simpa using hs
    exact ⟨_, regexLength?_append hbody hflags hrest, by simp⟩
  · rintro ⟨n, hn, rfl⟩
    obtain ⟨body, flags, rest, rfl, hbody, hflags, hrest, rfl⟩ :=
      eq_of_regexLength?_eq_some hn
    exact ⟨'/' :: (body ++ '/' :: flags),
      Grammar.mem_regex_iff.mpr ⟨body, flags, hbody, hflags, rfl⟩, rest,
      by simp, hrest, by simp⟩

theorem regexEnds_eq_empty_iff {s : Text} :
    regexEnds ('/' :: s) = ∅ ↔ regexLength? false s = none := by
  rw [Set.eq_empty_iff_forall_notMem, Option.eq_none_iff_forall_ne_some]
  simp only [mem_regexEnds_iff, ne_eq, Option.map_eq_some_iff]
  constructor
  · exact fun h n hn => h (n + 1) ⟨n, hn, rfl⟩
  · rintro h m ⟨n, hn, -⟩
    exact h n hn

/-! ## Strings and templates -/

theorem endsAt_string_iff {q : Char} (hq : q = '\'' ∨ q = '"') (s : Text)
    (n : Nat) : EndsAt (ends (Grammar.string q) (q :: s))
      (breaks q ['\n'] (q :: s)) (q :: s).length n ↔
        n = stringLength q s + 1 := by
  have hescape : '\\' ∉ [q, '\n'] := by rcases hq with rfl | rfl <;> decide
  have hline : q ∉ ['\n'] := by rcases hq with rfl | rfl <;> decide
  exact (scanned_stringLength q s).endsAt_iff hescape hline n

theorem endsAt_template_iff (s : Text) (n : Nat) :
    EndsAt (ends Grammar.template ('`' :: s)) ∅ ('`' :: s).length n ↔
      n = templateLength s + 1 := by
  have hbreaks : breaks '`' [] ('`' :: s) = ∅ := by
    rw [Set.eq_empty_iff_forall_notMem]
    rintro n ⟨_, _, d, hd, -⟩
    exact absurd hd List.not_mem_nil
  have hends := (scanned_templateLength s).endsAt_iff (by decide) (by decide) n
  rwa [hbreaks] at hends

end ScriptMinifier.Script
