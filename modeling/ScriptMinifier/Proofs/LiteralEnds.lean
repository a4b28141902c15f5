import ScriptMinifier.Proofs.ByteScans

/-!
# Ends of literals

The searches for the end of a literal accept exactly the grammar of the literal,
by characters as well as by bytes. What one of them answers at an offset follows
from the text behind it.
-/

namespace ScriptMinifier.Script

open Text

/-- **The scans accept their grammars.** Behind its opening delimiter, a string
ends with the shortest text of its grammar, or else in front of the first line
feed that is not escaped, or else with the text; a template does so without the
rule for line feeds. A regular expression ends with the one text of its grammar
that takes in all flags, and there is none if no text of the grammar does. Where
a script has its bytes, the searches from the opening byte answer with the end
of that text and with nothing else. -/
theorem scans_accept_grammars (s : Text) :
    (∀ q, q = '\'' ∨ q = '"' → ∀ n,
      EndsAt (ends (Grammar.string q) (q :: s)) (breaks q ['\n'] (q :: s))
        (q :: s).length n ↔ n = stringLength q s + 1) ∧
    (∀ n, EndsAt (ends Grammar.template ('`' :: s)) ∅ ('`' :: s).length n ↔
      n = templateLength s + 1) ∧
    (∀ n, n ∈ regexEnds ('/' :: s) ↔
      (regexLength? false s).map (· + 1) = some n) ∧
    (regexEnds ('/' :: s) = ∅ ↔ regexLength? false s = none) ∧
    ∀ (src : Encoded) (front : Text),
      (∀ q, q = '\'' ∨ q = '"' → src.text = front ++ q :: s → ∀ stop?,
        scan src (byteSize front) (.string q.toUInt8) = .ok stop? ↔
        ∃ n, EndsAt (ends (Grammar.string q) (q :: s))
            (breaks q ['\n'] (q :: s)) (q :: s).length n ∧
          stop? = some (byteSize (front ++ (q :: s).take n))) ∧
      (src.text = front ++ '`' :: s → ∀ stop?,
        scan src (byteSize front) .template = .ok stop? ↔
        ∃ n, EndsAt (ends Grammar.template ('`' :: s)) ∅ ('`' :: s).length n ∧
          stop? = some (byteSize (front ++ ('`' :: s).take n))) ∧
      (src.text = front ++ '/' :: s → ∀ stop?,
        scan src (byteSize front) .regex = .ok stop? ↔
        (∃ n ∈ regexEnds ('/' :: s),
          stop? = some (byteSize (front ++ ('/' :: s).take n))) ∨
        regexEnds ('/' :: s) = ∅ ∧ stop? = none) := by
  refine ⟨fun q hq => endsAt_string_iff hq s, endsAt_template_iff s,
    fun n => mem_regexEnds_iff, regexEnds_eq_empty_iff, fun src front =>
      ⟨fun q hq h stop? => ?_, fun h stop? => ?_, fun h stop? => ?_⟩⟩
  · simp only [scan_string hq h, Except.ok.injEq, endsAt_string_iff hq,
      exists_eq_left, eq_comm]
  · simp only [scan_template h, Except.ok.injEq, endsAt_template_iff,
      exists_eq_left, eq_comm]
  · rw [scan_regex h, Except.ok.injEq, regexEnds_eq_empty_iff]
    simp only [mem_regexEnds_iff]
    cases regexLength? false s with
    | none => simp [eq_comm]
    | some n => simp [eq_comm]

/-- An escaped quote does not close a string, an escaped line feed does not
break it, and a slash in brackets does not close a regular expression. An escape
takes the whole of the next character along, however many bytes it has. -/
theorem scans_accept_grammars_escapes :
    EndsAt (ends (Grammar.string '\'') ('\'' :: "it\\'s' x".toList))
      (breaks '\'' ['\n'] ('\'' :: "it\\'s' x".toList)) 9 7 ∧
    EndsAt (ends (Grammar.string '"') ('"' :: "a\\\nb\nc".toList))
      (breaks '"' ['\n'] ('"' :: "a\\\nb\nc".toList)) 7 5 ∧
    6 ∈ regexEnds ('/' :: "[/]/g;".toList) ∧
    regexEnds ('/' :: "[/;".toList) = ∅ ∧
    scan (Encoded.ofText "é/[/\\é]/g".toList) 2 .regex = .ok (some 11) ∧
    ∃ n ∈ regexEnds ('/' :: "[/\\é]/g".toList),
      byteSize ('é' :: ('/' :: "[/\\é]/g".toList).take n) = 11 := by
  have hquote := (scans_accept_grammars "it\\'s' x".toList).1 '\'' (Or.inl rfl)
  have hfeed := (scans_accept_grammars "a\\\nb\nc".toList).1 '"' (Or.inr rfl)
  have hclass := (scans_accept_grammars "[/]/g;".toList).2.2.1
  have hopen := (scans_accept_grammars "[/;".toList).2.2.2.1
  have hbytes := ((scans_accept_grammars "[/\\é]/g".toList).2.2.2.2
    (Encoded.ofText "é/[/\\é]/g".toList) ['é']).2.2 rfl (some 11)
  have hscan : scan (Encoded.ofText "é/[/\\é]/g".toList) 2 .regex =
      .ok (some 11) := by decide +kernel
  refine ⟨(hquote 7).mpr (by decide +kernel), (hfeed 5).mpr (by decide +kernel),
    (hclass 6).mpr (by decide +kernel), hopen.mpr (by decide +kernel), hscan,
    ?_⟩
  rcases hbytes.mp hscan with ⟨n, hn, hstop⟩ | ⟨-, hnone⟩
  · exact ⟨n, hn, (Option.some.inj hstop).symm⟩
  · cases hnone

end ScriptMinifier.Script
