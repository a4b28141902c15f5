import ScriptMinifier.Script.Tokens
import ScriptMinifier.Text.Encoded

/-!
# Taking an encoded script apart

The pass of `tokenize` over the bytes of a script. It keeps offsets where
`tokenize` keeps text, goes on byte by byte through code, and cuts text out of
the script only when it meets a delimiter. All delimiters are single bytes. A
cut inside of a character is an error, and so is the whole pass then.

`Lexer.step` moves on in every case, which is why the pass ends.
-/

namespace ScriptMinifier.Script

/-- The stretches of a script whose ends are searched for. -/
inductive Stretch where
  | string (quote : UInt8)
  | template
  | lineComment
  | blockComment
  | regex
  deriving Repr, DecidableEq

def Stretch.opener : Stretch → UInt8
  | .string quote => quote
  | .template => '`'.toUInt8
  | .lineComment | .blockComment | .regex => '/'.toUInt8

/-! ## Ends -/

section

variable (src : Encoded)

/-- The end of a literal in quotes, searched for from the offset `j` on. A
backslash takes the next byte along. Where `inLine` is set, a line feed ends the
literal in front of it. -/
def quotedEnd (quote : UInt8) (inLine : Bool) (j : Nat) : Nat :=
  if h : j < src.size then
    if src.bytes[j] = '\\'.toUInt8 then quotedEnd quote inLine (j + 2)
    else if inLine = true ∧ src.bytes[j] = '\n'.toUInt8 then j
    else if src.bytes[j] = quote then j + 1
    else quotedEnd quote inLine (j + 1)
  else src.size
termination_by src.size - j

def isLineBreakByte (b : UInt8) : Bool := b == '\n'.toUInt8 || b == '\r'.toUInt8

def isFlagByte (b : UInt8) : Bool := isFlagChar (Char.ofUInt8 b)

def flagsEnd (j : Nat) : Nat :=
  if h : j < src.size then
    if isFlagByte src.bytes[j] then flagsEnd (j + 1) else j
  else j
termination_by src.size - j

def regexEnd? (inClass : Bool) (j : Nat) : Option Nat :=
  if h : j < src.size then
    if src.bytes[j] = '\\'.toUInt8 then
      if src.bytes[j + 1]?.all isLineBreakByte then none
      else regexEnd? inClass (j + 2)
    else if isLineBreakByte src.bytes[j] then none
    else if src.bytes[j] = '['.toUInt8 then regexEnd? true (j + 1)
    else if src.bytes[j] = ']'.toUInt8 then regexEnd? false (j + 1)
    else if src.bytes[j] = '/'.toUInt8 ∧ inClass = false then
      some (flagsEnd src (j + 1))
    else regexEnd? inClass (j + 1)
  else none
termination_by src.size - j

def stretchAt? (pos : Nat) : Option Stretch :=
  src.bytes[pos]?.bind fun b =>
    if b = '\''.toUInt8 ∨ b = '"'.toUInt8 then some (.string b)
    else if b = '`'.toUInt8 then some .template
    else if b = '/'.toUInt8 then
      if src.bytes[pos + 1]? = some '/'.toUInt8 then some .lineComment
      else if src.bytes[pos + 1]? = some '*'.toUInt8 then some .blockComment
      else some .regex
    else none

/-- The end of the stretch that opens at `pos`, if it has one. -/
def scan (pos : Nat) : Stretch → Except BadCut (Option Nat)
  | .string quote => .ok (some (quotedEnd src quote true (pos + 1)))
  | .template => .ok (some (quotedEnd src '`'.toUInt8 false (pos + 1)))
  | .lineComment => do
      let rest ← src.cut pos src.size
      return some (match rest.offset? ['\n'] with
        | some n => pos + n
        | none => src.size)
  | .blockComment => do
      let rest ← src.cut (pos + 2) src.size
      return (rest.offset? ['*', '/']).map (pos + 2 + · + 2)
  | .regex => .ok (regexEnd? src false (pos + 1))

variable {src} {pos stop : Nat}

theorem le_quotedEnd (quote : UInt8) (inLine : Bool) (j : Nat) :
    min j src.size ≤ quotedEnd src quote inLine j := by
  fun_induction quotedEnd src quote inLine j <;> omega

theorem le_flagsEnd (j : Nat) : j ≤ flagsEnd src j := by
  fun_induction flagsEnd src j <;> omega

theorem lt_of_regexEnd? {inClass : Bool} {j : Nat}
    (h : regexEnd? src inClass j = some stop) : j < stop := by
  fun_induction regexEnd? src inClass j <;> grind [le_flagsEnd]

theorem getElem?_of_stretchAt? {stretch : Stretch}
    (h : stretchAt? src pos = some stretch) :
    src.bytes[pos]? = some stretch.opener := by
  obtain ⟨b, hb, h⟩ := Option.bind_eq_some_iff.mp h
  rw [hb]
  grind [Stretch.opener]

/-- The line feed that ends a line comment is not where the comment begins. -/
theorem lt_of_scan_lineComment (hslash : src.bytes[pos]? = some '/'.toUInt8)
    (h : scan src pos .lineComment = .ok (some stop)) : pos < stop := by
  have hsize : pos < src.size := (Array.getElem?_eq_some_iff.mp hslash).1
  obtain ⟨rest, hcut, h⟩ := bind_eq_ok_iff.mp h
  obtain ⟨front, back, htext, rfl, hstop⟩ := Encoded.cut_eq_ok_iff.mp hcut
  obtain ⟨c, rest, rfl⟩ : ∃ c cs, rest = c :: cs := by
    cases rest with
    | nil => rw [Text.byteSize_nil] at hstop; omega
    | cons c cs => exact ⟨c, cs, rfl⟩
  have hc : c ≠ '\n' := by
    rintro rfl
    rw [← Nat.add_zero (Text.byteSize front),
      Encoded.getElem?_bytes htext (by decide)] at hslash
    exact absurd hslash (by decide)
  cases h
  split
  · next n hn =>
      have hstarts : ['\n'].isPrefixOf (c :: rest) = false := by
        simp [List.isPrefixOf, hc.symm]
      rw [Text.offset?, hstarts, if_neg Bool.false_ne_true] at hn
      obtain ⟨m, -, rfl⟩ := Option.map_eq_some_iff.mp hn
      have hpos := c.utf8Size_pos
      omega
  · exact hsize

/-- A stretch does not end where it begins. -/
theorem lt_of_scan {stretch : Stretch} {stop? : Option Nat}
    (hat : stretchAt? src pos = some stretch)
    (h : scan src pos stretch = .ok stop?) : pos < stop?.getD src.size := by
  have hopener := getElem?_of_stretchAt? hat
  have hsize : pos < src.size := (Array.getElem?_eq_some_iff.mp hopener).1
  cases stop? with
  | none => exact hsize
  | some stop =>
      rw [Option.getD_some]
      cases stretch with
      | string quote =>
          cases h
          have hle : min (pos + 1) src.size ≤
              quotedEnd src quote true (pos + 1) := le_quotedEnd ..
          omega
      | template =>
          cases h
          have hle : min (pos + 1) src.size ≤
              quotedEnd src '`'.toUInt8 false (pos + 1) := le_quotedEnd ..
          omega
      | lineComment => exact lt_of_scan_lineComment hopener h
      | blockComment =>
          obtain ⟨rest, -, h⟩ := bind_eq_ok_iff.mp h
          obtain ⟨n, -, rfl⟩ := Option.map_eq_some_iff.mp (Except.ok.inj h)
          omega
      | regex => exact Nat.lt_of_succ_lt (lt_of_regexEnd? (Except.ok.inj h))

end

/-! ## The pass -/

/-- The pass at the offset `pos`. The code from `codeStart` on is not in `out`
yet. From the offset `unclosedFrom` a search for `*/` has failed. -/
structure Lexer where
  pos : Nat := 0
  codeStart : Nat := 0
  unclosedFrom : Option Nat := none
  out : Tokens := {}
  deriving Repr, DecidableEq, Inhabited

namespace Lexer

def advance (lexer : Lexer) (n : Nat) : Lexer :=
  { lexer with pos := lexer.pos + n }

def flush (lexer : Lexer) (src : Encoded) : Except BadCut Lexer := do
  let code ← src.cut lexer.codeStart lexer.pos
  return { lexer with
    codeStart := lexer.pos
    out := { lexer.out with code := lexer.out.code ++ code } }

def takeLiteral (lexer : Lexer) (src : Encoded) (stop : Nat) :
    Except BadCut Lexer := do
  let literal ← src.cut lexer.pos stop
  return { lexer with
    pos := stop
    codeStart := stop
    out := { lexer.out with
      code := lexer.out.code ++ placeholder lexer.out.literals.size
      literals := lexer.out.literals.push literal } }

def dropComment (lexer : Lexer) (src : Encoded) (stop : Nat) :
    Except BadCut Lexer := do
  let behind ← src.cut stop src.size
  let comment ← src.cut lexer.pos stop
  return { lexer with
    pos := stop
    codeStart := stop
    out := { lexer.out with
      code := lexer.out.code ++
        commentTrace comment lexer.out.code.getLast? behind.head?
      comments := lexer.out.comments + 1 } }

/-- The end of the block comment that opens here. With `remember` a search that
has failed is not made again. -/
def blockEnd (remember : Bool) (lexer : Lexer) (src : Encoded) :
    Except BadCut (Option Nat × Lexer) :=
  if remember && lexer.unclosedFrom.any (· ≤ lexer.pos) then .ok (none, lexer)
  else do
    let stop? ← scan src lexer.pos .blockComment
    return (stop?,
      if remember && stop?.isNone then
        { lexer with unclosedFrom := some lexer.pos }
      else lexer)

def regexEnd (lexer : Lexer) (src : Encoded) : Except BadCut (Option Nat) :=
  if regexAllowed lexer.out.code then scan src lexer.pos .regex else .ok none

def step (remember : Bool) (lexer : Lexer) (src : Encoded) :
    Except BadCut Lexer :=
  match stretchAt? src lexer.pos with
  | none => .ok (lexer.advance 1)
  | some .blockComment => do
      let (stop?, lexer) ← lexer.blockEnd remember src
      match stop? with
      | some stop => (← lexer.flush src).dropComment src stop
      | none => return lexer.advance 2
  | some .lineComment => do
      let lexer ← lexer.flush src
      lexer.dropComment src ((← scan src lexer.pos .lineComment).getD src.size)
  | some .regex => do
      let lexer ← lexer.flush src
      match ← lexer.regexEnd src with
      | some stop => lexer.takeLiteral src stop
      | none => return lexer.advance 1
  | some stretch => do
      let lexer ← lexer.flush src
      lexer.takeLiteral src ((← scan src lexer.pos stretch).getD src.size)

/-! ## Going on -/

variable {src : Encoded} {lexer next : Lexer}

theorem pos_flush (h : lexer.flush src = .ok next) : next.pos = lexer.pos := by
  obtain ⟨code, -, h⟩ := bind_eq_ok_iff.mp h
  cases h
  rfl

theorem pos_takeLiteral {stop : Nat}
    (h : lexer.takeLiteral src stop = .ok next) : next.pos = stop := by
  obtain ⟨literal, -, h⟩ := bind_eq_ok_iff.mp h
  cases h
  rfl

theorem pos_dropComment {stop : Nat}
    (h : lexer.dropComment src stop = .ok next) : next.pos = stop := by
  obtain ⟨behind, -, h⟩ := bind_eq_ok_iff.mp h
  obtain ⟨comment, -, h⟩ := bind_eq_ok_iff.mp h
  cases h
  rfl

theorem pos_blockEnd {remember : Bool} {stop? : Option Nat}
    (h : lexer.blockEnd remember src = .ok (stop?, next)) :
    next.pos = lexer.pos ∧
      (stop? = none ∨ scan src lexer.pos .blockComment = .ok stop?) := by
  unfold blockEnd at h
  split at h
  · cases h
    exact ⟨rfl, Or.inl rfl⟩
  · obtain ⟨found?, hscan, h⟩ := bind_eq_ok_iff.mp h
    cases h
    exact ⟨by split <;> rfl, Or.inr hscan⟩

theorem eq_some_of_regexEnd {stop : Nat}
    (h : lexer.regexEnd src = .ok (some stop)) :
    scan src lexer.pos .regex = .ok (some stop) := by
  unfold regexEnd at h
  split at h
  · exact h
  · cases h

/-- **Every turn goes on.** -/
theorem pos_lt_step {remember : Bool}
    (h : lexer.step remember src = .ok next) : lexer.pos < next.pos := by
  unfold step at h
  split at h
  · cases h
    exact Nat.lt_succ_self _
  · next hat =>
      obtain ⟨⟨stop?, searched⟩, hend, h⟩ := bind_eq_ok_iff.mp h
      obtain ⟨hpos, hscan⟩ := pos_blockEnd hend
      cases stop? with
      | none =>
          cases h
          exact hpos ▸ Nat.lt_add_of_pos_right (by decide)
      | some stop =>
          obtain ⟨flushed, -, h⟩ := bind_eq_ok_iff.mp h
          rw [pos_dropComment h]
          exact lt_of_scan hat (hscan.resolve_left (Option.some_ne_none stop))
  · next hat =>
      obtain ⟨flushed, hflushed, h⟩ := bind_eq_ok_iff.mp h
      obtain ⟨stop?, hscan, h⟩ := bind_eq_ok_iff.mp h
      rw [pos_dropComment h]
      exact lt_of_scan hat (pos_flush hflushed ▸ hscan)
  · next hat =>
      obtain ⟨flushed, hflushed, h⟩ := bind_eq_ok_iff.mp h
      obtain ⟨stop?, hend, h⟩ := bind_eq_ok_iff.mp h
      cases stop? with
      | none =>
          cases h
          exact pos_flush hflushed ▸ Nat.lt_add_of_pos_right (by decide)
      | some stop =>
          rw [pos_takeLiteral h]
          exact lt_of_scan hat (pos_flush hflushed ▸ eq_some_of_regexEnd hend)
  · next stretch hat =>
      obtain ⟨flushed, hflushed, h⟩ := bind_eq_ok_iff.mp h
      obtain ⟨stop?, hscan, h⟩ := bind_eq_ok_iff.mp h
      rw [pos_takeLiteral h]
      exact lt_of_scan hat (pos_flush hflushed ▸ hscan)

def run (remember : Bool) (lexer : Lexer) (src : Encoded) :
    Except BadCut Tokens :=
  if lexer.pos < src.size then
    match _hstep : lexer.step remember src with
    | .error bad => .error bad
    | .ok next => next.run remember src
  else do
    return (← lexer.flush src).out
termination_by src.size - lexer.pos
decreasing_by
  have := pos_lt_step _hstep
  omega

end Lexer

def tokenizeEncoded (src : Encoded) : Except BadCut Tokens :=
  Lexer.run true {} src

end ScriptMinifier.Script
