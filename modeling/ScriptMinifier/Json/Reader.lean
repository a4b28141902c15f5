import ScriptMinifier.Json.Error

/-!
# Reading JSON

A reader takes something off the front of a text, or fails. Readers are told
what to expect, so a text turns into a value of the program without a tree in
between.
-/

namespace ScriptMinifier.Json

abbrev Reader := StateT Text (Except Error)

def isJsonBlank (c : Char) : Bool :=
  c == ' ' || c == '\t' || c == '\n' || c == '\r'

/-- The next character that is no blank; blanks in front of it are gone. -/
def peek : Reader (Option Char) := do
  modify (List.dropWhile isJsonBlank)
  return (← get).head?

def advance : Reader Unit := modify (List.drop 1)

/-! ## Words -/

def dropWord : (word s : Text) → Except Error Text
  | [], s => .ok s
  | _ :: _, [] => .error .endInValue
  | w :: ws, c :: cs => if w = c then dropWord ws cs else .error .expectedWord

/-- Passes over `word`, whose first letter has been seen. -/
def expectWord (word : String) : Reader Unit := do
  set (← dropWord word.toList (← get))

/-! ## Strings -/

def hexValue? (c : Char) : Option Nat :=
  if c.isDigit then some (c.toNat - '0'.toNat)
  else if 'a' ≤ c ∧ c ≤ 'f' then some (c.toNat - 'a'.toNat + 10)
  else if 'A' ≤ c ∧ c ≤ 'F' then some (c.toNat - 'A'.toNat + 10)
  else none

def simpleEscape? (c : Char) : Option Char :=
  if c = '"' ∨ c = '\\' ∨ c = '/' then some c
  else if c = 'b' then some '\x08'
  else if c = 'f' then some '\x0c'
  else if c = 'n' then some '\n'
  else if c = 'r' then some '\r'
  else if c = 't' then some '\t'
  else none

def isHighSurrogate (n : Nat) : Bool := 0xd800 ≤ n && n ≤ 0xdbff

def isLowSurrogate (n : Nat) : Bool := 0xdc00 ≤ n && n ≤ 0xdfff

def pairedChar (high low : Nat) : Char :=
  Char.ofNat (0x10000 + (high - 0xd800) * 0x400 + (low - 0xdc00))

inductive StringState where
  | plain
  /-- Behind a backslash. -/
  | escape
  /-- Behind `\u` and `count` hexadecimal digits that make up `value`; `high` is
  a surrogate that waits for its other half. -/
  | hex (high : Option Nat) (count value : Nat)
  /-- Behind the first half of a surrogate pair. -/
  | pair (high : Nat)
  /-- Behind the first half of a surrogate pair and a backslash. -/
  | pairEscape (high : Nat)
  deriving Repr, DecidableEq

/-- What four hexadecimal digits lead to: a character, or the wait for the
second half of a pair. Where surrogates are not checked nothing is made of the
digits. -/
def hexComplete (checked : Bool) (high : Option Nat) (value : Nat) :
    Except Error (Option Char × StringState) :=
  if !checked then .ok (none, .plain)
  else
    match high with
    | some h =>
        if isLowSurrogate value then .ok (some (pairedChar h value), .plain)
        else .error .loneSurrogate
    | none =>
        if isLowSurrogate value then .error .loneSurrogate
        else if isHighSurrogate value then .ok (none, .pair value)
        else .ok (some (Char.ofNat value), .plain)

/-- The fault of a hexadecimal escape that goes wrong at `s`, behind `count`
good digits: the text is over if there are no four bytes for the digits. -/
def hexFault (count : Nat) (s : Text) : Error :=
  if count + Text.byteSize (s.take 4) < 4 then .endInString else .invalidEscape

/-- One character of a string: what it adds, and the state behind it. The
closing quote has no state behind it. -/
def stringStep (checked : Bool) (state : StringState) (c : Char) (cs : Text) :
    Except Error (Option Char × Option StringState) :=
  match state with
  | .plain =>
      if c = '"' then .ok (none, none)
      else if c = '\\' then .ok (none, some .escape)
      else if c.toNat < 0x20 then .error .controlCharacter
      else .ok (some c, some .plain)
  | .escape =>
      if c = 'u' then .ok (none, some (.hex none 0 0))
      else
        match simpleEscape? c with
        | some e => .ok (some e, some .plain)
        | none => .error .invalidEscape
  | .hex high count value =>
      match hexValue? c with
      | none => .error (hexFault count (c :: cs))
      | some digit =>
          let value := value * 16 + digit
          if count < 3 then .ok (none, some (.hex high (count + 1) value))
          else
            (hexComplete checked high value).map fun r => (r.1, some r.2)
  | .pair high =>
      if c = '\\' then .ok (none, some (.pairEscape high))
      else .error .unfinishedSurrogatePair
  | .pairEscape high =>
      if c = 'u' then .ok (none, some (.hex (some high) 0 0))
      else .error .unfinishedSurrogatePair

/-- Reads a string to its closing quote. What has been read is kept with its
last character first. -/
def stringFrom (checked : Bool) (state : StringState) (read : Text) :
    Text → Except Error (Text × Text)
  | [] => .error .endInString
  | c :: cs =>
      match stringStep checked state c cs with
      | .error e => .error e
      | .ok (add, none) => .ok ((add.toList ++ read).reverse, cs)
      | .ok (add, some next) => stringFrom checked next (add.toList ++ read) cs

def stringBody : Reader Text := fun s => stringFrom true .plain [] s

/-! ## Numbers -/

inductive Numeral where
  | integer (value : Int)
  | fraction (value : Float)

def Numeral.found : Numeral → Found
  | .integer value => .integer value
  | .fraction value => .fraction (.ofFloat value)

def maxSignificand : Nat := 18446744073709551615

def digitValue (c : Char) : Nat := c.toNat - '0'.toNat

/-- Appends digits to a significand as long as it stays in range; the digits
that are left over come back. -/
def appendDigits (significand : Nat) : Text → Nat × Text
  | [] => (significand, [])
  | d :: ds =>
      let next := significand * 10 + digitValue d
      if maxSignificand < next then (significand, d :: ds)
      else appendDigits next ds

def scaleFloat (x : Float) (exponent : Int) : Option Float :=
  if exponent.natAbs ≤ 308 then
    if 0 ≤ exponent then
      let y := x * Float.ofScientific 1 false exponent.natAbs
      if y.isInf then none else some y
    else some (x / Float.ofScientific 1 false exponent.natAbs)
  else if x == 0.0 then some x
  else if 0 ≤ exponent then none
  else scaleFloat (x / 1e308) (exponent + 308)
termination_by exponent.natAbs

def makeFraction (negative : Bool) (significand : Nat) (exponent : Int) :
    Except Error Numeral :=
  match scaleFloat significand.toUInt64.toFloat exponent with
  | some x => .ok (.fraction (if negative then -x else x))
  | none => .error .numberOutOfRange

/-- A number without point and exponent. Minus zero, and what does not fit a
word, are fractions. -/
def makeInteger (negative : Bool) (significand : Nat) : Numeral :=
  if !negative then .integer significand
  else if significand = 0 ∨ 9223372036854775808 < significand then
    .fraction (-significand.toUInt64.toFloat)
  else .integer (-significand)

def maxExponent : Nat := 2147483647

def exponentPart (negative : Bool) (significand : Nat) (start : Int)
    (s : Text) : Except Error (Numeral × Text) := do
  let down := s.head? = some '-'
  let unsigned := if down || s.head? = some '+' then s.drop 1 else s
  let digits := unsigned.takeWhile Char.isDigit
  let rest := unsigned.drop digits.length
  if unsigned = [] then throw .endInValue
  else if digits = [] then throw .invalidNumber
  else
    let e := Nat.ofDigitChars 10 digits 0
    if e ≤ maxExponent then
      let exponent := if down then start - e else start + e
      return (← makeFraction negative significand exponent, rest)
    else if significand ≠ 0 ∧ !down then throw .numberOutOfRange
    else return (.fraction (if negative then -0.0 else 0.0), rest)

def isExponentMark (c : Option Char) : Bool := c = some 'e' || c = some 'E'

def decimalPart (negative : Bool) (significand : Nat) (start : Int)
    (s : Text) : Except Error (Numeral × Text) := do
  let digits := s.takeWhile Char.isDigit
  let rest := s.drop digits.length
  if digits = [] then throw (if s = [] then .endInValue else .invalidNumber)
  else
    let (value, unused) := appendDigits significand digits
    let exponent := start - (digits.length - unused.length : Nat)
    if isExponentMark rest.head? then
      exponentPart negative value exponent (rest.drop 1)
    else return (← makeFraction negative value exponent, rest)

def numeralFrom (negative : Bool) (s : Text) :
    Except Error (Numeral × Text) := do
  let digits := s.takeWhile Char.isDigit
  let rest := s.drop digits.length
  if s = [] then throw .endInValue
  else if digits = [] ∨ (digits.head? = some '0' ∧ 1 < digits.length) then
    throw .invalidNumber
  else
    let (significand, unused) := appendDigits 0 digits
    if rest.head? = some '.' then
      decimalPart negative significand unused.length (rest.drop 1)
    else if isExponentMark rest.head? then
      exponentPart negative significand unused.length (rest.drop 1)
    else if unused = [] then return (makeInteger negative significand, rest)
    else return (← makeFraction negative significand unused.length, rest)

/-- Reads a number whose first character `c` has been seen. -/
def numeral (c : Char) : Reader Numeral := fun s =>
  if c = '-' then numeralFrom true (s.drop 1) else numeralFrom false s

/-! ## Values of the wrong kind -/

/-- Fails at a value that starts with `c`, where something else was expected. -/
def unexpected {α : Type} (c : Char) (expected : String) : Reader α := do
  if c = 'n' then
    expectWord "null"
    throw (.wrongType .null expected)
  else if c = 't' then
    expectWord "true"
    throw (.wrongType (.boolean true) expected)
  else if c = 'f' then
    expectWord "false"
    throw (.wrongType (.boolean false) expected)
  else if c = '-' ∨ c.isDigit then
    throw (.wrongType (← numeral c).found expected)
  else if c = '"' then
    advance
    throw (.wrongType (.string (← stringBody)) expected)
  else if c = '[' then throw (.wrongType .sequence expected)
  else if c = '\x7b' then throw (.wrongType .map expected)
  else throw .expectedValue

def valueStart : Reader Char := do
  match ← peek with
  | some c => return c
  | none => throw .endInValue

def string (expected : String) : Reader Text := do
  let c ← valueStart
  if c = '"' then
    advance
    stringBody
  else unexpected c expected

def colon : Reader Unit := do
  match ← peek with
  | some ':' => advance
  | some _ => throw .expectedColon
  | none => throw .endInObject

/-! ## Objects and lists -/

def nextKey? (first : Bool) : Reader (Option Text) := do
  match ← peek with
  | none => throw .endInObject
  | some '\x7d' => return none
  | some c =>
      if first then
        if c ≠ '"' then throw .keyNotString
      else if c ≠ ',' then throw .expectedObjectSeparator
      else
        advance
        match ← peek with
        | some '"' => pure ()
        | some '\x7d' => throw .trailingComma
        | some _ => throw .keyNotString
        | none => throw .endInValue
      advance
      return some (← stringBody)

/-- Reads the entries of an object, whose brace has been passed, up to the
closing brace. Each entry takes at least one character, so `fuel` need not
exceed the length of the text. -/
def entries {σ : Type} (entry : σ → Text → Reader σ) (first : Bool)
    (state : σ) : (fuel : Nat) → Reader σ
  | 0 => throw .endInObject
  | fuel + 1 => do
      match ← nextKey? first with
      | some key =>
          let next ← entry state key
          entries entry false next fuel
      | none =>
          advance
          return state

def object {σ : Type} (entry : σ → Text → Reader σ) (start : σ) :
    Reader σ := do
  entries entry true start ((← get).length + 1)

def nextElement (first : Bool) : Reader Bool := do
  match ← peek with
  | none => throw .endInList
  | some ']' => return false
  | some c =>
      if first then return true
      else if c ≠ ',' then throw .expectedListSeparator
      else
        advance
        match ← peek with
        | some ']' => throw .trailingComma
        | some _ => return true
        | none => throw .endInValue

/-- Passes over the bracket that closes a list of which enough has been read. -/
def closeList : Reader Unit := do
  match ← peek with
  | some ']' => advance
  | some ',' =>
      advance
      match ← peek with
      | some ']' => throw .trailingComma
      | _ => throw .trailingCharacters
  | some _ => throw .trailingCharacters
  | none => throw .endInList

/-- Reads a whole text, behind which only blanks may stand. -/
def Reader.whole {α : Type} (reader : Reader α) (s : Text) :
    Except Error α := do
  let (value, rest) ← reader.run s
  if (rest.dropWhile isJsonBlank) = [] then return value
  else throw .trailingCharacters

end ScriptMinifier.Json
