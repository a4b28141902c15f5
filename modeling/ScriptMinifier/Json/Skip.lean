import ScriptMinifier.Json.Reader

/-!
# Passing over values

Values that nobody asked for are passed over, however deep they nest. They must
be well formed, but neither the range of their numbers nor the pairing of their
surrogates is looked at.
-/

namespace ScriptMinifier.Json

/-- A list or an object that is still open. -/
inductive Frame where
  | list
  | object
  deriving Repr, DecidableEq

def Frame.closing : Frame → Char
  | .list => ']'
  | .object => '\x7d'

def Frame.atEnd : Frame → Error
  | .list => .endInList
  | .object => .endInObject

def Frame.noSeparator : Frame → Error
  | .list => .expectedListSeparator
  | .object => .expectedObjectSeparator

inductive Expected where
  | value
  /-- Behind an opening bracket. -/
  | firstEntry
  /-- Behind a value. -/
  | separator

def skipDigits (s : Text) : Except Error Text :=
  if (s.takeWhile Char.isDigit) = [] then .error .invalidNumber
  else .ok (s.dropWhile Char.isDigit)

def skipExponent (s : Text) : Except Error Text :=
  if isExponentMark s.head? then
    let rest := s.drop 1
    let signed := rest.head? = some '-' ∨ rest.head? = some '+'
    skipDigits (if signed then rest.drop 1 else rest)
  else .ok s

def skipNumeral (s : Text) : Except Error Text := do
  let digits := s.takeWhile Char.isDigit
  let rest := s.drop digits.length
  if digits = [] ∨ (digits.head? = some '0' ∧ 1 < digits.length) then
    throw .invalidNumber
  else if rest.head? = some '.' then skipExponent (← skipDigits (rest.drop 1))
  else skipExponent rest

def skipString : Reader Unit := fun s =>
  (stringFrom false .plain [] s).map fun r => ((), r.2)

def skipKey : Frame → Reader Unit
  | .list => pure ()
  | .object => do
      match ← peek with
      | some '"' => advance
      | some _ => throw .keyNotString
      | none => throw .endInObject
      skipString
      colon

/-- Passes over a value without parts, or over an opening bracket. -/
def skipStart (c : Char) : Reader (Option Frame) := do
  if c = 'n' then expectWord "null"; return none
  else if c = 't' then expectWord "true"; return none
  else if c = 'f' then expectWord "false"; return none
  else if c = '-' then set (← skipNumeral ((← get).drop 1)); return none
  else if c.isDigit then set (← skipNumeral (← get)); return none
  else if c = '"' then advance; skipString; return none
  else if c = '[' then advance; return some .list
  else if c = '\x7b' then advance; return some .object
  else throw .expectedValue

/-- Passes over the rest of a value with the given open frames, innermost first.
Of two steps at least one takes a character. -/
def skipFrom (next : Expected) (frames : List Frame) :
    (fuel : Nat) → Reader Unit
  | 0 => throw .endInValue
  | fuel + 1 => do
      match next, frames with
      | .value, _ =>
          match ← skipStart (← valueStart) with
          | some frame => skipFrom .firstEntry (frame :: frames) fuel
          | none => skipFrom .separator frames fuel
      | _, [] => return
      | .firstEntry, frame :: outer =>
          match ← peek with
          | none => throw frame.atEnd
          | some c =>
              if c = frame.closing then
                advance
                skipFrom .separator outer fuel
              else
                skipKey frame
                skipFrom .value frames fuel
      | .separator, frame :: outer =>
          match ← peek with
          | none => throw frame.atEnd
          | some c =>
              if c = ',' then
                advance
                skipKey frame
                skipFrom .value frames fuel
              else if c = frame.closing then
                advance
                skipFrom .separator outer fuel
              else throw frame.noSeparator

def skipValue : Reader Unit := do skipFrom .value [] (2 * (← get).length + 2)

end ScriptMinifier.Json
