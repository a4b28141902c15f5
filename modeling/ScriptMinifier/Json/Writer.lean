import ScriptMinifier.Text.Basic

/-!
# Writing JSON

Objects are written without blanks. In strings only what must be escaped is
escaped.
-/

namespace ScriptMinifier.Json

def controlEscape (c : Char) : Text :=
  let digits := Nat.toDigits 16 c.toNat
  ['\\', 'u'] ++ List.replicate (4 - digits.length) '0' ++ digits

def escapeChar (c : Char) : Text :=
  if c = '"' then ['\\', '"']
  else if c = '\\' then ['\\', '\\']
  else if c = '\x08' then ['\\', 'b']
  else if c = '\x0c' then ['\\', 'f']
  else if c = '\n' then ['\\', 'n']
  else if c = '\r' then ['\\', 'r']
  else if c = '\t' then ['\\', 't']
  else if c.toNat < 0x20 then controlEscape c
  else [c]

def writeString (s : Text) : Text := '"' :: s.flatMap escapeChar ++ ['"']

/-- An object with the given keys and written values. -/
def writeObject (fields : List (Text × Text)) : Text :=
  let members := fields.map fun f => writeString f.1 ++ ':' :: f.2
  ['\x7b'] ++ List.intercalate [','] members ++ ['\x7d']

end ScriptMinifier.Json
