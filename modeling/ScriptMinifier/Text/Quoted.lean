import ScriptMinifier.Text.Basic
import ScriptMinifier.Text.Mark
import ScriptMinifier.Text.Printable

/-!
# Quoted text

Text in diagnostics stands between double quotes. Double quotes, backslashes and
the common controls are escaped, and so is every character that would not show
by itself: those that do not print, and the marks that attach to the character
before them.
-/

namespace ScriptMinifier.Text

/-- A character by its code point: `\u{1f}`. -/
def codePointEscape (c : Char) : Text :=
  ['\\', 'u', '\x7b'] ++ Nat.toDigits 16 c.toNat ++ ['\x7d']

def quotedChar (c : Char) : Text :=
  if c = '\x00' then ['\\', '0']
  else if c = '\t' then ['\\', 't']
  else if c = '\r' then ['\\', 'r']
  else if c = '\n' then ['\\', 'n']
  else if c = '\\' ∨ c = '"' then ['\\', c]
  else if isMark c && isGraphemeExtend c || !isPrintable c then
    codePointEscape c
  else [c]

def quoted (s : Text) : Text := '"' :: s.flatMap quotedChar ++ ['"']

end ScriptMinifier.Text
