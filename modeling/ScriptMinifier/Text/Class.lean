import ScriptMinifier.Text.Alphabetic
import ScriptMinifier.Text.Mark
import ScriptMinifier.Text.Number
import ScriptMinifier.Text.Recent

/-!
# Character classes of a script

Blanks, the characters of an identifier, and the characters of a word. The last
two differ: a superscript two belongs to an identifier and to no word, a lone
accent belongs to a word and to no identifier.

Identifiers follow Unicode 17.0. Words and their digits follow Unicode 16.0.
-/

namespace ScriptMinifier

/-- White space: the Unicode property `White_Space`. -/
def isBlank (c : Char) : Bool :=
  inRanges c.toNat
    [(0x9, 0xd), (0x20, 0x20), (0x85, 0x85), (0xa0, 0xa0), (0x1680, 0x1680),
     (0x2000, 0x200a), (0x2028, 0x2029), (0x202f, 0x202f), (0x205f, 0x205f),
     (0x3000, 0x3000)]

def isIdentifierChar (c : Char) : Bool :=
  c == '_' || c == '$' || isAlphabetic c || isNumber c

/-- Connector punctuation and the two join controls. -/
def isConnector (c : Char) : Bool :=
  inRanges c.toNat
    [(0x5f, 0x5f), (0x200c, 0x200d), (0x203f, 0x2040), (0x2054, 0x2054),
     (0xfe33, 0xfe34), (0xfe4d, 0xfe4f), (0xff3f, 0xff3f)]

def isWordDigit (c : Char) : Bool := !isRecent c && isDecimalDigit c

def isWordChar (c : Char) : Bool :=
  !isRecent c &&
    (isAlphabetic c || isDecimalDigit c || isConnector c || isMark c)

end ScriptMinifier
