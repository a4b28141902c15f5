import ScriptMinifier.Text.Basic
import ScriptMinifier.Text.Class

/-!
# What a slash means

Behind an operand a slash divides; elsewhere it opens a regular expression. The
code in front of it decides.
-/

namespace ScriptMinifier.Script

/-- The words behind which an operand is still to come. -/
def operandKeywords : List Text :=
  ["return", "typeof", "instanceof", "in", "of", "new", "delete", "void",
   "throw", "case", "do", "else", "yield", "await"].map String.toList

/-- Does a slash open a regular expression here? `recent` is the code in front
of the slash, its last character first. -/
def slashOpensRegex (recent : Text) : Bool :=
  match recent.dropWhile isBlank with
  | [] => true
  | c :: cs =>
      if (c = '+' ∨ c = '-') ∧ cs.head? = some c then false
      else if c = ')' ∨ c = ']' then false
      else if isIdentifierChar c then
        operandKeywords.contains ((c :: cs).takeWhile isIdentifierChar).reverse
      else true

def regexAllowed (code : Text) : Bool := slashOpensRegex code.reverse

end ScriptMinifier.Script
