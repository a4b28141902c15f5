import ScriptMinifier.Text.Basic

/-!
# Replacement from left to right

A rule looks at the text from some position on, and at the character before it,
and may put a new text in place of the first characters there. `Text.replace`
tries the rule at each position in turn, continues behind what was replaced and
never looks at new text again.
-/

namespace ScriptMinifier.Text

/-- Puts `new` in place of the next `length` characters. -/
structure Edit where
  length : Nat
  new : Text

/-- An edit for the text ahead, given the character before it. -/
abbrev Rule := Option Char → Text → Option Edit

/-- Applies `rule` from left to right, after passing over the first `skip`
characters, which are gone. -/
def replaceFrom (rule : Rule) (before : Option Char) (skip : Nat) : Text → Text
  | [] => []
  | c :: cs =>
      match skip with
      | n + 1 => replaceFrom rule (some c) n cs
      | 0 =>
          match rule before (c :: cs) with
          | some edit =>
              edit.new ++ replaceFrom rule (some c) (edit.length - 1) cs
          | none => c :: replaceFrom rule (some c) 0 cs

def replace (rule : Rule) (s : Text) : Text := replaceFrom rule none 0 s

end ScriptMinifier.Text
