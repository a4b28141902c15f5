import ScriptMinifier.Text.Class
import ScriptMinifier.Text.Replace

/-!
# White space

Runs of blanks shrink to one space, and blanks beside punctuation go.
-/

namespace ScriptMinifier.Spacing

/-- The characters that need no white space beside them. -/
def punctuation : Text :=
  ['{', '}', '(', ')', ';', ',', '=', '+', '-', '*', '/', '%', '<', '>', '!',
   '&', '|', '?', ':', '[', ']']

def isPunctuation (c : Char) : Bool := punctuation.contains c

def collapseRule : Text.Rule := fun _ s =>
  match s.takeWhile isBlank with
  | [] => none
  | run => some ⟨run.length, [' ']⟩

/-- Punctuation with the blanks on both sides of it. -/
def trimRule : Text.Rule := fun _ s =>
  let run := s.takeWhile isBlank
  match s.drop run.length with
  | [] => none
  | c :: rest =>
      if isPunctuation c then
        some ⟨run.length + 1 + (rest.takeWhile isBlank).length, [c]⟩
      else none

def collapse (s : Text) : Text := Text.replace collapseRule s

def trimPunctuation (s : Text) : Text := Text.replace trimRule s

def compress (s : Text) : Text := collapse (trimPunctuation (collapse s))

def trim (s : Text) : Text := Text.stripEnds isBlank s

end ScriptMinifier.Spacing
