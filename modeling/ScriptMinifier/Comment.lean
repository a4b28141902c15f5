import ScriptMinifier.Script.Scan
import ScriptMinifier.Text.Replace

/-!
# Comments by pattern

The plain way to drop comments, which looks at nothing but the comment marks: a
mark inside a string counts too.
-/

namespace ScriptMinifier.Comment

def lineRule : Text.Rule
  | _, '/' :: '/' :: cs => some ⟨Script.lineCommentLength cs + 2, []⟩
  | _, _ => none

def blockRule : Text.Rule
  | _, '/' :: '*' :: cs =>
      (Script.blockCommentLength? cs).map fun n => ⟨n + 2, []⟩
  | _, _ => none

/-- Cuts every line at its first `//`. -/
def stripLine (s : Text) : Text := Text.replace lineRule s

/-- Drops everything from a `/*` to the next `*/`. A `/*` that is not closed
stays. -/
def stripBlock (s : Text) : Text := Text.replace blockRule s

def strip (s : Text) : Text := stripBlock (stripLine s)

end ScriptMinifier.Comment
