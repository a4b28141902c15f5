import ScriptMinifier.Path
import ScriptMinifier.Rename.Map
import ScriptMinifier.Strategy

/-!
# Settings

Which script is minified, where the result goes, and how.
-/

namespace ScriptMinifier

structure Settings where
  input : Path := .ofString "web/script.js"
  /-- Without an output path the result goes beside the script. -/
  output : Option Path := none
  strategy : Strategy := .lexical
  renames : RenameMap := .empty
  deriving Repr, DecidableEq, Inhabited

def Settings.outputPath (s : Settings) : Path := s.output.getD s.input.minified

end ScriptMinifier
