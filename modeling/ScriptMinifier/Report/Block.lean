import ScriptMinifier.Path
import ScriptMinifier.Report.Size

/-!
# The success block

What the console shows once a script is written.
-/

namespace ScriptMinifier.SizeReport

def block (r : SizeReport) (output : Path) : Text :=
  "\n[OK] Minified script written to: ".toList ++ output.text ++
  "\n  Original size: ".toList ++ grouped r.source ++
  " bytes\n  Minified size: ".toList ++ grouped r.minified ++
  " bytes\n  Reduction: ".toList ++ r.reductionText ++
  "%\n\n[!] Don't forget to update index.html to use ".toList ++
  output.fileName?.getD output.text ++ "!\n".toList

end ScriptMinifier.SizeReport
