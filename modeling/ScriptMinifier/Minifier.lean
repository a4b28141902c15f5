import ScriptMinifier.Comment
import ScriptMinifier.Literal.Quoted
import ScriptMinifier.Rename.Renamer
import ScriptMinifier.Script.Tokens
import ScriptMinifier.Spacing
import ScriptMinifier.Strategy

/-!
# Minifying

A script is prepared by the chosen strategy (comments out, literals set aside),
its white space is compressed, its names are replaced, and the literals go back
in. Literals are out of reach of everything in between.
-/

namespace ScriptMinifier

/-- A script without comments, with placeholders for its literals. -/
structure Prepared where
  text : Text
  literals : LiteralTable
  /-- Comments dropped, where they are counted. -/
  comments : Nat := 0
  deriving Repr, DecidableEq

def Prepared.ofTokens (tokens : Script.Tokens) : Prepared :=
  ⟨tokens.code, tokens.literals, tokens.comments⟩

def Prepared.ofStripped (stripped : Text) : Prepared :=
  let (text, literals) := protect stripped
  { text, literals }

def prepare : Strategy → Text → Prepared
  | .lexical, source => .ofTokens (Script.tokenize source)
  | .textual, source => .ofStripped (Comment.strip source)

structure Minifier where
  strategy : Strategy := .lexical
  renamer : Renamer := {}
  deriving Repr, DecidableEq, Inhabited

/-- A script and what became of it, step by step. -/
structure Minification where
  minifier : Minifier
  source : Text
  prepared : Prepared
  compressed : Text
  renamed : Text
  output : Text
  deriving Repr, DecidableEq

namespace Minifier

/-- The same minifier with the names of `map`; with its old names if the map
cannot be used. -/
def withRenames (minifier : Minifier) (map : RenameMap)
    (accepts : Renamer → Bool := Renamer.fitsSearch) : Minifier :=
  match Renamer.ofMap map accepts with
  | .ok renamer => { minifier with renamer }
  | .error _ => minifier

def literals (minifier : Minifier) (source : Text) : LiteralTable :=
  (prepare minifier.strategy source).literals

def minify (minifier : Minifier) (source : Text) : Minification :=
  let prepared := prepare minifier.strategy source
  let compressed := Spacing.compress prepared.text
  let renamed := minifier.renamer.apply compressed
  let output := Spacing.trim (prepared.literals.restore renamed)
  { minifier, source, prepared, compressed, renamed, output }

def passes (minifier : Minifier) : List String :=
  (match minifier.strategy with
    | .lexical => ["lex"]
    | .textual => ["line_comments", "block_comments", "protect_literals"]) ++
  ["whitespace"] ++ (if minifier.renamer.isEmpty then [] else ["rename"]) ++
  ["restore_literals", "trim"]

end Minifier

/-- The output of a strategy without renaming. -/
def minify (strategy : Strategy) (source : Text) : Text :=
  (Minifier.minify { strategy } source).output

end ScriptMinifier
