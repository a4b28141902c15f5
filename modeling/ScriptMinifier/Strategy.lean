import ScriptMinifier.Text.Basic

/-!
# Strategies

How comments and literals are found before white space is touched: by reading
the script from left to right, or by patterns alone.
-/

namespace ScriptMinifier

inductive Strategy where
  | lexical
  | textual
  deriving Repr, DecidableEq, Inhabited

structure UnknownStrategy where
  name : Text
  deriving Repr, DecidableEq

namespace Strategy

def name : Strategy → String
  | .lexical => "lexical"
  | .textual => "textual"

def ofName? (name : Text) : Option Strategy :=
  [Strategy.lexical, Strategy.textual].find? fun s => s.name.toList == name

/-- Reads a name in upper or lower case. -/
def parse (text : Text) : Except UnknownStrategy Strategy :=
  let lower := text.map Char.toLower
  match ofName? lower with
  | some strategy => .ok strategy
  | none => .error ⟨lower⟩

end Strategy

def UnknownStrategy.message (e : UnknownStrategy) : String :=
  s!"unknown strategy '{String.ofList e.name}' (expected lexical or textual)"

end ScriptMinifier
