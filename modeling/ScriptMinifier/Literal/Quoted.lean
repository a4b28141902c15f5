import ScriptMinifier.Literal.Table

/-!
# Literals between quotes

The plain way to find literals: a quote, then everything up to the next quote of
either kind. Quotes pair up from the left, and one that is left over stays in
the text.
-/

namespace ScriptMinifier

def isQuote (c : Char) : Bool := c == '"' || c == '\''

/-- The number of characters up to and including the next quote. -/
def nextQuote? : Text → Option Nat
  | [] => none
  | c :: cs => if isQuote c then some 1 else (nextQuote? cs).map (· + 1)

/-- Takes the quoted literals out of a text, after passing over the first `skip`
characters, and adds them to the table. -/
def protectFrom (table : LiteralTable) (skip : Nat) : Text → Text × LiteralTable
  | [] => ([], table)
  | c :: cs =>
      match skip with
      | n + 1 => protectFrom table n cs
      | 0 =>
          match if isQuote c then nextQuote? cs else none with
          | some n =>
              let token := placeholder table.size
              let (text, filled) :=
                protectFrom (table.push (c :: cs.take n)) n cs
              (token ++ text, filled)
          | none =>
              let (text, filled) := protectFrom table 0 cs
              (c :: text, filled)

def protect (s : Text) : Text × LiteralTable := protectFrom {} 0 s

end ScriptMinifier
