import ScriptMinifier.Literal.Table
import ScriptMinifier.Script.Scan
import ScriptMinifier.Script.Slash

/-!
# Taking a script apart

One pass over a script separates code, literals and comments. Literals move to a
table and leave placeholders, comments go, and the rest is code.

A comment with a line feed in it leaves one behind, so that lines still end
where they did. Any other comment leaves a space where the characters on its two
sides would otherwise run together into one identifier.
-/

namespace ScriptMinifier.Script

inductive Kind where
  | code
  | literal
  | comment
  deriving Repr, DecidableEq

/-- The next stretch of a script: its kind and its number of characters.
`unclosed` tells that a search for the end of a block comment has failed, here
or before. -/
structure Piece where
  kind : Kind
  length : Nat
  unclosed : Bool
  deriving Repr, DecidableEq

structure Tokens where
  code : Text := []
  literals : LiteralTable := {}
  comments : Nat := 0
  deriving Repr, DecidableEq, Inhabited

/-- A script in the course of being taken apart. The code is kept with its last
character first. Once a search for `*/` has failed there is none ahead, and
`unclosed` spares the next search. -/
structure Progress where
  recent : Text := []
  literals : LiteralTable := {}
  comments : Nat := 0
  unclosed : Bool := false
  deriving Repr, DecidableEq, Inhabited

def slashPiece (recent : Text) (unclosed : Bool) (s : Text) : Piece :=
  match s with
  | '/' :: _ => ⟨.comment, lineCommentLength s + 1, unclosed⟩
  | '*' :: inner =>
      match if unclosed then none else blockCommentLength? inner with
      | some n => ⟨.comment, n + 2, unclosed⟩
      | none => ⟨.code, 2, true⟩
  | _ =>
      match if slashOpensRegex recent then regexLength? false s else none with
      | some n => ⟨.literal, n + 1, unclosed⟩
      | none => ⟨.code, 1, unclosed⟩

def nextPiece (recent : Text) (unclosed : Bool) (c : Char) (cs : Text) :
    Piece :=
  if c = '\'' ∨ c = '"' then ⟨.literal, stringLength c cs + 1, unclosed⟩
  else if c = '`' then ⟨.literal, templateLength cs + 1, unclosed⟩
  else if c = '/' then slashPiece recent unclosed cs
  else ⟨.code, 1, unclosed⟩

def isIdentifierSide (side : Option Char) : Bool := side.any isIdentifierChar

/-- What a comment leaves behind between its two neighbours. -/
def commentTrace (comment : Text) (before after : Option Char) : Text :=
  if comment.contains '\n' then ['\n']
  else if isIdentifierSide before && isIdentifierSide after then [' ']
  else []

/-- Takes in the piece at the start of `s`. -/
def Progress.absorb (p : Progress) (piece : Piece) (s : Text) : Progress :=
  let text := s.take piece.length
  match piece.kind with
  | .code =>
      { p with
        recent := text.reverse ++ p.recent
        unclosed := piece.unclosed }
  | .literal =>
      { p with
        recent := (placeholder p.literals.size).reverse ++ p.recent
        literals := p.literals.push text
        unclosed := piece.unclosed }
  | .comment =>
      { p with
        recent :=
          commentTrace text p.recent.head? (s.drop piece.length).head? ++
            p.recent
        comments := p.comments + 1
        unclosed := piece.unclosed }

/-- Takes the rest of a script apart, after passing over the `skip` characters
of the current piece. -/
def Progress.run (p : Progress) (skip : Nat) : Text → Progress
  | [] => p
  | c :: cs =>
      match skip with
      | n + 1 => p.run n cs
      | 0 =>
          let piece := nextPiece p.recent p.unclosed c cs
          (p.absorb piece (c :: cs)).run (piece.length - 1) cs

def Progress.tokens (p : Progress) : Tokens :=
  ⟨p.recent.reverse, p.literals, p.comments⟩

def tokenize (source : Text) : Tokens := (Progress.run {} 0 source).tokens

end ScriptMinifier.Script
