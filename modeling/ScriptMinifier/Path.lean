import ScriptMinifier.Text.Basic

/-!
# Paths

A path is a text of pieces between slashes. Pieces that are empty, and single
dots behind the first piece, say nothing; what is left are the components of the
path.
-/

namespace ScriptMinifier

structure Path where
  text : Text
  deriving Repr, DecidableEq, Inhabited

inductive Component where
  /-- The slash in front of an absolute path. -/
  | root
  /-- A dot at the start. -/
  | here
  /-- Two dots. -/
  | up
  | name (text : Text)
  deriving Repr, DecidableEq

namespace Path

def ofString (s : String) : Path := ⟨s.toList⟩

def toString (p : Path) : String := String.ofList p.text

def isAbsolute (p : Path) : Bool := p.text.head? == some '/'

/-- The pieces between the slashes; an absolute path has them behind its first
slash. -/
def pieces (p : Path) : List Text :=
  match p.text with
  | '/' :: rest => rest.splitOn '/'
  | text => text.splitOn '/'

def innerComponent? (piece : Text) : Option Component :=
  if piece = [] ∨ piece = ['.'] then none
  else if piece = ['.', '.'] then some .up
  else some (.name piece)

def components (p : Path) : List Component :=
  if p.isAbsolute then .root :: p.pieces.filterMap innerComponent?
  else
    match p.pieces with
    | ['.'] :: rest => .here :: rest.filterMap innerComponent?
    | all => all.filterMap innerComponent?

def fileName? (p : Path) : Option Text :=
  match p.components.getLast? with
  | some (.name text) => some text
  | _ => none

/-- Does this piece say nothing? `first` is set where a relative path starts
with it. -/
def isVoid (first : Bool) (piece : Text) : Bool :=
  piece = [] || (piece = ['.'] && !first)

/-- Drops the pieces at the end that say nothing. The pieces come last one
first; the last of them starts a relative path if `relative` is set. -/
def dropVoid (relative : Bool) : List Text → List Text
  | [] => []
  | piece :: before =>
      if isVoid (relative && before.isEmpty) piece then dropVoid relative before
      else piece :: before

/-- The text of the path up to the component in front of the last one. -/
def parentText (p : Path) : Text :=
  let relative := !p.isAbsolute
  let kept := dropVoid relative ((dropVoid relative p.pieces.reverse).drop 1)
  let joined := List.intercalate ['/'] kept.reverse
  if p.isAbsolute then '/' :: joined else joined

/-- The path `p` with `q` behind it. An absolute `q` stands alone. -/
def join (p q : Path) : Path :=
  if q.isAbsolute then q
  else if p.text = [] ∨ p.text.getLast? = some '/' then ⟨p.text ++ q.text⟩
  else ⟨p.text ++ '/' :: q.text⟩

/-- The path with another file name, or with one behind it if it had none. -/
def withFileName (p : Path) (name : Text) : Path :=
  if p.fileName?.isSome then join ⟨p.parentText⟩ ⟨name⟩ else join p ⟨name⟩

/-- A file name at its last dot: what comes before it and what comes behind it.
A dot at the start does not divide a name. -/
def splitExtension (name : Text) : Text × Option Text :=
  let reversed := name.reverse
  let extension := (reversed.takeWhile (· != '.')).reverse
  match (reversed.dropWhile (· != '.')).drop 1 with
  | [] => (name, none)
  | stem =>
      if name = ['.', '.'] then (name, none)
      else (stem.reverse, some extension)

/-- The file name of a minified script: `.min` goes in front of the extension,
which is `js` if there was none. -/
def minifiedName (name : Text) : Text :=
  match splitExtension name with
  | (stem, some extension) => stem ++ ".min.".toList ++ extension
  | (stem, none) => stem ++ ".min.js".toList

def minified (p : Path) : Path :=
  p.withFileName (minifiedName (p.fileName?.getD []))

end Path

end ScriptMinifier
