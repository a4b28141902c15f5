import ScriptMinifier.Path

/-!
# File trees

Files and directories, without links, and the working directory among them. A
path is followed piece by piece: an absolute one from the root of the tree, any
other from the working directory.
-/

namespace ScriptMinifier

inductive Fault where
  | notFound
  | notADirectory
  | isADirectory
  | nameTooLong
  | nulInPath
  | notUtf8
  | other (message : String)
  deriving Repr, DecidableEq

def Fault.message : Fault → String
  | .notFound => "No such file or directory (os error 2)"
  | .notADirectory => "Not a directory (os error 20)"
  | .isADirectory => "Is a directory (os error 21)"
  | .nameTooLong => "File name too long (os error 36)"
  | .nulInPath => "file name contained an unexpected NUL byte"
  | .notUtf8 => "stream did not contain valid UTF-8"
  | .other message => message

/-- The names on the way from the root down to an entry. -/
abbrev Location := List Text

inductive Entry where
  | file (content : ByteArray)
  | directory

def Entry.isDirectory : Entry → Bool
  | .file _ => false
  | .directory => true

structure FileTree where
  entries : List (Location × Entry) := []
  /-- The working directory. Unless it is said where it lies, no path from above
  spells its name. -/
  home : Location := [[]]
  deriving Inhabited

namespace FileTree

/-- The entry at a location. The working directory, and all that it lies in, is
always there. -/
def get? (tree : FileTree) (location : Location) : Option Entry :=
  if location.isPrefixOf tree.home then some .directory
  else (tree.entries.find? fun e => e.1 = location).map (·.2)

def set (tree : FileTree) (location : Location) (entry : Entry) : FileTree :=
  let others := tree.entries.filter fun e => e.1 ≠ location
  { tree with entries := others ++ [(location, entry)] }

/-- Names of files have at most 255 bytes. -/
def isTooLong (name : Text) : Bool := 255 < Text.byteSize name

/-- Follows one piece of a path. Above the root there is the root. -/
def step (tree : FileTree) (location : Location) (piece : Text) :
    Except Fault Location :=
  match tree.get? location with
  | none => .error .notFound
  | some (.file _) => .error .notADirectory
  | some .directory =>
      if piece = [] ∨ piece = ['.'] then .ok location
      else if piece = ['.', '.'] then .ok location.dropLast
      else if isTooLong piece then .error .nameTooLong
      else if (tree.get? (location ++ [piece])).isSome then
        .ok (location ++ [piece])
      else .error .notFound

def start (tree : FileTree) (p : Path) : Location :=
  if p.isAbsolute then [] else tree.home

/-- Paths that lead nowhere, whatever the files are. A path has less than 4096
bytes. -/
def checkPath (p : Path) : Except Fault Unit :=
  if p.text.contains '\x00' then .error .nulInPath
  else if p.text = [] then .error .notFound
  else if 4096 ≤ Text.byteSize p.text then .error .nameTooLong
  else .ok ()

def locate (tree : FileTree) (p : Path) : Except Fault Location := do
  checkPath p
  p.pieces.foldlM tree.step (tree.start p)

def contains (tree : FileTree) (p : Path) : Bool :=
  (tree.locate p).toOption.isSome

def read (tree : FileTree) (p : Path) : Except Fault ByteArray := do
  match tree.get? (← tree.locate p) with
  | some (.file content) => return content
  | some .directory => throw .isADirectory
  | none => throw .notFound

/-- The location of a file to be written: its directory must be there, and its
name must be a name. -/
def target (tree : FileTree) (p : Path) : Except Fault Location := do
  checkPath p
  let reversed := p.pieces.reverse
  match reversed.dropWhile (· = []) with
  | [] => throw .isADirectory
  | name :: before =>
      let location ← before.reverse.foldlM tree.step (tree.start p)
      if !(tree.get? location).any Entry.isDirectory then throw .notADirectory
      else if reversed.head? = some [] ∨ name = ['.'] ∨ name = ['.', '.'] then
        throw .isADirectory
      else if isTooLong name then throw .nameTooLong
      else if (tree.get? (location ++ [name])).any Entry.isDirectory then
        throw .isADirectory
      else return location ++ [name]

/-- Writes a file. What cannot be written leaves everything as it was. -/
def write (tree : FileTree) (p : Path) (content : ByteArray) :
    Except Fault FileTree := do
  return tree.set (← tree.target p) (.file content)

end FileTree

end ScriptMinifier
