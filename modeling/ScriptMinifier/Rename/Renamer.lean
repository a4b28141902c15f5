import ScriptMinifier.Literal.Table
import ScriptMinifier.Rename.Map
import ScriptMinifier.Text.Class

/-!
# Renaming

Names are replaced in code where they stand as whole words, in one pass from
left to right. Where several names could be replaced the longest one is.
Placeholders of literals are never touched: a name that begins like one is
ignored, and so is the empty name.
-/

namespace ScriptMinifier

def isWordEdge (before after : Option Char) : Bool :=
  before.any isWordChar != after.any isWordChar

inductive RenameError where
  /-- The names are too long to search for them all at once. -/
  | tooLarge
  deriving Repr, DecidableEq

/-- The size that the search for all names may take, in bytes. -/
def renameSizeLimit : Nat := 10485760

/-- The size that the search takes for each byte of a name. -/
def renameSizePerByte : Nat := 32

def RenameError.message : RenameError → String
  | .tooLarge =>
      s!"Compiled regex exceeds size limit of {renameSizeLimit} bytes."

structure Renamer where
  names : List (Text × Text) := []
  deriving Repr, DecidableEq, Inhabited

namespace Renamer

def isUsable (name : Text) : Bool :=
  !name.isEmpty && !placeholderOpening.isPrefixOf name

/-- Puts a binding in front of the first one whose name is not longer. -/
def insertLongest (b : Text × Text) : List (Text × Text) → List (Text × Text)
  | [] => [b]
  | first :: rest =>
      if Text.byteSize first.1 ≤ Text.byteSize b.1 then b :: first :: rest
      else first :: insertLongest b rest

/-- Long names first. Names of one size keep their order. -/
def longestFirst (bindings : List (Text × Text)) : List (Text × Text) :=
  bindings.foldr insertLongest []

def build (map : RenameMap) : Renamer :=
  ⟨longestFirst (map.bindings.filter fun b => isUsable b.1)⟩

def size (renamer : Renamer) : Nat := renamer.names.length

def isEmpty (renamer : Renamer) : Bool := renamer.names.isEmpty

def fitsSearch (renamer : Renamer) : Bool :=
  renameSizePerByte *
    renamer.names.foldr (fun b n => Text.byteSize b.1 + n) 0 ≤ renameSizeLimit

/-- The renamer for a map, if the search accepts its names. Where there are no
names there is nothing to search for. -/
def ofMap (map : RenameMap) (accepts : Renamer → Bool := fitsSearch) :
    Except RenameError Renamer :=
  if (build map).isEmpty || accepts (build map) then .ok (build map)
  else .error .tooLarge

/-- Does `name` stand at the start of `s` as a whole word? -/
def occursAt (before : Option Char) (s name : Text) : Bool :=
  name.isPrefixOf s && isWordEdge before name.head? &&
    isWordEdge name.getLast? (s.drop name.length).head?

def rule (renamer : Renamer) : Text.Rule := fun before s =>
  (renamer.names.find? fun b => occursAt before s b.1).map
    fun b => ⟨b.1.length, b.2⟩

def apply (renamer : Renamer) (code : Text) : Text :=
  Text.replace renamer.rule code

end Renamer

/-- The code renamed by a map. A map that cannot be used changes nothing. -/
def rename (map : RenameMap) (code : Text)
    (accepts : Renamer → Bool := Renamer.fitsSearch) : Text :=
  match Renamer.ofMap map accepts with
  | .ok renamer => renamer.apply code
  | .error _ => code

end ScriptMinifier
